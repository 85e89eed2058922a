/-
Lpc1768/WakeUp.lean

No lost wake-up.  A task that waits on its semaphore although its ring has
work for it is always covered: the semaphore has been given, or a bit of its
group is raised that the handler has not given the semaphore for.

The delicate moment is an event between the handler's read of `IntStatus` and
its write of `IntClear`.  If its bit is among those being cleared, the handler
has seen an earlier event of the group and has given the semaphore, and no
task can have taken it since (`Covered.done`).  If not, the bit survives the
clear.

Receive and transmit side are two instances of one argument (`Signal`): which
bits lead to the semaphore, and from which statement on the handler has given
it.  `no_lost_wakeup` is the statement for every run.
-/
import Lpc1768.EnetSys
import Lpc1768.RxDelivery

namespace Lpc1768

/-! ### Bits -/

theorem and_ne_zero_iff {n : ℕ} {x y : BitVec n} :
    x &&& y ≠ 0 ↔ ∃ k, x.getLsbD k = true ∧ y.getLsbD k = true := by
  constructor
  · intro h
    by_contra hno
    refine h ?_
    ext k hk
    have hk' : ¬ (x.getLsbD k = true ∧ y.getLsbD k = true) := fun hxy => hno ⟨k, hxy⟩
    simpa [BitVec.getLsbD_eq_getElem hk] using hk'
  · rintro ⟨k, hx, hy⟩ h
    have hk := congrArg (BitVec.getLsbD · k) h
    simp [hx, hy] at hk

/-! ### One semaphore of the handler -/

/-- A semaphore: the bits it is given for, and the statements of the handler
before which it has been given. -/
structure Signal where
  group : BitVec 32
  gave : IrqPc → Bool
  gave_giveRx : gave .giveRx = false
  gave_clear : gave .clear = true

def rxSignal : Signal where
  group := rxGroup
  gave := fun pc => pc ≠ .giveRx
  gave_giveRx := rfl
  gave_clear := rfl

def txSignal : Signal where
  group := txGroup
  gave := fun pc => pc = .clear
  gave_giveRx := rfl
  gave_clear := rfl

variable {g : Signal} {irq : Option (IrqPc × BitVec 32)} {intStatus : BitVec 32} {token : Bool}
variable {idle : Prop}

/-- The bits that the handler will clear and has given the semaphore for. -/
def Signal.settled (g : Signal) : Option (IrqPc × BitVec 32) → BitVec 32
  | some (pc, ints) => if g.gave pc then ints else 0
  | none => 0

/-- While the task is `idle`, waiting although there is work, a wake-up is on
its way. -/
structure Covered (g : Signal) (irq : Option (IrqPc × BitVec 32)) (intStatus : BitVec 32)
    (token : Bool) (idle : Prop) : Prop where
  given : g.settled irq &&& g.group ≠ 0 → token = true
  work : idle → token = true ∨ ∃ k, intStatus.getLsbD k = true ∧
    (g.settled irq).getLsbD k = false ∧ g.group.getLsbD k = true

/-- The task has work only if it had before. -/
theorem Covered.imp {idle' : Prop} (h : Covered g irq intStatus token idle)
    (himp : idle' → idle) : Covered g irq intStatus token idle' where
  given := h.given
  work := fun hi => h.work (himp hi)

/-- A step of the task itself, which is not idle after it. -/
theorem Covered.task (intStatus : BitVec 32) (token : Bool) (hi : ¬ idle) :
    Covered g none intStatus token idle where
  given := fun h => absurd (BitVec.zero_and) h
  work := fun h => absurd h hi

/-- More bits are raised. -/
theorem Covered.raise (h : Covered g irq intStatus token idle) (bits : BitVec 32) :
    Covered g irq (intStatus ||| bits) token idle where
  given := h.given
  work := by
    intro hi
    rcases h.work hi with ht | ⟨k, hk, hset, hgroup⟩
    · exact .inl ht
    · refine .inr ⟨k, ?_, hset, hgroup⟩
      simp [hk]

/-- **An event of the group covers whatever work it brings**, wherever the
handler is. -/
theorem Covered.done {idle' : Prop} (h : Covered g irq intStatus token idle) {bits : BitVec 32}
    (hb : bits &&& g.group ≠ 0) : Covered g irq (intStatus ||| bits) token idle' where
  given := h.given
  work := by
    intro _
    obtain ⟨k, hk, hgroup⟩ := and_ne_zero_iff.mp hb
    rcases hset : (g.settled irq).getLsbD k with - | -
    · refine .inr ⟨k, ?_, hset, hgroup⟩
      simp [hk]
    · -- the bit is about to be cleared, but an event before it gave the token
      exact .inl (h.given (and_ne_zero_iff.mpr ⟨k, hset, hgroup⟩))

theorem Covered.enter (h : Covered g none intStatus token idle) (ints : BitVec 32) :
    Covered g (some (.giveRx, ints)) intStatus token idle := by
  have hset : g.settled (some (.giveRx, ints)) = g.settled none := by
    simp only [Signal.settled, g.gave_giveRx, if_neg Bool.false_ne_true]
  exact ⟨by rw [hset]; exact h.given, by rw [hset]; exact h.work⟩

/-- The handler moves on, and gives the semaphore where it has to. -/
theorem Covered.advance {pc pc' : IrqPc} {ints : BitVec 32} {token' : Bool}
    (h : Covered g (some (pc, ints)) intStatus token idle)
    (hkeep : token = true → token' = true)
    (hgive : g.gave pc' = true → ints &&& g.group ≠ 0 → token' = true) :
    Covered g (some (pc', ints)) intStatus token' idle := by
  rcases hg : g.gave pc' with - | -
  · have hset : g.settled (some (pc', ints)) = 0 := by
      simp only [Signal.settled, hg, if_neg Bool.false_ne_true]
    refine ⟨fun hne => absurd (by rw [hset]; exact BitVec.zero_and) hne, fun hi => ?_⟩
    rw [hset]
    rcases h.work hi with ht | ⟨k, hk, -, hgroup⟩
    · exact .inl (hkeep ht)
    · exact .inr ⟨k, hk, by simp, hgroup⟩
  · have hset : g.settled (some (pc', ints)) = ints := by
      simp only [Signal.settled, hg, if_true]
    refine ⟨fun hne => hgive hg (by rwa [hset] at hne), fun hi => ?_⟩
    rw [hset]
    rcases h.work hi with ht | ⟨k, hk, -, hgroup⟩
    · exact .inl (hkeep ht)
    · rcases hint : ints.getLsbD k with - | -
      · exact .inr ⟨k, hk, hint, hgroup⟩
      · exact .inl (hgive hg (and_ne_zero_iff.mpr ⟨k, hint, hgroup⟩))

/-- `IntClear` removes settled bits only. -/
theorem Covered.clear {ints : BitVec 32}
    (h : Covered g (some (.clear, ints)) intStatus token idle) :
    Covered g none (intStatus &&& ~~~ints) token idle where
  given := fun hne => absurd (BitVec.zero_and) hne
  work := by
    intro hi
    have hset : g.settled (some (.clear, ints)) = ints := by
      simp only [Signal.settled, g.gave_clear, if_true]
    rcases h.work hi with ht | ⟨k, hk, hint, hgroup⟩
    · exact .inl ht
    · rw [hset] at hint
      refine .inr ⟨k, ?_, by simp [Signal.settled], hgroup⟩
      rw [BitVec.getLsbD_and, BitVec.getLsbD_not, hk, hint]
      simpa using BitVec.lt_of_getLsbD hk

/-- Bits of the other group are cleared. -/
theorem Covered.mask (h : Covered g irq intStatus token idle) {bits : BitVec 32}
    (hb : bits &&& g.group = 0) : Covered g irq (intStatus &&& ~~~bits) token idle where
  given := h.given
  work := by
    intro hi
    rcases h.work hi with ht | ⟨k, hk, hset, hgroup⟩
    · exact .inl ht
    · refine .inr ⟨k, ?_, hset, hgroup⟩
      have hbit : bits.getLsbD k = false := by
        by_contra hbk
        rw [Bool.not_eq_false] at hbk
        exact and_ne_zero_iff.mpr ⟨k, hbk, hgroup⟩ hb
      rw [BitVec.getLsbD_and, BitVec.getLsbD_not, hk, hbit]
      simpa using BitVec.lt_of_getLsbD hk

/-- What is covered needs no bit raised only when the semaphore is given. -/
theorem Covered.pending (h : Covered g irq intStatus token idle) (hi : idle)
    (ht : token = false) : intStatus &&& g.group ≠ 0 := by
  rcases h.work hi with htrue | ⟨k, hk, -, hgroup⟩
  · rw [ht] at htrue
    cases htrue
  · exact and_ne_zero_iff.mpr ⟨k, hk, hgroup⟩

/-! ### The two tasks -/

def RxCovered (s : EnetSys) : Prop := Covered rxSignal s.irq s.intStatus s.rxSem s.rxIdle

/-- The transmit side is covered, and no error is around that would reset it. -/
structure TxCovered (s : EnetSys) : Prop where
  covered : Covered txSignal s.irq s.intStatus s.txCleanSem s.txIdle
  noErr : s.intStatus &&& txErrs = 0
  noReset : s.txTask ≠ .reset

theorem RxCovered.handler {s : EnetSys} (h : RxCovered s) : RxCovered (enetIRQHandler s) := by
  unfold RxCovered at h
  rcases hirq : s.irq with - | ⟨pc, ints⟩
  · rw [hirq] at h
    simp only [RxCovered, enetIRQHandler, hirq]
    exact h.enter _
  · rw [hirq] at h
    cases pc with
    | giveRx =>
        simp only [RxCovered, enetIRQHandler, hirq]
        refine h.advance (fun ht => ?_) (fun _ hne => ?_)
        · rw [ht, Bool.true_or]
        · exact Bool.or_eq_true_iff.mpr (.inr (decide_eq_true hne))
    | giveTx =>
        simp only [RxCovered, enetIRQHandler, hirq]
        exact h.advance id fun _ hne => h.given hne
    | clear =>
        simp only [RxCovered, enetIRQHandler, hirq]
        exact h.clear

theorem TxCovered.handler {s : EnetSys} (h : TxCovered s) : TxCovered (enetIRQHandler s) := by
  obtain ⟨hc, herr, hreset⟩ := h
  rcases hirq : s.irq with - | ⟨pc, ints⟩
  · rw [hirq] at hc
    simp only [enetIRQHandler, hirq]
    exact ⟨hc.enter _, herr, hreset⟩
  · rw [hirq] at hc
    cases pc with
    | giveRx =>
        simp only [enetIRQHandler, hirq]
        refine ⟨hc.advance id fun hgave => ?_, herr, hreset⟩
        exact absurd hgave (by decide)
    | giveTx =>
        simp only [enetIRQHandler, hirq]
        refine ⟨hc.advance (fun ht => ?_) (fun _ hne => ?_), herr, hreset⟩
        · rw [ht, Bool.true_or]
        · exact Bool.or_eq_true_iff.mpr (.inr (decide_eq_true hne))
    | clear =>
        simp only [enetIRQHandler, hirq]
        refine ⟨hc.clear, ?_, hreset⟩
        show s.intStatus &&& ~~~ints &&& txErrs = 0
        rw [BitVec.and_assoc, BitVec.and_comm (~~~ints), ← BitVec.and_assoc, herr]
        exact BitVec.zero_and

/-! ### Steps and runs -/

theorem RxCovered.step {s t : EnetSys} {a : EnetAct} (h : RxCovered s)
    (hstep : enetStep s a = some t) : RxCovered t := by
  obtain ⟨f, rfl, -, rfl⟩ | ⟨tx, rfl, -, rfl⟩ | ⟨bits, rfl, rfl⟩ | ⟨rfl, rfl⟩ |
    ⟨heap, restart, rfl, hirq, htask⟩ | ⟨rfl, hirq, htask⟩ | ⟨o, rfl, -, hout⟩ :=
    enetStep_cases hstep
  · exact h.done (by decide)
  · exact Covered.raise h _
  · exact Covered.raise h _
  · exact h.handler
  · obtain ⟨hidle, ⟨hirq', -⟩, -⟩ := vPacketReceiveTask_spec htask
    show Covered rxSignal t.irq t.intStatus t.rxSem t.rxIdle
    rw [hirq', hirq]
    exact .task _ _ hidle
  · obtain ⟨-, -, ⟨hirq', hsem, hrxTask⟩, ⟨hint, -⟩, mac1, hrx⟩ := vTransmitCleanupTask_spec htask
    show Covered rxSignal t.irq t.intStatus t.rxSem t.rxIdle
    rw [EnetSys.rxIdle, hirq', hsem, hrxTask, hint, hrx]
    exact h
  · obtain ⟨tx, rfl, -⟩ := lpcLowLevelOutput_spec hout
    exact h

/-- No transmit error is raised. -/
def EnetAct.noTxErr : EnetAct → Bool
  | .raise bits => bits &&& txErrs = 0
  | _ => true

theorem TxCovered.step {s t : EnetSys} {a : EnetAct} (h : TxCovered s) (ha : a.noTxErr = true)
    (hstep : enetStep s a = some t) : TxCovered t := by
  obtain ⟨hc, herr, hreset⟩ := h
  have hor : ∀ bits : BitVec 32, bits &&& txErrs = 0 →
      (s.intStatus ||| bits) &&& txErrs = 0 := by
    intro bits hb
    rw [BitVec.and_or_distrib_right, herr, hb]
    rfl
  obtain ⟨f, rfl, -, rfl⟩ | ⟨tx, rfl, -, rfl⟩ | ⟨bits, rfl, rfl⟩ | ⟨rfl, rfl⟩ |
    ⟨heap, restart, rfl, hirq, htask⟩ | ⟨rfl, hirq, htask⟩ | ⟨o, rfl, -, hout⟩ :=
    enetStep_cases hstep
  · exact ⟨hc.raise _, hor _ (by decide), hreset⟩
  · exact ⟨hc.done (by decide), hor _ (by decide), hreset⟩
  · exact ⟨hc.raise _, hor _ (of_decide_eq_true ha), hreset⟩
  · exact TxCovered.handler ⟨hc, herr, hreset⟩
  · obtain ⟨-, ⟨hirq', hsem, htx, htxTask⟩, ⟨hint, -⟩ | ⟨hint, -⟩⟩ := vPacketReceiveTask_spec htask
    · refine ⟨?_, by rw [hint]; exact herr, by rw [htxTask]; exact hreset⟩
      rw [EnetSys.txIdle, hirq', hsem, htx, htxTask, hint]
      exact hc
    · -- the receive task clears its error bits, none of which is the transmit side's
      refine ⟨?_, ?_, by rw [htxTask]; exact hreset⟩
      · rw [EnetSys.txIdle, hirq', hsem, htx, htxTask, hint]
        exact hc.mask (by decide)
      · rw [hint, BitVec.and_assoc, BitVec.and_comm (~~~rxErrs), ← BitVec.and_assoc, herr]
        exact BitVec.zero_and
  · obtain ⟨hidle, hunder, ⟨hirq', -⟩, ⟨hint, -⟩, -⟩ := vTransmitCleanupTask_spec htask
    refine ⟨?_, by rw [hint]; exact herr, fun hpc => ?_⟩
    · rw [hirq', hirq]
      exact .task _ _ (hidle hreset)
    · exact absurd herr (txUnderrun_iff.mp (hunder hpc))
  · obtain ⟨tx, rfl, hlast, hcons⟩ := lpcLowLevelOutput_spec hout
    refine ⟨hc.imp ?_, herr, hreset⟩
    rintro ⟨hwait, hne⟩
    refine ⟨hwait, ?_⟩
    rw [← hlast, ← hcons]
    exact hne

/-- `lpc_enetif_init` has returned: nothing is pending, the ring is empty, there
is nothing to reclaim, and both tasks are at their waits. -/
structure EnetSys.Idle (s : EnetSys) : Prop where
  pending : s.intStatus &&& (rxGroup ||| txGroup) = 0
  irq : s.irq = none
  rxEmpty : isRxEmpty s.rx = true
  rxTask : s.rxTask = .wait
  reclaimed : s.tx.drv.lasttxidx = s.tx.drv.txConsumeIndex
  txTask : s.txTask = .wait

theorem EnetSys.Idle.rxCovered {s : EnetSys} (h : s.Idle) : RxCovered s := by
  simp only [RxCovered, h.irq]
  refine .task _ _ ?_
  rintro ⟨-, hne⟩
  cases h.rxEmpty.symm.trans hne

theorem EnetSys.Idle.txCovered {s : EnetSys} (h : s.Idle) : TxCovered s where
  covered := by
    rw [h.irq]
    exact .task _ _ fun hidle => hidle.2 h.reclaimed
  noErr := by
    have herr : (rxGroup ||| txGroup) &&& txErrs = txErrs := by decide
    rw [← herr, ← BitVec.and_assoc, h.pending]
    exact BitVec.zero_and
  noReset := by
    rw [h.txTask]
    rintro ⟨⟩

/-- **No lost wake-up.**  Whenever the receive task is blocked with count 0 and
no receive interrupt is pending, the ring is empty; whenever the cleanup task
is blocked with count 0 and no transmit interrupt is pending, everything is
reclaimed, as long as no transmit error is raised. -/
theorem no_lost_wakeup {s t : EnetSys} {acts : List EnetAct} (hs : s.Idle)
    (hrun : Run enetStep s acts t) :
    (t.rxTask = .wait → t.rxSem = false → t.intStatus &&& rxGroup = 0 →
      isRxEmpty t.rx = true) ∧
    ((∀ a ∈ acts, a.noTxErr = true) → t.txTask = .wait → t.txCleanSem = false →
      t.intStatus &&& txGroup = 0 → t.tx.drv.lasttxidx = t.tx.drv.txConsumeIndex) := by
  constructor
  · intro hwait htoken hpending
    have h : RxCovered t := hrun.invariant (fun _ _ _ h => h.step) hs.rxCovered
    by_contra hne
    rw [Bool.not_eq_true] at hne
    exact Covered.pending h ⟨hwait, hne⟩ htoken hpending
  · intro hacts hwait htoken hpending
    have h : TxCovered t := hrun.invariant_of (fun _ _ _ h => h.step) hacts hs.txCovered
    by_contra hne
    exact h.covered.pending ⟨hwait, hne⟩ htoken hpending

/-- One frame comes in and one goes out; the handler sees both at once. -/
def oneFrameEach : List EnetAct :=
  [.output (.call (txFrame60 1) [] none), .output .poll, .receive rxFrame64, .complete,
    .irq, .irq, .irq, .irq,
    .rx none rxHeap, .rx none rxHeap, .rx none rxHeap, .rx (rxHeap 4) rxHeap, .rx none rxHeap,
    .tx, .tx, .tx, .tx]

theorem no_lost_wakeup_one_frame :
    ∃ t, Run enetStep (.start (RxSys.start rxDrvZero rxHeap).drv txDrvZero) oneFrameEach t ∧
      isRxEmpty t.rx = true ∧ t.tx.drv.lasttxidx = t.tx.drv.txConsumeIndex := by
  have hend : (oneFrameEach.foldlM enetStep
      (.start (RxSys.start rxDrvZero rxHeap).drv txDrvZero)).map (fun t =>
        (t.rxTask, t.rxSem, t.txTask, t.txCleanSem, t.intStatus)) =
      some (.wait, false, .wait, false, 0) := by decide +kernel
  obtain ⟨t, hrun, ht⟩ := Option.map_eq_some_iff.mp hend
  simp only [Prod.mk.injEq] at ht
  obtain ⟨hrx, hrxSem, htx, htxSem, hint⟩ := ht
  rw [← run_iff_foldlM] at hrun
  have hidle : (EnetSys.start (RxSys.start rxDrvZero rxHeap).drv txDrvZero).Idle :=
    ⟨by decide, rfl, by decide +kernel, rfl, by decide, rfl⟩
  obtain ⟨hempty, hreclaimed⟩ := no_lost_wakeup hidle hrun
  refine ⟨t, hrun, hempty hrx hrxSem (by rw [hint]; rfl), ?_⟩
  exact hreclaimed (by decide) htx htxSem (by rw [hint]; rfl)

end Lpc1768
