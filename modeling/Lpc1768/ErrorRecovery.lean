/-
Lpc1768/ErrorRecovery.lean

Recovery from the error interrupts.  Both tasks look for the error bits of
their group in `IntStatus` and reset their side when they find one; but it is
the handler that wakes them, and the handler has cleared these bits before a
task can run.  So an error that was serviced should lead to a reset the next
time its task looks, and does so only if the hardware has raised an error of
the group anew since the handler read `IntStatus`.

Between two handler runs `fresh` is `IntStatus` (`WatchInv`): nothing that the
handler has seen is left for the tasks.  `recovers_iff` is the statement for
runs.
-/
import Lpc1768.EnetSys
import Lpc1768.RxDelivery

namespace Lpc1768

/-! ### The property and the condition -/

/-- `lpc_low_level_input` reads `IntStatus` in this step. -/
def EnetSys.looksRx (s : EnetSys) : EnetAct → Bool
  | .rx .. => s.rxTask = .call
  | _ => false

/-- `vTransmitCleanupTask` reads `IntStatus` in this step. -/
def EnetSys.looksTx (s : EnetSys) : EnetAct → Bool
  | .tx => s.txTask = .status
  | _ => false

/-- A task that looks for errors after the handler serviced one takes its reset
branch. -/
def Recovers (s : EnetSys) (a : EnetAct) (t : EnetSys) : Prop :=
  (s.looksRx a = true → s.owed &&& rxErrs ≠ 0 → t.rxTask = .clear) ∧
  (s.looksTx a = true → s.owed &&& txErrs ≠ 0 → t.txTask = .reset)

/-- By the time the task looks, the hardware has raised an error of the group
again. -/
def RaisedAgain (s : EnetSys) (a : EnetAct) (_ : EnetSys) : Prop :=
  (s.looksRx a = true → s.owed &&& rxErrs ≠ 0 → s.fresh &&& rxErrs ≠ 0) ∧
  (s.looksTx a = true → s.owed &&& txErrs ≠ 0 → s.fresh &&& txErrs ≠ 0)

instance (s : EnetSys) (a : EnetAct) (t : EnetSys) : Decidable (Recovers s a t) := by
  unfold Recovers; infer_instance

/-- The ghosts start here, between two runs of the handler. -/
def EnetSys.watch (s : EnetSys) : EnetSys :=
  { s with irq := none, fresh := s.intStatus, owed := 0 }

/-! ### The invariant -/

/-- What the handler will leave of `IntStatus` is what it has not seen. -/
def WatchInv (s : EnetSys) : Prop :=
  s.fresh &&& pendingMask = s.intStatus &&& ~~~s.clearing &&& pendingMask

theorem watchInv_watch (s : EnetSys) : WatchInv s.watch := by
  show s.intStatus &&& pendingMask = s.intStatus &&& ~~~0 &&& pendingMask
  rw [and_not_zero]

theorem WatchInv.raise {s : EnetSys} (h : WatchInv s) (bits : BitVec 32) :
    WatchInv (s.raise bits) := by
  show (s.fresh ||| (bits &&& ~~~s.clearing)) &&& pendingMask =
    (s.intStatus ||| bits) &&& ~~~s.clearing &&& pendingMask
  rw [BitVec.and_or_distrib_right, BitVec.and_or_distrib_right, BitVec.and_or_distrib_right,
    show s.fresh &&& pendingMask = _ from h]

theorem WatchInv.handler {s : EnetSys} (h : WatchInv s) : WatchInv (enetIRQHandler s) := by
  rcases hirq : s.irq with - | ⟨pc, ints⟩
  · -- everything that is pending is seen
    simp only [WatchInv, EnetSys.clearing, enetIRQHandler, hirq, Option.map_some, Option.getD_some]
    ext k hk
    simp only [BitVec.getElem_and, BitVec.getElem_not]
    cases s.intStatus[k] <;> cases pendingMask[k] <;> simp
  · have hclr : s.clearing = ints := by simp [EnetSys.clearing, hirq]
    rw [WatchInv, hclr] at h
    cases pc with
    | giveRx =>
        simp only [enetIRQHandler, hirq]
        exact h
    | giveTx =>
        simp only [enetIRQHandler, hirq]
        exact h
    | clear =>
        simp only [enetIRQHandler, hirq]
        show s.fresh &&& pendingMask = s.intStatus &&& ~~~ints &&& ~~~0 &&& pendingMask
        rw [and_not_zero]
        exact h

/-- Between two runs of the handler, `IntStatus` is what the handler has not
seen. -/
theorem WatchInv.fresh_eq {s : EnetSys} (h : WatchInv s) (hirq : s.irq = none) :
    s.fresh &&& pendingMask = s.intStatus &&& pendingMask := by
  rw [WatchInv, EnetSys.clearing, hirq] at h
  exact h.trans (by rw [Option.map_none, Option.getD_none, and_not_zero])

/-- A step of a task, which clears the same bits of both. -/
theorem WatchInv.task {s t : EnetSys} (h : WatchInv s) (hirq : s.irq = none) (ht : t.irq = none)
    (bits : BitVec 32) (hint : t.intStatus = s.intStatus &&& bits)
    (hfresh : t.fresh = s.fresh &&& bits) : WatchInv t := by
  show t.fresh &&& pendingMask = _
  rw [EnetSys.clearing, ht, hint, hfresh, Option.map_none, Option.getD_none, and_not_zero,
    BitVec.and_assoc, BitVec.and_comm bits, ← BitVec.and_assoc, h.fresh_eq hirq,
    BitVec.and_assoc, BitVec.and_comm pendingMask, ← BitVec.and_assoc]

theorem WatchInv.step {s t : EnetSys} {a : EnetAct} (h : WatchInv s)
    (hstep : enetStep s a = some t) : WatchInv t := by
  obtain ⟨f, rfl, -, rfl⟩ | ⟨tx, rfl, -, rfl⟩ | ⟨bits, rfl, rfl⟩ | ⟨rfl, rfl⟩ |
    ⟨heap, restart, rfl, hirq, htask⟩ | ⟨rfl, hirq, htask⟩ | ⟨o, rfl, -, hout⟩ :=
    enetStep_cases hstep
  · exact h.raise _
  · exact h.raise _
  · exact h.raise _
  · exact h.handler
  · obtain ⟨-, ⟨ht, -⟩, ⟨hint, hfresh⟩ | ⟨hint, hfresh⟩⟩ := vPacketReceiveTask_spec htask
    · refine h.task hirq (ht.trans hirq) (~~~0) ?_ ?_
      · rw [hint, and_not_zero]
      · rw [hfresh, and_not_zero]
    · exact h.task hirq (ht.trans hirq) _ hint hfresh
  · obtain ⟨-, -, ⟨ht, -⟩, ⟨hint, hfresh⟩, -⟩ := vTransmitCleanupTask_spec htask
    refine h.task hirq (ht.trans hirq) (~~~0) ?_ ?_
    · rw [hint, and_not_zero]
    · rw [hfresh, and_not_zero]
  · obtain ⟨tx, rfl, -⟩ := lpcLowLevelOutput_spec hout
    exact h

/-! ### One look for an error -/

/-- `lpc_low_level_input` takes its reset branch iff an error has been raised
since the handler read `IntStatus`. -/
theorem looksRx_clear_iff {s t : EnetSys} {a : EnetAct} (h : WatchInv s)
    (hstep : enetStep s a = some t) (hlook : s.looksRx a = true) :
    t.rxTask = .clear ↔ s.fresh &&& rxErrs ≠ 0 := by
  cases a with
  | rx heap restart =>
      have hpc : s.rxTask = .call := of_decide_eq_true hlook
      simp only [enetStep] at hstep
      split at hstep
      next hirq =>
        have herrs : s.fresh &&& rxErrs = s.intStatus &&& rxErrs :=
          and_of_and_eq (by decide) (h.fresh_eq hirq)
        simp only [vPacketReceiveTask, hpc] at hstep
        obtain rfl := Option.some.inj hstep
        rw [herrs]
        show (if rxOverrun s.intStatus then RxPc.clear else .input) = .clear ↔ _
        rw [← rxOverrun_iff, ite_eq_left_iff]
        simp
      next => cases hstep
  | _ => cases hlook

/-- `vTransmitCleanupTask` takes its reset branch iff an error has been raised
since the handler read `IntStatus`. -/
theorem looksTx_reset_iff {s t : EnetSys} {a : EnetAct} (h : WatchInv s)
    (hstep : enetStep s a = some t) (hlook : s.looksTx a = true) :
    t.txTask = .reset ↔ s.fresh &&& txErrs ≠ 0 := by
  cases a with
  | tx =>
      have hpc : s.txTask = .status := of_decide_eq_true hlook
      simp only [enetStep] at hstep
      split at hstep
      next hirq =>
        have herrs : s.fresh &&& txErrs = s.intStatus &&& txErrs :=
          and_of_and_eq (by decide) (h.fresh_eq hirq)
        simp only [vTransmitCleanupTask, hpc] at hstep
        obtain rfl := Option.some.inj hstep
        rw [herrs]
        show (if txUnderrun s.intStatus then TxPc.reset else .reclaim) = .reset ↔ _
        rw [← txUnderrun_iff, ite_eq_left_iff]
        simp
      next => cases hstep
  | _ => cases hlook

/-! ### Runs -/

/-- **Every error that is serviced is recovered from iff, whenever a task looks
for one that was, the hardware has raised an error of the group again.** -/
theorem recovers_iff (s : EnetSys) (acts : List EnetAct) :
    Along enetStep Recovers s.watch acts ↔ Along enetStep RaisedAgain s.watch acts := by
  refine along_iff ?_ (fun s a t h hstep _ => h.step hstep) (watchInv_watch s)
  intro s a t h hstep
  apply and_congr
  · apply forall_congr'
    intro hlook
    rw [looksRx_clear_iff h hstep hlook]
  · apply forall_congr'
    intro hlook
    rw [looksTx_reset_iff h hstep hlook]

/-- A frame is received and another is lost by an overrun. -/
def overrunServiced : List EnetAct :=
  [.receive rxFrame64, .raise emacIntRxOverrun, .irq, .irq, .irq, .irq,
    .rx none rxHeap, .rx none rxHeap, .rx none rxHeap]

/-- The receive task finds `IntStatus` clear and takes the frame as if nothing
had happened. -/
theorem overrun_not_recovered :
    ¬ Along enetStep Recovers (.start (RxSys.start rxDrvZero rxHeap).drv txDrvZero)
      overrunServiced := by
  decide +kernel

end Lpc1768
