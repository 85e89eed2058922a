/-
Lpc1768/EnetSys.lean

`ENET_IRQHandler` with the two tasks it wakes, `vPacketReceiveTask` and
`vTransmitCleanupTask`, and the hardware that raises `IntStatus`.

Handler and tasks are split at every access to what they share: the handler
reads `IntStatus`, gives `rx_sem`, gives `tx_clean_sem`, writes `IntClear`; a
task takes its semaphore, tests its ring, reads `IntStatus`, and works.  The
hardware moves at any time, a task only while no handler is active.  Both
semaphores are binary: giving one twice is giving it once.

The ghost `fresh` holds the bits raised since the handler read `IntStatus`,
less those that it is about to clear; `owed` holds the bits that the handler
has cleared and the task of their group has not looked for yet.
-/
import Lpc1768.RxRing
import Lpc1768.TxSafety

namespace Lpc1768

/-! ### The bits of `IntStatus` -/

def emacIntRxDone : BitVec 32 := 0x00000008
def emacIntTxUnderrun : BitVec 32 := 0x00000010
def emacIntTxErr : BitVec 32 := 0x00000020
def emacIntTxDone : BitVec 32 := 0x00000080
def emacMac1ResTx : BitVec 32 := 0x00000100

/-- The bits that the handler looks at. -/
def pendingMask : BitVec 32 := 0x000030ff

def rxErrs : BitVec 32 := emacIntRxOverrun ||| emacIntRxErr
def txErrs : BitVec 32 := emacIntTxUnderrun ||| emacIntTxErr
def rxGroup : BitVec 32 := emacIntRxOverrun ||| emacIntRxErr ||| emacIntRxDone
def txGroup : BitVec 32 := emacIntTxUnderrun ||| emacIntTxErr ||| emacIntTxDone

/-- Masking with the larger of two masks first changes nothing. -/
theorem and_of_and_eq {n : ℕ} {x y m e : BitVec n} (hm : m &&& e = e) (h : x &&& m = y &&& m) :
    x &&& e = y &&& e := by
  rw [← hm, ← BitVec.and_assoc, ← BitVec.and_assoc, h]

/-! ### The state -/

/-- The next statement of an active `ENET_IRQHandler`. -/
inductive IrqPc
  | giveRx | giveTx | clear
  deriving DecidableEq, Repr

/-- The next statement of `vPacketReceiveTask`: the wait, the test of its inner
loop, and in `lpc_low_level_input` the read of `IntStatus`, the write of
`IntClear`, the rest of the reset, or the other branch. -/
inductive RxPc
  | wait | test | call | clear | restart | input
  deriving DecidableEq, Repr

/-- The next statement of `vTransmitCleanupTask`: the wait, the read of
`IntStatus`, the reset, or a pass of `lpc_tx_reclaim`. -/
inductive TxPc
  | wait | status | reset | reclaim
  deriving DecidableEq, Repr

/-- An active handler carries `ints`. -/
structure EnetSys where
  intStatus : BitVec 32
  irq : Option (IrqPc × BitVec 32)
  rxSem : Bool
  txCleanSem : Bool
  rx : RxDrv
  rxTask : RxPc
  tx : TxSys
  txTask : TxPc
  fresh : BitVec 32
  owed : BitVec 32

/-- `lpc_enetif_init` has returned on these drivers, with no interrupt so far. -/
def EnetSys.start (rx : RxDrv) (tx : TxDrv) : EnetSys where
  intStatus := 0
  irq := none
  rxSem := false
  txCleanSem := false
  rx := rx
  rxTask := .wait
  tx := .start tx
  txTask := .wait
  fresh := 0
  owed := 0

inductive EnetAct
  /-- the hardware stores a frame -/
  | receive (f : RxFrame)
  /-- the hardware consumes a transmit descriptor -/
  | complete
  /-- the hardware raises these bits of `IntStatus` -/
  | raise (bits : BitVec 32)
  /-- the handler is entered, or performs its next statement -/
  | irq
  /-- `vPacketReceiveTask` performs its next statement -/
  | rx (heap : Option (ℕ × ℕ)) (restart : ℕ → Option (ℕ × ℕ))
  /-- `vTransmitCleanupTask` performs its next statement -/
  | tx
  /-- the TCP/IP thread works in `lpc_low_level_output` -/
  | output (a : TxAct)

/-! ### The hardware and the handler -/

/-- The bits that an active handler is about to clear. -/
def EnetSys.clearing (s : EnetSys) : BitVec 32 := (s.irq.map Prod.snd).getD 0

def EnetSys.raise (s : EnetSys) (bits : BitVec 32) : EnetSys :=
  { s with
    intStatus := s.intStatus ||| bits
    fresh := s.fresh ||| (bits &&& ~~~s.clearing) }

/-- `ENET_IRQHandler`, one statement of it. -/
def enetIRQHandler (s : EnetSys) : EnetSys :=
  match s.irq with
  | none =>
      { s with
        irq := some (.giveRx, s.intStatus &&& pendingMask)
        fresh := 0 }
  | some (.giveRx, ints) =>
      { s with
        irq := some (.giveTx, ints)
        rxSem := s.rxSem || ints &&& rxGroup ≠ 0 }
  | some (.giveTx, ints) =>
      { s with
        irq := some (.clear, ints)
        txCleanSem := s.txCleanSem || ints &&& txGroup ≠ 0 }
  | some (.clear, ints) =>
      { s with
        irq := none
        intStatus := s.intStatus &&& ~~~ints
        owed := s.owed ||| ints }

/-! ### The tasks -/

/-- `lpc_low_level_input` when `IntStatus` shows no error. -/
def rxFrame (d : RxDrv) (heap : Option (ℕ × ℕ)) : Option (RxDrv × Option Pbuf) :=
  let idx := u8 d.rxConsumeIndex
  if isRxEmpty d then some (d, none)
  else if rxError (d.prxs idx).info then rxRequeue d idx
  else rxCopy d idx heap

theorem lpcLowLevelInput_eq (d : RxDrv) (intStatus : BitVec 32) (heap : Option (ℕ × ℕ))
    (restart : ℕ → Option (ℕ × ℕ)) :
    lpcLowLevelInput d intStatus heap restart =
      if rxOverrun intStatus then some (rxRestart d restart, none) else rxFrame d heap :=
  rfl

theorem rxOverrun_iff {intStatus : BitVec 32} :
    rxOverrun intStatus = true ↔ intStatus &&& rxErrs ≠ 0 :=
  decide_eq_true_iff

/-- `vPacketReceiveTask`, one statement of it. -/
def vPacketReceiveTask (s : EnetSys) (heap : Option (ℕ × ℕ)) (restart : ℕ → Option (ℕ × ℕ)) :
    Option EnetSys :=
  match s.rxTask with
  | .wait => if s.rxSem then some { s with rxSem := false, rxTask := .test } else none
  | .test => some { s with rxTask := if isRxEmpty s.rx then .wait else .call }
  | .call =>
      some { s with
        rxTask := if rxOverrun s.intStatus then .clear else .input
        owed := s.owed &&& ~~~rxErrs }
  | .clear =>
      some { s with
        rxTask := .restart
        intStatus := s.intStatus &&& ~~~rxErrs
        fresh := s.fresh &&& ~~~rxErrs }
  | .restart => some { s with rxTask := .test, rx := rxRestart s.rx restart }
  | .input => (rxFrame s.rx heap).map fun r => { s with rxTask := .test, rx := r.1 }

/-- `IntStatus` shows a transmit underrun or error. -/
def txUnderrun (intStatus : BitVec 32) : Bool := intStatus &&& txErrs ≠ 0

theorem txUnderrun_iff {intStatus : BitVec 32} :
    txUnderrun intStatus = true ↔ intStatus &&& txErrs ≠ 0 :=
  decide_eq_true_iff

/-- The reset of the transmit side, less `MAC1`. -/
def txReset (d : TxDrv) : TxDrv :=
  lpcTxSetup { d with
    freed := d.freed ++ (List.range emacNumTxFrag).filterMap d.txb
    txb := fun idx => if idx < emacNumTxFrag then none else d.txb idx }

/-- One pass of the loop of `lpc_tx_reclaim`; `none` leaves the loop. -/
def reclaimPass (d : TxDrv) : Option TxDrv :=
  if d.txConsumeIndex ≠ d.lasttxidx then
    some { d with
      freed := d.freed ++ (d.txb d.lasttxidx).toList
      txb := Function.update d.txb d.lasttxidx none
      xtxCountSem := semSignal d.xtxCountSem
      lasttxidx := wrapInc d.txDescriptorNumber d.lasttxidx }
  else none

theorem reclaimLoop_succ (fuel : ℕ) (d : TxDrv) :
    reclaimLoop (fuel + 1) d = ((reclaimPass d).map (reclaimLoop fuel)).getD d := by
  by_cases h : d.txConsumeIndex ≠ d.lasttxidx
  · simp only [reclaimLoop, reclaimPass, if_pos h, Option.map_some, Option.getD_some]
  · simp only [reclaimLoop, reclaimPass, if_neg h, Option.map_none, Option.getD_none]

/-- `vTransmitCleanupTask`, one statement of it. -/
def vTransmitCleanupTask (s : EnetSys) : Option EnetSys :=
  match s.txTask with
  | .wait => if s.txCleanSem then some { s with txCleanSem := false, txTask := .status } else none
  | .status =>
      some { s with
        txTask := if txUnderrun s.intStatus then .reset else .reclaim
        owed := s.owed &&& ~~~txErrs }
  | .reset =>
      some { s with
        txTask := .wait
        rx := { s.rx with mac1 := s.rx.mac1 ||| emacMac1ResTx }
        tx := { s.tx with drv := txReset s.tx.drv } }
  | .reclaim =>
      match reclaimPass s.tx.drv with
      | some d => some { s with tx := { s.tx with drv := d } }
      | none => some { s with txTask := .wait }

/-- The actions of the TCP/IP thread. -/
def TxAct.isOutput : TxAct → Bool
  | .call .. | .poll => true
  | .complete | .reclaim => false

/-- `lpc_low_level_output`, a step of it.  It queues its frame with
`tx_lock_mutex` taken, which the cleanup task holds in its loop. -/
def lpcLowLevelOutput (s : EnetSys) (a : TxAct) : Option EnetSys :=
  if a.isOutput && !(s.txTask = .reclaim && (s.tx.passes a).isSome) then
    (txStep s.tx a).map fun tx => { s with tx := tx }
  else none

/-! ### The system -/

def enetStep (s : EnetSys) : EnetAct → Option EnetSys
  | .receive f =>
      if (s.rx.rxProduceIndex + 1) % emacNumRxFrag = s.rx.rxConsumeIndex then none
      else some { s.raise emacIntRxDone with rx := s.rx.receive f }
  | .complete => (txStep s.tx .complete).map fun tx => { s.raise emacIntTxDone with tx := tx }
  | .raise bits => some (s.raise bits)
  -- the NVIC may have latched a request whose bit is gone by now
  | .irq => some (enetIRQHandler s)
  | .rx heap restart => if s.irq = none then vPacketReceiveTask s heap restart else none
  | .tx => if s.irq = none then vTransmitCleanupTask s else none
  | .output a => if s.irq = none then lpcLowLevelOutput s a else none

/-- What a step of the system is. -/
theorem enetStep_cases {s t : EnetSys} {a : EnetAct} (h : enetStep s a = some t) :
    (∃ f, a = .receive f ∧ (s.rx.rxProduceIndex + 1) % emacNumRxFrag ≠ s.rx.rxConsumeIndex ∧
      t = { s.raise emacIntRxDone with rx := s.rx.receive f }) ∨
    (∃ tx, a = .complete ∧ txStep s.tx .complete = some tx ∧
      t = { s.raise emacIntTxDone with tx := tx }) ∨
    (∃ bits, a = .raise bits ∧ t = s.raise bits) ∨
    (a = .irq ∧ t = enetIRQHandler s) ∨
    (∃ heap restart, a = .rx heap restart ∧ s.irq = none ∧
      vPacketReceiveTask s heap restart = some t) ∨
    (a = .tx ∧ s.irq = none ∧ vTransmitCleanupTask s = some t) ∨
    (∃ o, a = .output o ∧ s.irq = none ∧ lpcLowLevelOutput s o = some t) := by
  cases a with
  | receive f =>
      obtain ⟨hroom, ht⟩ := Option.ite_none_left_eq_some.mp h
      exact .inl ⟨f, rfl, hroom, (Option.some.inj ht).symm⟩
  | complete =>
      obtain ⟨tx, htx, ht⟩ := Option.map_eq_some_iff.mp h
      exact .inr (.inl ⟨tx, rfl, htx, ht.symm⟩)
  | raise bits => exact .inr (.inr (.inl ⟨bits, rfl, (Option.some.inj h).symm⟩))
  | irq => exact .inr (.inr (.inr (.inl ⟨rfl, (Option.some.inj h).symm⟩)))
  | rx heap restart =>
      obtain ⟨hirq, ht⟩ := Option.ite_none_right_eq_some.mp h
      exact .inr (.inr (.inr (.inr (.inl ⟨heap, restart, rfl, hirq, ht⟩))))
  | tx =>
      obtain ⟨hirq, ht⟩ := Option.ite_none_right_eq_some.mp h
      exact .inr (.inr (.inr (.inr (.inr (.inl ⟨rfl, hirq, ht⟩)))))
  | output o =>
      obtain ⟨hirq, ht⟩ := Option.ite_none_right_eq_some.mp h
      exact .inr (.inr (.inr (.inr (.inr (.inr ⟨o, rfl, hirq, ht⟩)))))

/-! ### What the tasks do -/

/-- `vPacketReceiveTask` waits although there is a frame. -/
def EnetSys.rxIdle (s : EnetSys) : Prop := s.rxTask = .wait ∧ isRxEmpty s.rx = false

/-- `vTransmitCleanupTask` waits although there is a descriptor to reclaim. -/
def EnetSys.txIdle (s : EnetSys) : Prop :=
  s.txTask = .wait ∧ s.tx.drv.lasttxidx ≠ s.tx.drv.txConsumeIndex

/-- **What a step of the receive task does**: after it the task does not wait
with frames in the ring; the transmit side is untouched. -/
theorem vPacketReceiveTask_spec {s t : EnetSys} {heap : Option (ℕ × ℕ)}
    {restart : ℕ → Option (ℕ × ℕ)} (h : vPacketReceiveTask s heap restart = some t) :
    ¬ t.rxIdle ∧
    (t.irq = s.irq ∧ t.txCleanSem = s.txCleanSem ∧ t.tx = s.tx ∧ t.txTask = s.txTask) ∧
    ((t.intStatus = s.intStatus ∧ t.fresh = s.fresh) ∨
      (t.intStatus = s.intStatus &&& ~~~rxErrs ∧ t.fresh = s.fresh &&& ~~~rxErrs)) := by
  simp only [vPacketReceiveTask] at h
  split at h
  next =>
    split at h
    · obtain rfl := Option.some.inj h
      exact ⟨by rintro ⟨⟨⟩, -⟩, ⟨rfl, rfl, rfl, rfl⟩, .inl ⟨rfl, rfl⟩⟩
    · cases h
  next =>
    obtain rfl := Option.some.inj h
    refine ⟨?_, ⟨rfl, rfl, rfl, rfl⟩, .inl ⟨rfl, rfl⟩⟩
    rintro ⟨hwait, hne⟩
    rw [show isRxEmpty s.rx = false from hne] at hwait
    cases hwait
  next =>
    obtain rfl := Option.some.inj h
    refine ⟨?_, ⟨rfl, rfl, rfl, rfl⟩, .inl ⟨rfl, rfl⟩⟩
    rintro ⟨hwait, -⟩
    cases ho : rxOverrun s.intStatus <;> rw [ho] at hwait <;> cases hwait
  next =>
    obtain rfl := Option.some.inj h
    exact ⟨by rintro ⟨⟨⟩, -⟩, ⟨rfl, rfl, rfl, rfl⟩, .inr ⟨rfl, rfl⟩⟩
  next =>
    obtain rfl := Option.some.inj h
    exact ⟨by rintro ⟨⟨⟩, -⟩, ⟨rfl, rfl, rfl, rfl⟩, .inl ⟨rfl, rfl⟩⟩
  next =>
    obtain ⟨r, -, rfl⟩ := Option.map_eq_some_iff.mp h
    exact ⟨by rintro ⟨⟨⟩, -⟩, ⟨rfl, rfl, rfl, rfl⟩, .inl ⟨rfl, rfl⟩⟩

/-- **What a step of the cleanup task does**: unless it was in its reset, it
does not wait after it with descriptors to reclaim; of the receive side it
touches `MAC1`. -/
theorem vTransmitCleanupTask_spec {s t : EnetSys} (h : vTransmitCleanupTask s = some t) :
    (s.txTask ≠ .reset → ¬ t.txIdle) ∧
    (t.txTask = .reset → txUnderrun s.intStatus = true) ∧
    (t.irq = s.irq ∧ t.rxSem = s.rxSem ∧ t.rxTask = s.rxTask) ∧
    (t.intStatus = s.intStatus ∧ t.fresh = s.fresh) ∧
    ∃ mac1, t.rx = { s.rx with mac1 := mac1 } := by
  simp only [vTransmitCleanupTask] at h
  split at h
  next =>
    split at h
    · obtain rfl := Option.some.inj h
      exact ⟨by rintro - ⟨⟨⟩, -⟩, by rintro ⟨⟩, ⟨rfl, rfl, rfl⟩, ⟨rfl, rfl⟩, s.rx.mac1, rfl⟩
    · cases h
  next =>
    obtain rfl := Option.some.inj h
    cases hu : txUnderrun s.intStatus with
    | true => exact ⟨by rintro - ⟨⟨⟩, -⟩, fun _ => rfl, ⟨rfl, rfl, rfl⟩, ⟨rfl, rfl⟩, s.rx.mac1, rfl⟩
    | false => exact ⟨by rintro - ⟨⟨⟩, -⟩, by rintro ⟨⟩, ⟨rfl, rfl, rfl⟩, ⟨rfl, rfl⟩, s.rx.mac1, rfl⟩
  next hpc =>
    obtain rfl := Option.some.inj h
    exact ⟨fun hne => absurd hpc hne, by rintro ⟨⟩, ⟨rfl, rfl, rfl⟩, ⟨rfl, rfl⟩, _, rfl⟩
  next hpc =>
    by_cases hne : s.tx.drv.txConsumeIndex ≠ s.tx.drv.lasttxidx
    · simp only [reclaimPass, if_pos hne] at h
      obtain rfl := Option.some.inj h
      refine ⟨?_, ?_, ⟨rfl, rfl, rfl⟩, ⟨rfl, rfl⟩, s.rx.mac1, rfl⟩
      · rintro - ⟨hwait, -⟩
        cases hpc.symm.trans hwait
      · intro hreset
        cases hpc.symm.trans hreset
    · simp only [reclaimPass, if_neg hne] at h
      obtain rfl := Option.some.inj h
      refine ⟨?_, by rintro ⟨⟩, ⟨rfl, rfl, rfl⟩, ⟨rfl, rfl⟩, s.rx.mac1, rfl⟩
      -- the loop is left with nothing more to reclaim
      rintro - ⟨-, hlast⟩
      exact hne hlast.symm

/-- Output moves neither of the two indices that reclaiming compares. -/
theorem lpcLowLevelOutput_spec {s t : EnetSys} {a : TxAct} (h : lpcLowLevelOutput s a = some t) :
    ∃ tx, t = { s with tx := tx } ∧ tx.drv.lasttxidx = s.tx.drv.lasttxidx ∧
      tx.drv.txConsumeIndex = s.tx.drv.txConsumeIndex := by
  simp only [lpcLowLevelOutput] at h
  split at h
  next hout =>
    obtain ⟨tx, htx, rfl⟩ := Option.map_eq_some_iff.mp h
    refine ⟨tx, rfl, ?_⟩
    obtain ⟨p, next, heap, rfl, -, rfl⟩ | ⟨rfl, -, rfl⟩ | ⟨j, rfl, -, -, rfl⟩ | ⟨rfl, -⟩ | ⟨rfl, -⟩ :=
      txStep_cases htx
    · obtain ⟨mem, hframe⟩ := outputPrepare_frame s.tx.drv p next heap
      rw [hframe]
      exact ⟨rfl, rfl⟩
    · exact ⟨rfl, rfl⟩
    · obtain ⟨ptxd, txb, prod, hframe⟩ :=
        queueLoop_frame j.p.addr j.dn j.q (u8 s.tx.drv.txProduceIndex) (s.tx.drv.ref j)
      show (outputQueue s.tx.drv j).1.lasttxidx = _ ∧ (outputQueue s.tx.drv j).1.txConsumeIndex = _
      rw [outputQueue, hframe]
      exact ⟨rfl, rfl⟩
    · cases hout
    · cases hout
  next => cases h

end Lpc1768
