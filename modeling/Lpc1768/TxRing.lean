/-
Lpc1768/TxRing.lean

The transmit side of the EMAC driver: `lpc_tx_setup`, `lpc_tx_ready`,
`lpc_low_level_output` and `lpc_tx_reclaim`, with the transmit registers they
share with the hardware.

`lpc_low_level_output` is split where it can wait: `outputPrepare` is the part
before the wait loop, `outputQueue` the part after it.  The system has one
call of it at a time (all output is done by the TCP/IP thread); its actions
are that call, one pass of the wait loop, one transmit completion of the
hardware, and `lpc_tx_reclaim`.

The ghost list `pending` holds the descriptors queued and not yet consumed,
oldest first, as (index, saved pbuf); `completed` holds the pbufs of the
frames whose last descriptor was consumed.
-/
import Mathlib.Logic.Function.Basic
import Lpc1768.Pbuf
import Lpc1768.Ring
import Lpc1768.Transition

namespace Lpc1768

/-! ### Constants -/

def emacNumTxFrag : ℕ := 3
def emacTctrlSize : BitVec 32 := 0x000007FF
def emacTctrlLast : BitVec 32 := 0x40000000
def emacTctrlInt : BitVec 32 := 0x80000000

/-! ### The driver -/

/-- `TX_Desc`. -/
structure TxDesc where
  packet : ℕ
  ctrl : BitVec 32
  deriving DecidableEq, Repr

/-- The transmit registers of `LPC_EMAC`, the transmit fields of
`lpc_enetdata`, the memory that frames are copied in, and the calls made to
the pbuf layer: the references taken (`pbuf_ref`, `pbuf_alloc`) and the calls
of `pbuf_free`, oldest first. -/
structure TxDrv where
  txDescriptorNumber : ℕ
  txProduceIndex : ℕ
  txConsumeIndex : ℕ
  ptxd : ℕ → TxDesc
  ptxs : ℕ → BitVec 32
  txb : ℕ → Option ℕ
  lasttxidx : ℕ
  xtxCountSem : ℕ
  mem : Mem
  taken : List ℕ
  freed : List ℕ

/-- `lpc_tx_setup`. -/
def lpcTxSetup (d : TxDrv) : TxDrv :=
  { d with
    txDescriptorNumber := emacNumTxFrag - 1
    ptxd := fun idx => if idx < emacNumTxFrag then { d.ptxd idx with ctrl := 0 } else d.ptxd idx
    ptxs := fun idx => if idx < emacNumTxFrag then 0xffffffff else d.ptxs idx
    lasttxidx := 0 }

/-- `lpc_tx_ready`. -/
def lpcTxReady (d : TxDrv) : ℕ :=
  let cidx : ℤ := u8 d.txConsumeIndex
  let pidx : ℤ := u8 d.txProduceIndex
  -- equal indices are taken for an empty ring with every descriptor free
  if pidx = cidx then
    u8 emacNumTxFrag
  else if cidx > pidx then
    u8 ((emacNumTxFrag - 1) - ((pidx + emacNumTxFrag) - cidx))
  else
    u8 ((emacNumTxFrag - 1) - (cidx - pidx))

/-- `lpc_packet_addr_notsafe`. -/
def lpcPacketAddrNotsafe (addr : ℕ) : ℕ :=
  if (addr ≥ 0x10000000 ∧ addr < 0x10008000) ∨ (addr ≥ 0x1FFF0000 ∧ addr < 0x1FFF2000) ∨
      (addr ≥ 0x2007C000 ∧ addr < 0x20084000) then 0 else 1

/-- The copy loop of the bounce buffer. -/
def copyChain (m : Mem) (dst : ℕ) : List Pbuf → Mem
  | [] => m
  | q :: qs => copyChain (m.memcpy dst q.payload q.len) (dst + q.len) qs

/-- The locals of a `lpc_low_level_output` that has reached its wait loop: the
pbuf to save, the chain to queue, the descriptors needed, and whether the
pbuf is a bounce buffer. -/
structure TxJob where
  p : Pbuf
  q : List Pbuf
  dn : ℕ
  notdmasafe : ℕ
  deriving DecidableEq, Repr

/-- `lpc_low_level_output` up to its wait loop, on the chain `p :: next`;
`heap` is what `pbuf_alloc` gets if it is called.  `none` is
`return ERR_MEM`. -/
def outputPrepare (d : TxDrv) (p : Pbuf) (next : List Pbuf) (heap : Option (ℕ × ℕ)) :
    TxDrv × Option TxJob :=
  let dn := u8 (pbufClen (p :: next))
  let notdmasafe :=
    (p :: next).foldl (fun n q => u32 (n + lpcPacketAddrNotsafe q.payload)) 0
  if notdmasafe ≠ 0 then
    match pbufAlloc heap p.totLen with
    | none => (d, none)
    | some np =>
        -- from here on the copy stands for the chain, in one descriptor
        let mem := copyChain d.mem np.payload (p :: next)
        let np := { np with len := p.totLen }
        ({ d with mem := mem, taken := d.taken ++ [np.addr] },
          some { p := np, q := [np], dn := 1, notdmasafe := notdmasafe })
  else (d, some { p := p, q := p :: next, dn := dn, notdmasafe := notdmasafe })

/-- The bounce buffer of a call that is still in its wait loop. -/
def heldBy : Option TxJob → List ℕ
  | some j => if j.notdmasafe = 0 then [] else [j.p.addr]
  | none => []

/-- `(q->len - 1) & EMAC_TCTRL_SIZE` with the control flags. -/
def txCtrl (len : ℕ) (last : Bool) : BitVec 32 :=
  (BitVec.ofInt 32 (len - 1) &&& emacTctrlSize) ||| emacTctrlInt |||
    (if last then emacTctrlLast else 0)

/-- The loop that fills the descriptors; the list is that of the descriptors
written, with what is saved in `txb`.  The chain has at least `dn` pbufs. -/
def queueLoop (p : ℕ) : ℕ → List Pbuf → ℕ → TxDrv → TxDrv × List (ℕ × Option ℕ)
  | dn + 1, q :: qs, idx, d =>
      -- the pbuf is saved with the last descriptor of the frame
      let b := if dn = 0 then some p else none
      let next := wrapInc d.txDescriptorNumber idx
      let r := queueLoop p dn qs next
        { d with
          ptxd := Function.update d.ptxd idx
            { packet := q.payload, ctrl := txCtrl q.len (dn == 0) }
          txb := Function.update d.txb idx b
          txProduceIndex := next }
      (r.1, (idx, b) :: r.2)
  | _, _, _, d => (d, [])

/-- `pbuf_ref`, unless the pbuf is a bounce buffer, which is the driver's
already. -/
def TxDrv.ref (d : TxDrv) (j : TxJob) : TxDrv :=
  { d with taken := if j.notdmasafe = 0 then d.taken ++ [j.p.addr] else d.taken }

/-- `lpc_low_level_output` after its wait loop. -/
def outputQueue (d : TxDrv) (j : TxJob) : TxDrv × List (ℕ × Option ℕ) :=
  let idx := u8 d.txProduceIndex
  queueLoop j.p.addr j.dn j.q idx (d.ref j)

/-- `sys_sem_signal` on the counting semaphore, which stays at its maximum. -/
def semSignal (count : ℕ) : ℕ := min (count + 1) emacNumTxFrag

/-- The loop of `lpc_tx_reclaim`, at most `fuel` passes of it. -/
def reclaimLoop : ℕ → TxDrv → TxDrv
  | 0, d => d
  | fuel + 1, d =>
      if d.txConsumeIndex ≠ d.lasttxidx then
        reclaimLoop fuel
          { d with
            -- a descriptor inside a frame has no pbuf to free
            freed := d.freed ++ (d.txb d.lasttxidx).toList
            txb := Function.update d.txb d.lasttxidx none
            xtxCountSem := semSignal d.xtxCountSem
            lasttxidx := wrapInc d.txDescriptorNumber d.lasttxidx }
      else d

/-- `lpc_tx_reclaim`: one lap of the ring reaches every index. -/
def lpcTxReclaim (d : TxDrv) : TxDrv :=
  reclaimLoop (d.txDescriptorNumber + 1) d

/-! ### The system -/

structure TxSys where
  drv : TxDrv
  /-- the call of `lpc_low_level_output` in its wait loop -/
  job : Option TxJob
  pending : List (ℕ × Option ℕ)
  completed : List ℕ

inductive TxAct
  /-- `lpc_low_level_output` is called -/
  | call (p : Pbuf) (next : List Pbuf) (heap : Option (ℕ × ℕ))
  /-- one pass of its wait loop -/
  | poll
  /-- the hardware consumes one descriptor -/
  | complete
  /-- `lpc_tx_reclaim` -/
  | reclaim
  deriving DecidableEq, Repr

/-- After `lpc_tx_setup`, with both indices 0 and nothing in `txb`. -/
def TxSys.start (d : TxDrv) : TxSys where
  drv := lpcTxSetup
    { d with
      txProduceIndex := 0
      txConsumeIndex := 0
      txb := fun _ => none
      taken := []
      freed := [] }
  job := none
  pending := []
  completed := []

/-- The wait loop is passed: the descriptors are filled and queued. -/
def TxSys.queue (s : TxSys) (j : TxJob) : TxSys :=
  let r := outputQueue s.drv j
  { s with drv := r.1, job := none, pending := s.pending ++ r.2 }

def txStep (s : TxSys) : TxAct → Option TxSys
  | .call p next heap =>
      -- the TCP/IP thread is in one call at a time
      if s.job = none then
        let r := outputPrepare s.drv p next heap
        some { s with drv := r.1, job := r.2 }
      else none
  | .poll =>
      match s.job with
      | none => none
      | some j =>
          if j.dn > lpcTxReady s.drv then
            -- blocked in `sys_arch_sem_wait` while the count is 0
            if s.drv.xtxCountSem = 0 then none
            else some { s with drv := { s.drv with xtxCountSem := s.drv.xtxCountSem - 1 } }
          else some (s.queue j)
  | .complete =>
      if s.drv.txConsumeIndex ≠ s.drv.txProduceIndex then
        some { s with
          drv := { s.drv with
            txConsumeIndex := (s.drv.txConsumeIndex + 1) % emacNumTxFrag }
          pending := s.pending.tail
          completed := s.completed ++ (s.pending.head?.bind Prod.snd).toList }
      else none
  | .reclaim => some { s with drv := lpcTxReclaim s.drv }

/-- The call whose wait loop is passed by this step. -/
def TxSys.passes (s : TxSys) : TxAct → Option TxJob
  | .poll => s.job.filter fun j => j.dn ≤ lpcTxReady s.drv
  | _ => none

theorem mem_passes {s : TxSys} {a : TxAct} {j : TxJob} :
    j ∈ s.passes a ↔ a = .poll ∧ s.job = some j ∧ j.dn ≤ lpcTxReady s.drv := by
  cases a with
  | poll => simp [TxSys.passes, Option.mem_def, Option.filter_eq_some_iff]
  | call p next heap => simp [TxSys.passes]
  | complete => simp [TxSys.passes]
  | reclaim => simp [TxSys.passes]

/-- **What one step does.**  A call takes at most a reference and memory; a
pass of the wait loop takes the semaphore or queues the frame; a completion
consumes one descriptor; `lpc_tx_reclaim` works on its own fields. -/
theorem txStep_cases {s t : TxSys} {a : TxAct} (h : txStep s a = some t) :
    (∃ p next heap, a = .call p next heap ∧ s.job = none ∧
      t = { s with
        drv := (outputPrepare s.drv p next heap).1
        job := (outputPrepare s.drv p next heap).2 }) ∨
    (a = .poll ∧ s.passes a = none ∧
      t = { s with drv := { s.drv with xtxCountSem := s.drv.xtxCountSem - 1 } }) ∨
    (∃ j, a = .poll ∧ s.job = some j ∧ s.passes a = some j ∧ t = s.queue j) ∨
    (a = .complete ∧ s.drv.txConsumeIndex ≠ s.drv.txProduceIndex ∧
      t = { s with
        drv := { s.drv with
          txConsumeIndex := (s.drv.txConsumeIndex + 1) % emacNumTxFrag }
        pending := s.pending.tail
        completed := s.completed ++ (s.pending.head?.bind Prod.snd).toList }) ∨
    (a = .reclaim ∧ t = { s with drv := lpcTxReclaim s.drv }) := by
  cases a with
  | call p next heap =>
      obtain ⟨hj, ht⟩ := of_guard h
      exact .inl ⟨p, next, heap, rfl, hj, ht⟩
  | poll =>
      simp only [txStep] at h
      rcases hj : s.job with - | j
      · rw [hj] at h
        cases h
      rw [hj] at h
      refine .inr ?_
      by_cases hdn : j.dn > lpcTxReady s.drv
      · refine .inl ⟨rfl, by simp [TxSys.passes, hj, hdn], ?_⟩
        simp only [if_pos hdn] at h
        split at h
        · cases h
        · exact (Option.some.inj h).symm
      · refine .inr (.inl ⟨j, rfl, rfl, ?_, ?_⟩)
        · exact mem_passes.mpr ⟨rfl, hj, by omega⟩
        · simp only [if_neg hdn] at h
          exact (Option.some.inj h).symm
  | complete =>
      obtain ⟨hne, ht⟩ := of_guard h
      exact .inr (.inr (.inr (.inl ⟨rfl, hne, ht⟩)))
  | reclaim => exact .inr (.inr (.inr (.inr ⟨rfl, (Option.some.inj h).symm⟩)))

end Lpc1768
