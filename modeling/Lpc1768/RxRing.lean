/-
Lpc1768/RxRing.lean

The receive side of the EMAC driver: `lpc_rxqueue_pbuf`, `lpc_rx_queue`,
`lpc_rx_setup` and `lpc_low_level_input`, with the receive registers they
share with the hardware.

Each pbuf of the ring is owned by one slot of `rxb`, so `rxb` holds the pbufs
themselves.  What `pbuf_alloc` gets from the heap is an argument, and so is
what `IntStatus` reads.  A `NULL` pbuf that is dereferenced makes the function
`none`.

In the system a frame arrives, as long as the ring is not full, or
`lpc_low_level_input` is called.  The ghosts are the frames that arrived, how
many of them a call has processed, the packets returned, and for each slot the
length of the good frame it received last.
-/
import Mathlib.Logic.Function.Basic
import Lpc1768.Pbuf
import Lpc1768.Ring
import Lpc1768.Transition

namespace Lpc1768

/-! ### Constants -/

def emacNumRxFrag : ℕ := 4
def emacEthMaxFlen : ℕ := 1536
def emacMac1RecEn : BitVec 32 := 0x00000001
def emacMac1ResRx : BitVec 32 := 0x00000400
def emacCrRxEn : BitVec 32 := 0x00000001
def emacIntRxOverrun : BitVec 32 := 0x00000001
def emacIntRxErr : BitVec 32 := 0x00000002
def emacRctrlInt : BitVec 32 := 0x80000000
def emacRctrlSize (n : BitVec 32) : BitVec 32 := n &&& 0x7FF
def emacRinfoSize : BitVec 32 := 0x000007FF
def emacRinfoCrcErr : BitVec 32 := 0x00800000
def emacRinfoSymErr : BitVec 32 := 0x01000000
def emacRinfoLenErr : BitVec 32 := 0x02000000
def emacRinfoAlignErr : BitVec 32 := 0x08000000

/-! ### The driver -/

/-- `RX_Desc`. -/
structure RxDesc where
  packet : ℕ
  ctrl : BitVec 32
  deriving DecidableEq, Repr

/-- `RX_Stat`. -/
structure RxStat where
  info : BitVec 32
  hashCRC : BitVec 32
  deriving DecidableEq, Repr

/-- The receive registers of `LPC_EMAC`, the receive fields of
`lpc_enetdata`, the memory, and the pbufs released, oldest first. -/
structure RxDrv where
  rxDescriptorNumber : ℕ
  rxProduceIndex : ℕ
  rxConsumeIndex : ℕ
  command : BitVec 32
  mac1 : BitVec 32
  prxd : ℕ → RxDesc
  prxs : ℕ → RxStat
  rxb : ℕ → Option Pbuf
  rxdescfree : ℕ
  rxdescnextindex : ℕ
  mem : Mem
  freed : List ℕ

/-- `lpc_rxqueue_pbuf`. -/
def lpcRxqueuePbuf (d : RxDrv) (p : Pbuf) : RxDrv :=
  let idx := d.rxdescnextindex
  let next := wrapInc (u8 d.rxDescriptorNumber) idx
  { d with
    rxb := Function.update d.rxb idx (some p)
    prxd := Function.update d.prxd idx
      { packet := p.payload
        ctrl := emacRctrlInt ||| emacRctrlSize (BitVec.ofInt 32 (p.len - 1)) }
    prxs := Function.update d.prxs idx { info := 0xffffffff, hashCRC := 0xffffffff }
    rxdescfree := u8 (d.rxdescfree - 1)
    rxdescnextindex := next
    rxConsumeIndex := next }

/-- The loop of `lpc_rx_queue`, at most `fuel` passes of it; `heap k` is what
the allocation number `k` gets. -/
def rxQueueLoop (heap : ℕ → Option (ℕ × ℕ)) : ℕ → RxDrv → ℕ → RxDrv × ℕ
  | fuel + 1, d, queued =>
      if d.rxdescfree > 0 then
        match pbufAlloc (heap queued) (u16 emacEthMaxFlen) with
        | none => (d, queued)
        | some p => rxQueueLoop heap fuel (lpcRxqueuePbuf d p) (u8 (queued + 1))
      else (d, queued)
  | 0, d, queued => (d, queued)

/-- `lpc_rx_queue`; each pass takes one of the free descriptors. -/
def lpcRxQueue (d : RxDrv) (heap : ℕ → Option (ℕ × ℕ)) : RxDrv × ℕ :=
  rxQueueLoop heap d.rxdescfree d 0

/-- `lpc_rx_setup`. -/
def lpcRxSetup (d : RxDrv) (heap : ℕ → Option (ℕ × ℕ)) : RxDrv × Err :=
  let r := lpcRxQueue
    { d with
      rxDescriptorNumber := emacNumRxFrag - 1
      rxdescfree := emacNumRxFrag
      rxdescnextindex := 0 } heap
  (r.1, if r.2 ≠ emacNumRxFrag then .buf else .ok)

/-- `IsRxEmpty`. -/
def isRxEmpty (d : RxDrv) : Bool := d.rxProduceIndex = d.rxConsumeIndex

/-- `IntStatus` shows a receive overrun or error. -/
def rxOverrun (intStatus : BitVec 32) : Bool :=
  intStatus &&& (emacIntRxOverrun ||| emacIntRxErr) ≠ 0

/-- The error flags that make `lpc_low_level_input` drop a frame. -/
def rxError (info : BitVec 32) : Bool :=
  info &&& (emacRinfoCrcErr ||| emacRinfoSymErr ||| emacRinfoAlignErr ||| emacRinfoLenErr) ≠ 0

/-- The received length without the FCS. -/
def rxLength (info : BitVec 32) : ℕ :=
  u16 ((info &&& emacRinfoSize).toNat + 1 - 4)

/-- The restart of the receive side after an overrun. -/
def rxRestart (d : RxDrv) (heap : ℕ → Option (ℕ × ℕ)) : RxDrv :=
  let d :=
    { d with
      command := d.command &&& ~~~emacCrRxEn
      mac1 := (d.mac1 &&& ~~~emacMac1RecEn) ||| emacMac1ResRx
      freed := d.freed ++ ((List.range emacNumRxFrag).filterMap d.rxb).map Pbuf.addr
      rxb := fun idx => if idx < emacNumRxFrag then none else d.rxb idx }
  let d := (lpcRxSetup d heap).1
  { d with
    command := d.command ||| emacCrRxEn
    mac1 := d.mac1 ||| emacMac1RecEn }

/-- The error branch of `lpc_low_level_input`: the pbuf is queued again. -/
def rxRequeue (d : RxDrv) (idx : ℕ) : Option (RxDrv × Option Pbuf) :=
  let d := { d with rxdescfree := u8 (d.rxdescfree + 1) }
  match d.rxb idx with
  | none => none
  -- `p->len` may still be the length that a good frame left in it
  | some p => some (lpcRxqueuePbuf { d with rxb := Function.update d.rxb idx none } p, none)

/-- The good branch of `lpc_low_level_input`: the frame is copied to a new
pbuf, which is returned. -/
def rxCopy (d : RxDrv) (idx : ℕ) (heap : Option (ℕ × ℕ)) : Option (RxDrv × Option Pbuf) :=
  let length := rxLength (d.prxs idx).info
  let p := pbufAlloc heap length
  match d.rxb idx with
  | none => none
  | some b =>
      let b := { b with len := length, totLen := length }
      -- a null `p` makes `pbuf_copy` fail
      let r := pbufCopy d.mem p.toList [b]
      let d := { d with rxb := Function.update d.rxb idx (some b), mem := r.1 }
      if r.2 = .ok then
        let next := wrapInc (u8 d.rxDescriptorNumber) idx
        some ({ d with
          prxs := Function.update d.prxs idx { info := 0xffffffff, hashCRC := 0xffffffff }
          rxdescnextindex := next
          rxConsumeIndex := next }, p)
      else p.map fun p => (lpcRxqueuePbuf d p, none)

/-- `lpc_low_level_input`; `heap` is for the packet returned, `restart` for
the restart of the ring. -/
def lpcLowLevelInput (d : RxDrv) (intStatus : BitVec 32) (heap : Option (ℕ × ℕ))
    (restart : ℕ → Option (ℕ × ℕ)) : Option (RxDrv × Option Pbuf) :=
  if rxOverrun intStatus then some (rxRestart d restart, none)
  else
    let idx := u8 d.rxConsumeIndex
    if isRxEmpty d then some (d, none)
    else if rxError (d.prxs idx).info then rxRequeue d idx
    else rxCopy d idx heap

/-! ### The system -/

/-- An incoming frame: its bytes, FCS included, and the status words that the
hardware writes for it. -/
structure RxFrame where
  bytes : List UInt8
  info : BitVec 32
  hashCRC : BitVec 32
  size_eq : (info &&& emacRinfoSize).toNat + 1 = bytes.length

/-- A packet handed to the network layer. -/
structure RxPacket where
  len : ℕ
  totLen : ℕ
  bytes : List UInt8
  deriving DecidableEq, Repr

structure RxSys where
  drv : RxDrv
  arrived : List RxFrame
  processed : ℕ
  delivered : List RxPacket
  lastGood : ℕ → Option ℕ

inductive RxAct
  /-- the hardware stores a frame -/
  | arrive (f : RxFrame)
  /-- `lpc_low_level_input` is called -/
  | input (intStatus : BitVec 32) (heap : Option (ℕ × ℕ)) (restart : ℕ → Option (ℕ × ℕ))

/-- The frame goes to the buffer of the descriptor at `RxProduceIndex`. -/
def RxDrv.receive (d : RxDrv) (f : RxFrame) : RxDrv :=
  { d with
    mem := d.mem.store (d.prxd d.rxProduceIndex).packet f.bytes
    prxs := Function.update d.prxs d.rxProduceIndex { info := f.info, hashCRC := f.hashCRC }
    rxProduceIndex := (d.rxProduceIndex + 1) % emacNumRxFrag }

/-- A call with this `IntStatus` takes a frame from the ring. -/
def RxDrv.takes (d : RxDrv) (intStatus : BitVec 32) : Bool :=
  !rxOverrun intStatus && !isRxEmpty d

/-- The packet in a pbuf that is returned. -/
def rxPacket (m : Mem) (p : Pbuf) : RxPacket where
  len := p.len
  totLen := p.totLen
  bytes := m.load p.payload p.len

def rxStep (s : RxSys) : RxAct → Option RxSys
  | .arrive f =>
      -- the hardware stops one descriptor before `RxConsumeIndex`
      if (s.drv.rxProduceIndex + 1) % emacNumRxFrag = s.drv.rxConsumeIndex then none
      else some { s with drv := s.drv.receive f, arrived := s.arrived ++ [f] }
  | .input intStatus heap restart =>
      let idx := s.drv.rxConsumeIndex
      (lpcLowLevelInput s.drv intStatus heap restart).map fun r =>
        { s with
          drv := r.1
          processed := if s.drv.takes intStatus then s.processed + 1 else s.processed
          delivered := s.delivered ++ (r.2.map (rxPacket r.1.mem)).toList
          lastGood :=
            if rxOverrun intStatus then fun _ => none
            else if s.drv.takes intStatus && !rxError (s.drv.prxs idx).info then
              Function.update s.lastGood idx
                (some ((s.drv.prxs idx).info &&& emacRinfoSize).toNat.succ)
            else s.lastGood }

/-- The ring as `lpc_rx_setup` leaves it, with `RxProduceIndex` 0. -/
def RxSys.start (d : RxDrv) (heap : ℕ → Option (ℕ × ℕ)) : RxSys where
  drv := (lpcRxSetup { d with rxProduceIndex := 0 } heap).1
  arrived := []
  processed := 0
  delivered := []
  lastGood := fun _ => none

/-! ### The ring between two calls -/

/-- The two software indices agree, and every slot has its pbuf. -/
structure RxReady (d : RxDrv) : Prop where
  number : d.rxDescriptorNumber = emacNumRxFrag - 1
  consume : d.rxConsumeIndex < emacNumRxFrag
  next : d.rxdescnextindex = d.rxConsumeIndex
  slots : ∀ k < emacNumRxFrag, ∃ b, d.rxb k = some b

/-- What `lpc_rxqueue_pbuf` writes to the descriptor. -/
def rxDesc (p : Pbuf) : RxDesc where
  packet := p.payload
  ctrl := emacRctrlInt ||| emacRctrlSize (BitVec.ofInt 32 (p.len - 1))

theorem RxReady.wrapInc_consume {d : RxDrv} (h : RxReady d) :
    wrapInc (u8 d.rxDescriptorNumber) d.rxConsumeIndex =
      (d.rxConsumeIndex + 1) % emacNumRxFrag := by
  have hu : u8 ((emacNumRxFrag - 1 : ℕ) : ℤ) = emacNumRxFrag - 1 := by decide
  have hmod := Nat.mod_eq_of_lt h.consume
  rw [h.number, hu]
  conv_lhs => rw [← hmod]
  exact wrapInc_mod (by decide) (by decide) _

/-- Both indices advance past slot `RxConsumeIndex`, whose status is cleared. -/
def RxDrv.advance (d : RxDrv) : RxDrv :=
  { d with
    prxs := Function.update d.prxs d.rxConsumeIndex
      { info := 0xffffffff, hashCRC := 0xffffffff }
    rxdescnextindex := (d.rxConsumeIndex + 1) % emacNumRxFrag
    rxConsumeIndex := (d.rxConsumeIndex + 1) % emacNumRxFrag }

/-- **The error branch** gives the slot its pbuf back and advances. -/
theorem RxReady.requeue {d : RxDrv} (h : RxReady d) {b : Pbuf}
    (hb : d.rxb d.rxConsumeIndex = some b) :
    ∃ free, rxRequeue d d.rxConsumeIndex = some ({ d.advance with
      prxd := Function.update d.prxd d.rxConsumeIndex (rxDesc b)
      rxdescfree := free }, none) := by
  refine ⟨u8 ((u8 (d.rxdescfree + 1) : ℕ) - 1), ?_⟩
  have hback : Function.update (Function.update d.rxb d.rxConsumeIndex none)
      d.rxConsumeIndex (some b) = d.rxb := by
    rw [Function.update_idem, ← hb, Function.update_eq_self]
  simp only [rxRequeue, hb, lpcRxqueuePbuf, h.next, h.wrapInc_consume, hback]
  rfl

/-- **The good branch** copies the frame to the new pbuf and advances; the slot
keeps its pbuf, with the received length. -/
theorem RxReady.copy {d : RxDrv} (h : RxReady d) {b : Pbuf} (a : ℕ × ℕ)
    (hb : d.rxb d.rxConsumeIndex = some b) {n : ℕ}
    (hn : rxLength (d.prxs d.rxConsumeIndex).info = n) :
    rxCopy d d.rxConsumeIndex (some a) = some ({ d.advance with
      rxb := Function.update d.rxb d.rxConsumeIndex
        (some { b with len := n, totLen := n })
      mem := d.mem.memcpy a.2 b.payload n },
      some { addr := a.1, payload := a.2, len := n, totLen := n }) := by
  have hlt : n < 65536 := by
    rw [← hn]
    exact u16_lt _
  have hcopy : pbufCopy d.mem [{ addr := a.1, payload := a.2, len := n, totLen := n }]
      [{ b with len := n, totLen := n }] = (d.mem.memcpy a.2 b.payload n, .ok) :=
    pbufCopy_single _ rfl rfl
  simp only [rxCopy, hn, hb, pbufAlloc, Option.map_some, u16_of_lt hlt, Option.toList_some,
    hcopy, if_true, h.wrapInc_consume]
  rfl

/-- Without a new pbuf the good branch dereferences `NULL`. -/
theorem rxCopy_none (d : RxDrv) (idx : ℕ) : rxCopy d idx none = none := by
  simp only [rxCopy, pbufAlloc, Option.map_none]
  split
  · rfl
  · simp [pbufCopy]

/-- **What one call does** to a ring that is ready: it restarts the ring, finds
it empty, queues the pbuf of a bad frame again, or copies a good frame. -/
theorem RxReady.input_cases {d : RxDrv} (h : RxReady d) (intStatus : BitVec 32)
    (heap : Option (ℕ × ℕ)) (restart : ℕ → Option (ℕ × ℕ)) :
    (rxOverrun intStatus = true ∧
      lpcLowLevelInput d intStatus heap restart = some (rxRestart d restart, none)) ∨
    (rxOverrun intStatus = false ∧ isRxEmpty d = true ∧
      lpcLowLevelInput d intStatus heap restart = some (d, none)) ∨
    (rxOverrun intStatus = false ∧ isRxEmpty d = false ∧
      rxError (d.prxs d.rxConsumeIndex).info = true ∧
      ∃ b free, d.rxb d.rxConsumeIndex = some b ∧
        lpcLowLevelInput d intStatus heap restart = some ({ d.advance with
          prxd := Function.update d.prxd d.rxConsumeIndex (rxDesc b)
          rxdescfree := free }, none)) ∨
    (rxOverrun intStatus = false ∧ isRxEmpty d = false ∧
      rxError (d.prxs d.rxConsumeIndex).info = false ∧ heap = none ∧
      lpcLowLevelInput d intStatus heap restart = none) ∨
    (rxOverrun intStatus = false ∧ isRxEmpty d = false ∧
      rxError (d.prxs d.rxConsumeIndex).info = false ∧
      ∃ a b, heap = some a ∧ d.rxb d.rxConsumeIndex = some b ∧
        lpcLowLevelInput d intStatus heap restart = some ({ d.advance with
          rxb := Function.update d.rxb d.rxConsumeIndex
            (some { b with
              len := rxLength (d.prxs d.rxConsumeIndex).info
              totLen := rxLength (d.prxs d.rxConsumeIndex).info })
          mem := d.mem.memcpy a.2 b.payload (rxLength (d.prxs d.rxConsumeIndex).info) },
          some { addr := a.1, payload := a.2,
                 len := rxLength (d.prxs d.rxConsumeIndex).info,
                 totLen := rxLength (d.prxs d.rxConsumeIndex).info })) := by
  have hidx : u8 d.rxConsumeIndex = d.rxConsumeIndex :=
    u8_of_lt (Nat.lt_trans h.consume (by decide))
  obtain ⟨b, hb⟩ := h.slots _ h.consume
  simp only [lpcLowLevelInput, hidx]
  rcases Bool.eq_false_or_eq_true (rxOverrun intStatus) with ho | ho
  · exact .inl ⟨ho, by rw [if_pos ho]⟩
  rcases Bool.eq_false_or_eq_true (isRxEmpty d) with he | he
  · exact .inr (.inl ⟨ho, he, by simp [ho, he]⟩)
  rcases Bool.eq_false_or_eq_true (rxError (d.prxs d.rxConsumeIndex).info) with hx | hx
  · obtain ⟨free, hq⟩ := h.requeue hb
    exact .inr (.inr (.inl ⟨ho, he, hx, b, free, hb, by simp [ho, he, hx, hq]⟩))
  cases heap with
  | none =>
      refine .inr (.inr (.inr (.inl ⟨ho, he, hx, rfl, ?_⟩)))
      simp [ho, he, hx, rxCopy_none]
  | some a =>
      refine .inr (.inr (.inr (.inr ⟨ho, he, hx, a, b, rfl, hb, ?_⟩)))
      simp [ho, he, hx, h.copy a hb rfl]

/-! ### Setting up the ring -/

/-- The first `q` slots are queued. -/
structure RxQueued (heap : ℕ → Option (ℕ × ℕ)) (d : RxDrv) (q : ℕ) : Prop where
  number : d.rxDescriptorNumber = emacNumRxFrag - 1
  free : d.rxdescfree = emacNumRxFrag - q
  next : d.rxdescnextindex = q % emacNumRxFrag
  consume : 0 < q → d.rxConsumeIndex = q % emacNumRxFrag
  slots : ∀ k < q, ∃ a, heap k = some a ∧
    d.rxb k = some { addr := a.1, payload := a.2, len := emacEthMaxFlen, totLen := emacEthMaxFlen } ∧
    d.prxd k =
      rxDesc { addr := a.1, payload := a.2, len := emacEthMaxFlen, totLen := emacEthMaxFlen }

theorem RxQueued.queue {heap : ℕ → Option (ℕ × ℕ)} {d : RxDrv} {q : ℕ} (h : RxQueued heap d q)
    (hq : q < emacNumRxFrag) {a : ℕ × ℕ} (ha : heap q = some a) :
    RxQueued heap (lpcRxqueuePbuf d
      { addr := a.1, payload := a.2, len := emacEthMaxFlen, totLen := emacEthMaxFlen }) (q + 1) := by
  have hu : u8 ((emacNumRxFrag - 1 : ℕ) : ℤ) = emacNumRxFrag - 1 := by decide
  have hwrap : wrapInc (u8 d.rxDescriptorNumber) d.rxdescnextindex = (q + 1) % emacNumRxFrag := by
    rw [h.number, hu, h.next]
    exact wrapInc_mod (by decide) (by decide) q
  have hnext : d.rxdescnextindex = q := h.next.trans (Nat.mod_eq_of_lt hq)
  refine ⟨h.number, ?_, hwrap, fun _ => hwrap, fun k hk => ?_⟩
  · show u8 ((d.rxdescfree : ℤ) - 1) = emacNumRxFrag - (q + 1)
    rw [h.free]
    simp only [u8, emacNumRxFrag] at hq ⊢
    omega
  · rcases Nat.lt_or_ge k q with hlt | hge
    · obtain ⟨a', ha', hb, hd⟩ := h.slots k hlt
      have hne : k ≠ d.rxdescnextindex := by omega
      refine ⟨a', ha', ?_, ?_⟩
      · simp only [lpcRxqueuePbuf, Function.update_of_ne hne, hb]
      · simp only [lpcRxqueuePbuf, Function.update_of_ne hne, hd]
    · obtain rfl : k = d.rxdescnextindex := by omega
      refine ⟨a, by rw [hnext]; exact ha, ?_, ?_⟩
      · simp only [lpcRxqueuePbuf, Function.update_self]
      · simp only [lpcRxqueuePbuf, Function.update_self, rxDesc]

/-- The loop ends with all slots queued, if no allocation fails, and otherwise
with fewer. -/
theorem rxQueueLoop_spec (heap : ℕ → Option (ℕ × ℕ)) {fuel q : ℕ} {d : RxDrv}
    (hfuel : q + fuel = emacNumRxFrag) (h : RxQueued heap d q) :
    ((rxQueueLoop heap fuel d q).2 = emacNumRxFrag →
      RxQueued heap (rxQueueLoop heap fuel d q).1 emacNumRxFrag) ∧
    ((∀ k < emacNumRxFrag, (heap k).isSome) → (rxQueueLoop heap fuel d q).2 = emacNumRxFrag) ∧
    (rxQueueLoop heap fuel d q).1.rxProduceIndex = d.rxProduceIndex := by
  induction fuel generalizing q d with
  | zero =>
      obtain rfl : q = emacNumRxFrag := by omega
      exact ⟨fun _ => h, fun _ => rfl, rfl⟩
  | succ fuel ih =>
      have hq : q < emacNumRxFrag := by omega
      have hfree : d.rxdescfree > 0 := by
        rw [h.free]
        omega
      have hu : u8 ((q : ℤ) + 1) = q + 1 :=
        u8_of_lt (n := q + 1) (by simp only [emacNumRxFrag] at hq; omega)
      rcases ha : heap q with - | a
      · simp only [rxQueueLoop, if_pos hfree, ha, pbufAlloc, Option.map_none]
        exact ⟨fun he => absurd he (by omega), fun hall => by simpa [ha] using hall q hq, trivial⟩
      · have hlen : u16 ((u16 (emacEthMaxFlen : ℕ) : ℕ) : ℤ) = emacEthMaxFlen := by decide
        simp only [rxQueueLoop, if_pos hfree, ha, pbufAlloc, Option.map_some, hlen, hu]
        exact ih (by omega) (h.queue hq ha)

/-- The loop touches the slots, their number and the indices. -/
theorem rxQueueLoop_frame (heap : ℕ → Option (ℕ × ℕ)) (fuel : ℕ) (d : RxDrv) (q : ℕ) :
    ∃ rxb prxd prxs free next consume, (rxQueueLoop heap fuel d q).1 =
      { d with
        rxb := rxb
        prxd := prxd
        prxs := prxs
        rxdescfree := free
        rxdescnextindex := next
        rxConsumeIndex := consume } := by
  induction fuel generalizing d q with
  | zero =>
      exact ⟨d.rxb, d.prxd, d.prxs, d.rxdescfree, d.rxdescnextindex, d.rxConsumeIndex, rfl⟩
  | succ fuel ih =>
      unfold rxQueueLoop
      split
      · split
        · exact ⟨d.rxb, d.prxd, d.prxs, d.rxdescfree, d.rxdescnextindex, d.rxConsumeIndex, rfl⟩
        · next p _ =>
          obtain ⟨rxb, prxd, prxs, free, next, consume, h⟩ :=
            ih (lpcRxqueuePbuf d p) (u8 (q + 1))
          exact ⟨rxb, prxd, prxs, free, next, consume, h⟩
      · exact ⟨d.rxb, d.prxd, d.prxs, d.rxdescfree, d.rxdescnextindex, d.rxConsumeIndex, rfl⟩

/-- `lpc_rx_setup` touches neither the control registers nor what was freed. -/
theorem lpcRxSetup_control (d : RxDrv) (heap : ℕ → Option (ℕ × ℕ)) :
    (lpcRxSetup d heap).1.mac1 = d.mac1 ∧ (lpcRxSetup d heap).1.command = d.command ∧
      (lpcRxSetup d heap).1.freed = d.freed := by
  obtain ⟨rxb, prxd, prxs, free, next, consume, h⟩ := rxQueueLoop_frame heap emacNumRxFrag
    { d with
      rxDescriptorNumber := emacNumRxFrag - 1
      rxdescfree := emacNumRxFrag
      rxdescnextindex := 0 } 0
  rw [lpcRxSetup, lpcRxQueue]
  dsimp only
  rw [h]
  exact ⟨rfl, rfl, rfl⟩

/-- The receive side as a restart hands it to `lpc_rx_setup`. -/
def rxCleared (d : RxDrv) : RxDrv :=
  { d with
    command := d.command &&& ~~~emacCrRxEn
    mac1 := (d.mac1 &&& ~~~emacMac1RecEn) ||| emacMac1ResRx
    freed := d.freed ++ ((List.range emacNumRxFrag).filterMap d.rxb).map Pbuf.addr
    rxb := fun idx => if idx < emacNumRxFrag then none else d.rxb idx }

/-- A restart is a set-up between two writes of the control registers. -/
theorem rxRestart_eq (d : RxDrv) (heap : ℕ → Option (ℕ × ℕ)) :
    rxRestart d heap =
      { (lpcRxSetup (rxCleared d) heap).1 with
        command := (lpcRxSetup (rxCleared d) heap).1.command ||| emacCrRxEn
        mac1 := (lpcRxSetup (rxCleared d) heap).1.mac1 ||| emacMac1RecEn } :=
  rfl

/-- What a restart leaves in the control registers, and what it frees. -/
theorem rxRestart_control (d : RxDrv) (heap : ℕ → Option (ℕ × ℕ)) :
    (rxRestart d heap).mac1 = d.mac1 &&& ~~~emacMac1RecEn ||| emacMac1ResRx ||| emacMac1RecEn ∧
      (rxRestart d heap).command = d.command &&& ~~~emacCrRxEn ||| emacCrRxEn ∧
      (rxRestart d heap).freed =
        d.freed ++ ((List.range emacNumRxFrag).filterMap d.rxb).map Pbuf.addr := by
  obtain ⟨hmac1, hcommand, hfreed⟩ := lpcRxSetup_control (rxCleared d) heap
  rw [rxRestart_eq, hmac1, hcommand]
  exact ⟨rfl, rfl, hfreed⟩

/-- A successful `lpc_rx_setup` leaves a ring that is ready, with a pbuf of the
full size in every slot. -/
theorem lpcRxSetup_spec (d : RxDrv) (heap : ℕ → Option (ℕ × ℕ)) :
    ((lpcRxSetup d heap).2 = .ok → RxQueued heap (lpcRxSetup d heap).1 emacNumRxFrag) ∧
    ((∀ k < emacNumRxFrag, (heap k).isSome) → (lpcRxSetup d heap).2 = .ok) ∧
    (lpcRxSetup d heap).1.rxProduceIndex = d.rxProduceIndex := by
  have hstart : RxQueued heap { d with
      rxDescriptorNumber := emacNumRxFrag - 1
      rxdescfree := emacNumRxFrag
      rxdescnextindex := 0 } 0 :=
    ⟨rfl, rfl, rfl, fun h => absurd h (by decide), fun k hk => absurd hk (Nat.not_lt_zero k)⟩
  obtain ⟨hdone, hall, hprod⟩ := rxQueueLoop_spec heap
    (show 0 + emacNumRxFrag = emacNumRxFrag from rfl) hstart
  refine ⟨fun h => hdone ?_, fun h => if_neg (not_not.mpr (hall h)), hprod⟩
  by_contra hne
  have hbuf : (lpcRxSetup d heap).2 = .buf := if_pos hne
  cases h.symm.trans hbuf

theorem RxQueued.ready {heap : ℕ → Option (ℕ × ℕ)} {d : RxDrv}
    (h : RxQueued heap d emacNumRxFrag) : RxReady d where
  number := h.number
  consume := by
    rw [h.consume (by decide)]
    decide
  next := h.next.trans (h.consume (by decide)).symm
  slots := fun k hk => by
    obtain ⟨a, -, hb, -⟩ := h.slots k hk
    exact ⟨_, hb⟩

end Lpc1768
