/-
Lpc1768/TxWire.lean

The frame on the wire.  For every descriptor the hardware sends the bytes from
`Packet` on, one more than the size field says, and the descriptor with the
LAST flag ends the frame.

`lpc_low_level_output` describes a frame in one of two ways: each fragment of
the chain by a descriptor of its own, or, if a fragment is out of reach of the
DMA, a copy of all of them by one descriptor.  The copy is always right.  The
fragments themselves are sent right iff the fragment count, which is kept in
a `u8_t`, covers all that have bytes and no counted fragment is empty: the
size field of an empty one is `-1` cut to 11 bits, which stands for 2048 bytes
(`output_on_wire_iff`).
-/
import Mathlib.Algebra.GroupWithZero.Nat
import Mathlib.Algebra.Order.BigOperators.Group.List
import Mathlib.Algebra.Order.Group.Nat
import Lpc1768.RxDelivery
import Lpc1768.TxLifetime

namespace Lpc1768

/-! ### What is sent -/

def TxDesc.size (c : TxDesc) : ℕ := (c.ctrl &&& emacTctrlSize).toNat

def TxDesc.isLast (c : TxDesc) : Bool := c.ctrl &&& emacTctrlLast ≠ 0

/-- The bytes that the hardware sends for queued descriptors, up to the end of
the first frame. -/
def wireBytes (m : Mem) : List TxDesc → List UInt8
  | [] => []
  | c :: cs => m.load c.packet (c.size + 1) ++ if c.isLast then [] else wireBytes m cs

/-- The bytes of a chain. -/
def chainBytes (m : Mem) (chain : List Pbuf) : List UInt8 :=
  chain.flatMap fun q => m.load q.payload q.len

/-- The descriptors `r.2` that were queued describe the chain, LAST is set on
the final one only, and one of them holds a pbuf, which is the one to be freed:
the one that the call took a reference on. -/
structure OnWire (d : TxDrv) (chain : List Pbuf) (r : TxDrv × List (ℕ × Option ℕ)) : Prop where
  bytes : wireBytes r.1.mem (r.2.map fun x => r.1.ptxd x.1) = chainBytes d.mem chain
  last : ∃ n, (r.2.map fun x => (r.1.ptxd x.1).isLast) = List.replicate n false ++ [true]
  saved : ∃ b, r.2.filterMap (fun x => r.1.txb x.1) = [b] ∧ r.1.taken = d.taken ++ [b]

/-! ### The calls -/

/-- A non-empty well-formed chain that fits into a frame; there are no more
pbufs than addresses. -/
structure FrameChain (p : Pbuf) (next : List Pbuf) : Prop where
  total : p.totLen = ((p :: next).map Pbuf.len).sum
  pos : 1 ≤ p.totLen
  max : p.totLen ≤ emacEthMaxFlen
  count : (p :: next).length < 4294967296

/-- While a call waits, the hardware and `lpc_tx_reclaim` go on. -/
def Waits (d e : TxDrv) : Prop :=
  ∃ consume sem txb last freed, e =
    { d with
      txConsumeIndex := consume
      xtxCountSem := sem
      txb := txb
      lasttxidx := last
      freed := freed }

/-- A call of `lpc_low_level_output` that returns `ERR_OK`: what it reaches its
wait loop with, and the state in which the loop is passed. -/
structure OutputCall (d : TxDrv) (p : Pbuf) (next : List Pbuf) (heap : Option (ℕ × ℕ)) where
  job : TxJob
  drv : TxDrv
  prepared : (outputPrepare d p next heap).2 = some job
  waited : Waits (outputPrepare d p next heap).1 drv
  ready : job.dn ≤ lpcTxReady drv

/-- The driver on return, and the descriptors queued. -/
def OutputCall.result {d : TxDrv} {p : Pbuf} {next : List Pbuf} {heap : Option (ℕ × ℕ)}
    (c : OutputCall d p next heap) : TxDrv × List (ℕ × Option ℕ) :=
  outputQueue c.drv c.job

/-- The ring has room: the descriptors needed are not queued. -/
def OutputCall.HasRoom {d : TxDrv} {p : Pbuf} {next : List Pbuf} {heap : Option (ℕ × ℕ)}
    (c : OutputCall d p next heap) : Prop :=
  (c.drv.txProduceIndex + emacNumTxFrag - c.drv.txConsumeIndex) % emacNumTxFrag + c.job.dn ≤
    emacNumTxFrag

/-- The chain is copied, or the fragments counted are those that have bytes. -/
def CountedRight (chain : List Pbuf) : Prop :=
  (∃ q ∈ chain, lpcPacketAddrNotsafe q.payload ≠ 0) ∨
    (0 < chain.length % 256 ∧ (∀ q ∈ chain.take (chain.length % 256), 0 < q.len) ∧
      ∀ q ∈ chain.drop (chain.length % 256), q.len = 0)

/-! ### The copy -/

theorem length_chainBytes (m : Mem) (chain : List Pbuf) :
    (chainBytes m chain).length = (chain.map Pbuf.len).sum := by
  simp [chainBytes, List.length_flatMap]

theorem chainBytes_cons (m : Mem) (q : Pbuf) (qs : List Pbuf) :
    chainBytes m (q :: qs) = m.load q.payload q.len ++ chainBytes m qs := rfl

/-- The copy loop writes the bytes of the chain. -/
theorem copyChain_eq_store (m : Mem) (dst : ℕ) (chain : List Pbuf)
    (h : ∀ q ∈ chain, Apart dst (chain.map Pbuf.len).sum q.payload q.len) :
    copyChain m dst chain = m.store dst (chainBytes m chain) := by
  induction chain generalizing m dst with
  | nil => exact (m.store_nil dst).symm
  | cons q qs ih =>
      simp only [List.map_cons, List.sum_cons, List.mem_cons, Apart] at h
      have hload : ∀ r ∈ qs, (m.memcpy dst q.payload q.len).load r.payload r.len =
          m.load r.payload r.len := fun r hr =>
        Mem.load_store_disjoint _ _ _ _ _ (by
          have := h r (.inr hr)
          rw [Mem.length_load]
          omega)
      have hbytes : chainBytes (m.memcpy dst q.payload q.len) qs = chainBytes m qs :=
        List.flatMap_congr hload
      rw [copyChain, ih _ _ fun r hr => by
        have := h r (.inr hr)
        unfold Apart
        omega]
      rw [hbytes, Mem.memcpy, chainBytes_cons, Mem.store_append, Mem.length_load]

/-! ### The descriptors of a frame -/

/-- The bytes sent for a fragment of the given length. -/
def sentLen (len : ℕ) : ℕ := (((len : ℤ) - 1) % 2048).toNat + 1

theorem sentLen_of_pos {len : ℕ} (hpos : 0 < len) (hmax : len ≤ 2048) : sentLen len = len := by
  unfold sentLen
  omega

theorem sentLen_zero : sentLen 0 = 2048 := rfl

/-- What is sent for the front of a chain is the bytes of the chain iff it is the
front that has them: an empty fragment is sent as more bytes than a frame has. -/
theorem sent_eq_chainBytes_iff (m : Mem) {front rest : List Pbuf}
    (hmax : ((front ++ rest).map Pbuf.len).sum < 2048) :
    front.flatMap (fun q => m.load q.payload (sentLen q.len)) = chainBytes m (front ++ rest) ↔
      (∀ q ∈ front, 0 < q.len) ∧ ∀ q ∈ rest, q.len = 0 := by
  rw [List.map_append, List.sum_append] at hmax
  have hlen : ∀ q ∈ front, q.len < 2048 := fun q hq =>
    Nat.lt_of_le_of_lt (List.le_sum_of_mem (List.mem_map_of_mem hq)) (by omega)
  have hrest : (rest.map Pbuf.len).sum = 0 ↔ ∀ q ∈ rest, q.len = 0 := by
    rw [List.sum_eq_zero_iff_forall_eq_nat, List.forall_mem_map]
  have hfront : (∀ q ∈ front, 0 < q.len) →
      front.flatMap (fun q => m.load q.payload (sentLen q.len)) = chainBytes m front :=
    fun hfull => List.flatMap_congr fun q hq => by
      rw [sentLen_of_pos (hfull q hq) (Nat.le_of_lt (hlen q hq))]
  have hall : chainBytes m (front ++ rest) = chainBytes m front ++ chainBytes m rest :=
    List.flatMap_append
  constructor
  · intro hframe
    have hsum := congrArg List.length hframe
    rw [length_chainBytes, List.map_append, List.sum_append, List.length_flatMap] at hsum
    simp only [Mem.length_load] at hsum
    have hfull : ∀ q ∈ front, 0 < q.len := by
      intro q hq
      by_contra hzero
      have hle := List.le_sum_of_mem (List.mem_map_of_mem (f := fun q => sentLen q.len) hq)
      rw [Nat.eq_zero_of_not_pos hzero, sentLen_zero] at hle
      omega
    rw [hfront hfull, hall, List.self_eq_append_right] at hframe
    refine ⟨hfull, hrest.mp ?_⟩
    rw [← length_chainBytes m, hframe, List.length_nil]
  · rintro ⟨hfull, hempty⟩
    have hnone : chainBytes m rest = [] := by
      apply List.eq_nil_of_length_eq_zero
      rw [length_chainBytes, hrest.mpr hempty]
    rw [hfront hfull, hall, hnone, List.append_nil]

/-- The descriptors of a frame with these fragments. -/
def txDescs : List Pbuf → List TxDesc
  | [] => []
  | q :: qs => { packet := q.payload, ctrl := txCtrl q.len qs.isEmpty } :: txDescs qs

theorem size_txCtrl (len : ℕ) (last : Bool) :
    (txCtrl len last &&& emacTctrlSize).toNat + 1 = sentLen len := by
  have hmask : txCtrl len last &&& emacTctrlSize =
      BitVec.ofInt 32 (len - 1) &&& emacTctrlSize := by
    rw [txCtrl, BitVec.and_or_distrib_right, BitVec.and_or_distrib_right, BitVec.and_assoc]
    cases last <;> simp [emacTctrlSize, emacTctrlInt, emacTctrlLast]
  have hones : emacTctrlSize.toNat = 2 ^ 11 - 1 := rfl
  rw [hmask, BitVec.toNat_and, hones, Nat.and_two_pow_sub_one_eq_mod, BitVec.toNat_ofInt, sentLen]
  omega

theorem isLast_txCtrl (len : ℕ) (last : Bool) :
    decide (txCtrl len last &&& emacTctrlLast ≠ 0) = last := by
  rw [txCtrl, BitVec.and_or_distrib_right, BitVec.and_or_distrib_right, BitVec.and_assoc]
  cases last <;> simp [emacTctrlSize, emacTctrlInt, emacTctrlLast]

/-- LAST is set on the final descriptor. -/
theorem isLast_txDescs {qs : List Pbuf} (h : qs ≠ []) :
    (txDescs qs).map TxDesc.isLast = List.replicate (qs.length - 1) false ++ [true] := by
  induction qs with
  | nil => exact absurd rfl h
  | cons q qs ih =>
      rw [txDescs, List.map_cons, TxDesc.isLast, isLast_txCtrl]
      cases qs with
      | nil => rfl
      | cons r qs =>
          rw [ih (List.cons_ne_nil _ _)]
          rfl

/-- So every descriptor of the frame is sent. -/
theorem wireBytes_txDescs (m : Mem) (qs : List Pbuf) :
    wireBytes m (txDescs qs) = qs.flatMap fun q => m.load q.payload (sentLen q.len) := by
  induction qs with
  | nil => rfl
  | cons q qs ih =>
      rw [txDescs, wireBytes, TxDesc.size, size_txCtrl, TxDesc.isLast, isLast_txCtrl, ih,
        List.flatMap_cons]
      cases qs <;> rfl

/-! ### One call -/

/-- The loop leaves the descriptors of the frame and the saved pbufs in the
slots that it lists, if these are different. -/
theorem queueLoop_written (p : ℕ) {dn : ℕ} {qs : List Pbuf} {idx : ℕ} {d : TxDrv}
    (hlen : dn ≤ qs.length) (hnodup : ((queueLoop p dn qs idx d).2.map Prod.fst).Nodup) :
    (queueLoop p dn qs idx d).2.map (fun x => (queueLoop p dn qs idx d).1.ptxd x.1) =
        txDescs (qs.take dn) ∧
      ∀ x ∈ (queueLoop p dn qs idx d).2, (queueLoop p dn qs idx d).1.txb x.1 = x.2 := by
  induction dn generalizing qs idx d with
  | zero => exact ⟨rfl, fun x hx => nomatch hx⟩
  | succ dn ih =>
      cases qs with
      | nil => simp at hlen
      | cons q qs =>
          have hlen : dn ≤ qs.length := by simpa using hlen
          rw [queueLoop, List.map_cons, List.nodup_cons] at hnodup
          obtain ⟨hfresh, hrest⟩ := hnodup
          obtain ⟨hdesc, hsaved⟩ := ih hlen hrest
          obtain ⟨hd, hb⟩ := queueLoop_untouched p dn qs _ _ hfresh
          have hlast : (dn == 0) = (qs.take dn).isEmpty := by
            cases dn with
            | zero => rfl
            | succ n =>
                cases qs with
                | nil => simp at hlen
                | cons r qs => rfl
          rw [queueLoop]
          refine ⟨?_, ?_⟩
          · rw [List.map_cons, hdesc, hd, List.take_succ_cons, txDescs, ← hlast]
            exact congrArg (· :: _) (Function.update_self _ _ _)
          · rintro x (- | ⟨-, hx⟩)
            · exact hb.trans (Function.update_self _ _ _)
            · exact hsaved x hx

/-- What is queued for a frame that fits into the ring. -/
theorem outputQueue_spec {d : TxDrv} {j : TxJob} (hnum : d.txDescriptorNumber = emacNumTxFrag - 1)
    (hprod : d.txProduceIndex < emacNumTxFrag) (hlen : j.dn ≤ j.q.length)
    (hroom : j.dn ≤ emacNumTxFrag) :
    (outputQueue d j).2.map (fun x => (outputQueue d j).1.ptxd x.1) = txDescs (j.q.take j.dn) ∧
      (outputQueue d j).2.filterMap (fun x => (outputQueue d j).1.txb x.1) =
        (if j.dn = 0 then [] else [j.p.addr]) ∧
      (outputQueue d j).1.mem = d.mem ∧ (outputQueue d j).1.taken = (d.ref j).taken := by
  have hidx : u8 d.txProduceIndex = d.txProduceIndex % emacNumTxFrag := by
    rw [u8_of_lt (by simp only [emacNumTxFrag] at hprod; omega), Nat.mod_eq_of_lt hprod]
  have hslots : ((outputQueue d j).2.map Prod.fst).Nodup := by
    rw [outputQueue, hidx, (queueLoop_slots j.p.addr (d := d.ref j) hnum hlen
      (Nat.mod_eq_of_lt hprod).symm).1]
    exact nodup_slotsFrom hroom
  obtain ⟨hdesc, hsaved⟩ := queueLoop_written j.p.addr hlen hslots
  rw [← outputQueue] at hdesc hsaved
  obtain ⟨ptxd, txb, prod, hframe⟩ :=
    queueLoop_frame j.p.addr j.dn j.q (u8 d.txProduceIndex) (d.ref j)
  refine ⟨hdesc, ?_, ?_, ?_⟩
  · rw [List.filterMap_congr hsaved]
    rcases Nat.eq_zero_or_pos j.dn with h0 | hpos
    · rw [if_pos h0, outputQueue, h0]
      rfl
    · obtain ⟨n, hn⟩ := Nat.exists_eq_succ_of_ne_zero (Nat.ne_of_gt hpos)
      rw [if_neg (Nat.ne_of_gt hpos), outputQueue, hn]
      exact queueLoop_saved j.p.addr n j.q _ _ (by omega)
  · rw [outputQueue, hframe]
    rfl
  · rw [outputQueue, hframe]

/-- `notdmasafe` is 0 iff no fragment is out of reach. -/
theorem notdmasafe_eq_zero_iff {chain : List Pbuf} (h : chain.length < 4294967296) :
    chain.foldl (fun n q => u32 (n + lpcPacketAddrNotsafe q.payload)) 0 = 0 ↔
      ∀ q ∈ chain, lpcPacketAddrNotsafe q.payload = 0 := by
  suffices hn : ∀ n : ℕ, n + chain.length < 4294967296 →
      chain.foldl (fun n q => u32 (n + lpcPacketAddrNotsafe q.payload)) n =
        n + (chain.map fun q => lpcPacketAddrNotsafe q.payload).sum by
    rw [hn 0 (by omega), Nat.zero_add, List.sum_eq_zero_iff_forall_eq_nat]
    exact List.forall_mem_map
  clear h
  induction chain with
  | nil => exact fun n _ => rfl
  | cons q qs ih =>
      intro n hn
      rw [List.length_cons] at hn
      have hle : lpcPacketAddrNotsafe q.payload ≤ 1 := by
        unfold lpcPacketAddrNotsafe
        split <;> decide
      have hu : u32 ((n : ℤ) + lpcPacketAddrNotsafe q.payload) =
          n + lpcPacketAddrNotsafe q.payload := by
        unfold u32
        omega
      rw [List.foldl_cons, hu, ih _ (by omega), List.map_cons, List.sum_cons, Nat.add_assoc]

/-- What a call reaches its wait loop with: a copy of the chain in one pbuf, or
the chain itself. -/
theorem FrameChain.prepare {d : TxDrv} {p : Pbuf} {next : List Pbuf} {heap : Option (ℕ × ℕ)}
    {j : TxJob} (h : FrameChain p next) (hj : (outputPrepare d p next heap).2 = some j) :
    ((∃ q ∈ p :: next, lpcPacketAddrNotsafe q.payload ≠ 0) ∧ j.notdmasafe ≠ 0 ∧ j.dn = 1 ∧
      ∃ a ∈ heap, j.p.addr = a.1 ∧ j.q = [j.p] ∧ j.p.payload = a.2 ∧ j.p.len = p.totLen ∧
        (outputPrepare d p next heap).1.mem = copyChain d.mem a.2 (p :: next)) ∨
    ((∀ q ∈ p :: next, lpcPacketAddrNotsafe q.payload = 0) ∧ j.notdmasafe = 0 ∧
      j.dn = (p :: next).length % 256 ∧ j.p = p ∧ j.q = p :: next ∧
        (outputPrepare d p next heap).1.mem = d.mem) := by
  have hsafe := notdmasafe_eq_zero_iff h.count
  simp only [outputPrepare] at hj ⊢
  split at hj
  next hne =>
    obtain ⟨q, hq, hne'⟩ := not_forall₂.mp (mt hsafe.mpr hne)
    refine .inl ⟨⟨q, hq, hne'⟩, ?_⟩
    cases heap with
    | none => cases hj
    | some a =>
        obtain rfl := Option.some.inj hj
        rw [if_pos hne]
        exact ⟨hne, rfl, a, rfl, rfl, rfl, rfl, rfl, rfl⟩
  next he =>
    have hzero := not_not.mp he
    obtain rfl := Option.some.inj hj
    refine .inr ⟨hsafe.mp hzero, hzero, ?_, rfl, rfl, ?_⟩
    · show u8 (pbufClen (p :: next)) = _
      rw [pbufClen_eq, u8]
      omega
    · rw [if_neg he]

/-- The call has a ring set up by `lpc_tx_setup`. -/
structure TxRing (d : TxDrv) : Prop where
  number : d.txDescriptorNumber = emacNumTxFrag - 1
  produce : d.txProduceIndex < emacNumTxFrag

section Call

variable {d : TxDrv} {p : Pbuf} {next : List Pbuf} {heap : Option (ℕ × ℕ)}

theorem OutputCall.drv_eq (c : OutputCall d p next heap) :
    c.drv.txDescriptorNumber = d.txDescriptorNumber ∧ c.drv.txProduceIndex = d.txProduceIndex ∧
      c.drv.mem = (outputPrepare d p next heap).1.mem ∧
      c.drv.taken = d.taken ++ heldBy (some c.job) := by
  obtain ⟨consume, sem, txb, last, freed, hd⟩ := c.waited
  obtain ⟨mem, hframe⟩ := outputPrepare_frame d p next heap
  rw [c.prepared] at hframe
  rw [hd, hframe]
  exact ⟨rfl, rfl, rfl, rfl⟩

/-- The reference is taken when the copy is allocated or by `pbuf_ref`. -/
theorem OutputCall.taken (c : OutputCall d p next heap) :
    (c.drv.ref c.job).taken = d.taken ++ [c.job.p.addr] := by
  rw [TxDrv.ref]
  show (if c.job.notdmasafe = 0 then c.drv.taken ++ [c.job.p.addr] else c.drv.taken) = _
  rw [c.drv_eq.2.2.2, heldBy]
  split
  · rw [List.append_nil]
  · rfl

theorem OutputCall.dn_le (c : OutputCall d p next heap) : c.job.dn ≤ c.job.q.length := by
  rw [(outputPrepare_job d p next heap c.job c.prepared).2]
  exact Nat.le_trans (u8_le _) (pbufClen_le _)

/-- **What a call sends**: the fragments counted, each with its length as the
size field gives it. -/
theorem OutputCall.onWire_iff (c : OutputCall d p next heap) (hring : TxRing d)
    (hroom : c.HasRoom) (chain : List Pbuf) :
    OnWire d chain c.result ↔ 0 < c.job.dn ∧
      (c.job.q.take c.job.dn).flatMap (fun q => c.drv.mem.load q.payload (sentLen q.len)) =
        chainBytes d.mem chain := by
  obtain ⟨hnum, hprod, -, -⟩ := c.drv_eq
  obtain ⟨hdesc, hsaved, hmem, htaken⟩ := outputQueue_spec (hnum.trans hring.number)
    (by rw [hprod]; exact hring.produce) c.dn_le (Nat.le_trans (Nat.le_add_left _ _) hroom)
  rw [c.taken] at htaken
  rw [← OutputCall.result] at hdesc hsaved hmem htaken
  have hbytes : wireBytes c.result.1.mem (c.result.2.map fun x => c.result.1.ptxd x.1) =
      (c.job.q.take c.job.dn).flatMap
        (fun q => c.drv.mem.load q.payload (sentLen q.len)) := by
    rw [hdesc, hmem, wireBytes_txDescs]
  constructor
  · intro h
    refine ⟨Nat.pos_of_ne_zero fun h0 => ?_, hbytes.symm.trans h.bytes⟩
    obtain ⟨b, hb, -⟩ := h.saved
    rw [hsaved, if_pos h0] at hb
    cases hb
  · rintro ⟨hpos, hframe⟩
    have hne : c.job.q.take c.job.dn ≠ [] := by
      have hle := c.dn_le
      rw [Ne, List.take_eq_nil_iff, ← List.length_eq_zero_iff]
      omega
    refine ⟨hbytes.trans hframe, ⟨(c.job.q.take c.job.dn).length - 1, ?_⟩, c.job.p.addr, ?_, htaken⟩
    · rw [← isLast_txDescs hne, ← hdesc, List.map_map]
      rfl
    · rw [hsaved, if_neg (Nat.ne_of_gt hpos)]

/-- **Both paths put the chain on the wire** exactly when the chain is copied or
the fragments counted are those that have bytes. -/
theorem output_on_wire_iff (c : OutputCall d p next heap) (hchain : FrameChain p next)
    (hring : TxRing d) (hroom : c.HasRoom)
    (hheap : ∀ a ∈ heap, ∀ q ∈ p :: next, Apart a.2 p.totLen q.payload q.len) :
    OnWire d (p :: next) c.result ↔ CountedRight (p :: next) := by
  have hpos := hchain.pos
  have hmax := hchain.max
  simp only [emacEthMaxFlen] at hmax
  rw [c.onWire_iff hring hroom]
  rcases hchain.prepare c.prepared with ⟨hfar, -, hdn, a, ha, -, hq, hpay, hlen, hmem⟩ |
    ⟨hsafe, -, hdn, -, hq, hmem⟩
  · -- the copy, which has all bytes
    refine iff_of_true ⟨by omega, ?_⟩ (.inl hfar)
    rw [hdn, hq, List.take_succ_cons, List.take_zero, List.flatMap_singleton, hpay, hlen,
      sentLen_of_pos hpos (by omega), c.drv_eq.2.2.1, hmem, copyChain_eq_store _ _ _ fun q hq => by
        rw [← hchain.total]
        exact hheap a ha q hq]
    rw [hchain.total, ← length_chainBytes d.mem, Mem.load_store_self]
  · have hnear : ¬ ∃ q ∈ p :: next, lpcPacketAddrNotsafe q.payload ≠ 0 := by
      rintro ⟨q, hq, hne⟩
      exact hne (hsafe q hq)
    rw [CountedRight, or_iff_right hnear, ← hdn, hq, c.drv_eq.2.2.1, hmem]
    refine and_congr_right fun _ => ?_
    have hsplit := List.take_append_drop c.job.dn (p :: next)
    have hsum : (((p :: next).take c.job.dn ++ (p :: next).drop c.job.dn).map Pbuf.len).sum <
        2048 := by
      rw [hsplit, ← hchain.total]
      omega
    rw [← sent_eq_chainBytes_iff d.mem hsum, hsplit]

end Call

/-! ### A chain with an empty fragment -/

/-- A chain of 60 bytes and none, at the given addresses. -/
def emptyTail (payload rest : ℕ) : Pbuf × List Pbuf :=
  ({ addr := 1, payload := payload, len := 60, totLen := 60 },
    [{ addr := 2, payload := rest, len := 0, totLen := 0 }])

/-- The chain in flash: it is copied. -/
def emptyTailCopied : OutputCall (TxSys.start txDrvZero).drv (emptyTail 0x8000 0x9000).1
    (emptyTail 0x8000 0x9000).2 (some (3, 0x10001000)) where
  job :=
    { p := { addr := 3, payload := 0x10001000, len := 60, totLen := 60 }
      q := [{ addr := 3, payload := 0x10001000, len := 60, totLen := 60 }]
      dn := 1
      notdmasafe := 2 }
  drv := (outputPrepare (TxSys.start txDrvZero).drv (emptyTail 0x8000 0x9000).1
    (emptyTail 0x8000 0x9000).2 (some (3, 0x10001000))).1
  prepared := rfl
  waited := ⟨_, _, _, _, _, rfl⟩
  ready := by decide

/-- The chain in RAM: its fragments are sent. -/
def emptyTailQueued : OutputCall (TxSys.start txDrvZero).drv (emptyTail 0x10000000 0x10000100).1
    (emptyTail 0x10000000 0x10000100).2 none where
  job :=
    { p := (emptyTail 0x10000000 0x10000100).1
      q := (emptyTail 0x10000000 0x10000100).1 :: (emptyTail 0x10000000 0x10000100).2
      dn := 2
      notdmasafe := 0 }
  drv := (TxSys.start txDrvZero).drv
  prepared := rfl
  waited := ⟨_, _, _, _, _, rfl⟩
  ready := by decide

theorem emptyTail_chain (payload rest : ℕ) :
    FrameChain (emptyTail payload rest).1 (emptyTail payload rest).2 :=
  ⟨rfl, show 1 ≤ 60 by decide, show 60 ≤ emacEthMaxFlen by decide,
    show 2 < 4294967296 by decide⟩

theorem output_on_wire_copied :
    OnWire (TxSys.start txDrvZero).drv
      ((emptyTail 0x8000 0x9000).1 :: (emptyTail 0x8000 0x9000).2) emptyTailCopied.result :=
  (output_on_wire_iff emptyTailCopied (emptyTail_chain _ _) ⟨rfl, by decide⟩
    (show _ ≤ _ by decide) (by decide)).mpr (.inl (by decide))

/-- The empty fragment is sent as 2048 bytes. -/
theorem output_off_wire_queued :
    FrameChain (emptyTail 0x10000000 0x10000100).1 (emptyTail 0x10000000 0x10000100).2 ∧
      TxRing (TxSys.start txDrvZero).drv ∧ emptyTailQueued.HasRoom ∧
      ¬ OnWire (TxSys.start txDrvZero).drv
        ((emptyTail 0x10000000 0x10000100).1 :: (emptyTail 0x10000000 0x10000100).2)
        emptyTailQueued.result := by
  refine ⟨emptyTail_chain _ _, ⟨rfl, by decide⟩, show _ ≤ _ by decide, fun h => ?_⟩
  have hlen := congrArg List.length h.bytes
  rw [length_chainBytes] at hlen
  exact absurd hlen (by decide +kernel)

end Lpc1768
