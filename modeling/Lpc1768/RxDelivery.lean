/-
Lpc1768/RxDelivery.lean

Delivery of received frames.  The ring between `RxConsumeIndex` and
`RxProduceIndex` is a FIFO: the frames that arrived and were not processed
yet, oldest first, are stored in its slots (`RxInv.pending`).  Each call of
`lpc_low_level_input` takes the oldest one, whichever of its two branches it
goes through, and returns a copy of it without the FCS if it is good.

`rx_delivers` is the conclusion for runs in which the hardware behaves and
`pbuf_alloc` succeeds (`RxAssumed`): the packets returned so far are those of
the good frames processed so far, in order, and the next call returns, too.
-/
import Lpc1768.RxRing

namespace Lpc1768

/-! ### The property and the assumptions -/

/-- No error flag that the driver looks at is set. -/
def RxFrame.good (f : RxFrame) : Bool := !rxError f.info

/-- The frame without its FCS. -/
def RxFrame.packet (f : RxFrame) : RxPacket where
  len := f.bytes.length - 4
  totLen := f.bytes.length - 4
  bytes := f.bytes.take (f.bytes.length - 4)

/-- Two ranges of bytes do not overlap. -/
def Apart (a n b m : ℕ) : Prop := a + n ≤ b ∨ b + m ≤ a

instance (a n b m : ℕ) : Decidable (Apart a n b m) := by
  unfold Apart; infer_instance

/-- Frames have a legal length.  When the driver is called, `IntStatus` shows
no overrun or error, and for a frame to be returned the heap yields memory
that is not part of a buffer of the ring. -/
def RxAssumed (s : RxSys) : RxAct → RxSys → Prop
  | .arrive f, _ => 64 ≤ f.bytes.length ∧ f.bytes.length ≤ emacEthMaxFlen
  | .input intStatus heap _, _ =>
      rxOverrun intStatus = false ∧ heap.isSome ∧
        (isRxEmpty s.drv = false → ∀ a ∈ heap, ∀ k < emacNumRxFrag,
          Apart a.2 (rxLength (s.drv.prxs s.drv.rxConsumeIndex).info)
            (s.drv.prxd k).packet emacEthMaxFlen)

instance (s : RxSys) (a : RxAct) (t : RxSys) : Decidable (RxAssumed s a t) := by
  cases a <;> unfold RxAssumed <;> infer_instance

/-- The packets returned are those of the good frames among the processed
ones, which are all that arrived exactly if the ring is empty; and the driver
can be called again. -/
structure RxDelivers (s : RxSys) : Prop where
  count : s.processed ≤ s.arrived.length
  empty_iff : isRxEmpty s.drv = true ↔ s.processed = s.arrived.length
  delivered : s.delivered =
    ((s.arrived.take s.processed).filter RxFrame.good).map RxFrame.packet
  returns : ∀ intStatus heap restart, heap.isSome →
    (rxStep s (.input intStatus heap restart)).isSome

/-! ### The invariant -/

/-- Slot `k` holds the frame `f`. -/
structure Stored (d : RxDrv) (k : ℕ) (f : RxFrame) : Prop where
  slot : k < emacNumRxFrag
  min : 64 ≤ f.bytes.length
  max : f.bytes.length ≤ emacEthMaxFlen
  info : (d.prxs k).info = f.info
  bytes : d.mem.load (d.prxd k).packet f.bytes.length = f.bytes

/-- The frames that arrived and were not processed yet. -/
def RxSys.pending (s : RxSys) : List RxFrame := s.arrived.drop s.processed

structure RxInv (s : RxSys) : Prop where
  ready : RxReady s.drv
  packet : ∀ k < emacNumRxFrag, ∀ b ∈ s.drv.rxb k, (s.drv.prxd k).packet = b.payload
  apart : ∀ j < emacNumRxFrag, ∀ k < emacNumRxFrag, j ≠ k →
    Apart (s.drv.prxd j).packet emacEthMaxFlen (s.drv.prxd k).packet emacEthMaxFlen
  count : s.processed ≤ s.arrived.length
  room : s.pending.length < emacNumRxFrag
  produce : s.drv.rxProduceIndex = (s.drv.rxConsumeIndex + s.pending.length) % emacNumRxFrag
  pending : Holds emacNumRxFrag (Stored s.drv) s.drv.rxConsumeIndex s.pending
  delivered : s.delivered =
    ((s.arrived.take s.processed).filter RxFrame.good).map RxFrame.packet

/-- The ring is empty iff no frame is pending. -/
theorem RxInv.empty_iff {s : RxSys} (h : RxInv s) :
    isRxEmpty s.drv = true ↔ s.pending = [] := by
  have hr := h.room
  have hc := h.ready.consume
  have hmod := Nat.mod_eq_of_lt hc
  simp only [isRxEmpty, decide_eq_true_eq, h.produce]
  constructor
  · intro he
    by_contra hne
    have hpos : 0 < s.pending.length := List.length_pos_iff.mpr hne
    have hne : s.drv.rxConsumeIndex % emacNumRxFrag ≠
        (s.drv.rxConsumeIndex + s.pending.length) % emacNumRxFrag :=
      slot_ne (by omega) (by omega)
    exact hne (hmod.trans he.symm)
  · intro he
    rw [he]
    exact hmod

/-- A successful `lpc_rx_setup` with buffers that do not overlap. -/
theorem rxInv_start (d : RxDrv) (heap : ℕ → Option (ℕ × ℕ))
    (hsetup : (lpcRxSetup { d with rxProduceIndex := 0 } heap).2 = .ok)
    (hheap : ∀ j < emacNumRxFrag, ∀ k < emacNumRxFrag, j ≠ k → ∀ a ∈ heap j, ∀ b ∈ heap k,
      Apart a.2 emacEthMaxFlen b.2 emacEthMaxFlen) : RxInv (.start d heap) := by
  obtain ⟨hdone, -, hprod⟩ := lpcRxSetup_spec { d with rxProduceIndex := 0 } heap
  have hq := hdone hsetup
  refine ⟨hq.ready, ?_, ?_, Nat.le_refl 0, Nat.zero_lt_succ 3, ?_, ?_, rfl⟩
  · intro k hk b hb
    obtain ⟨a, -, hb', hd⟩ := hq.slots k hk
    obtain rfl := Option.mem_unique hb' hb
    show ((lpcRxSetup _ heap).1.prxd k).packet = _
    rw [hd]
    rfl
  · intro j hj k hk hne
    obtain ⟨a, ha, -, hda⟩ := hq.slots j hj
    obtain ⟨b, hb, -, hdb⟩ := hq.slots k hk
    show Apart ((lpcRxSetup _ heap).1.prxd j).packet _ ((lpcRxSetup _ heap).1.prxd k).packet _
    rw [hda, hdb]
    exact hheap j hj k hk hne a ha b hb
  · show (lpcRxSetup _ heap).1.rxProduceIndex = ((lpcRxSetup _ heap).1.rxConsumeIndex + 0) % _
    rw [hprod, hq.consume (by decide)]
    rfl
  · intro i hi
    exact absurd hi (Nat.not_lt_zero i)

/-! ### One step -/

/-- A frame stays stored while another one is written to another slot. -/
theorem Stored.receive_of_ne {d : RxDrv} {k : ℕ} {x f : RxFrame} (h : Stored d k x)
    (hk : k ≠ d.rxProduceIndex)
    (hapart : Apart (d.prxd k).packet emacEthMaxFlen (d.prxd d.rxProduceIndex).packet
      emacEthMaxFlen) (hmax : f.bytes.length ≤ emacEthMaxFlen) : Stored (d.receive f) k x where
  slot := h.slot
  min := h.min
  max := h.max
  info := by
    simp only [RxDrv.receive, Function.update_of_ne hk]
    exact h.info
  bytes := by
    simp only [RxDrv.receive]
    have hx := h.max
    rw [Mem.load_store_disjoint, h.bytes]
    rcases hapart with hlo | hhi
    · left
      omega
    · right
      omega

theorem stored_receive {d : RxDrv} {f : RxFrame} (hslot : d.rxProduceIndex < emacNumRxFrag)
    (hmin : 64 ≤ f.bytes.length) (hmax : f.bytes.length ≤ emacEthMaxFlen) :
    Stored (d.receive f) d.rxProduceIndex f where
  slot := hslot
  min := hmin
  max := hmax
  info := by simp only [RxDrv.receive, Function.update_self]
  bytes := by
    simp only [RxDrv.receive]
    rw [Mem.load_store _ _ _ _ (Nat.le_refl _), List.take_length]

/-- An arriving frame fills the slot at `RxProduceIndex`. -/
theorem RxInv.arrive {s : RxSys} (h : RxInv s) {f : RxFrame} (hmin : 64 ≤ f.bytes.length)
    (hmax : f.bytes.length ≤ emacEthMaxFlen)
    (hfull : (s.drv.rxProduceIndex + 1) % emacNumRxFrag ≠ s.drv.rxConsumeIndex) :
    RxInv { s with drv := s.drv.receive f, arrived := s.arrived ++ [f] } := by
  have hpend : (s.arrived ++ [f]).drop s.processed = s.pending ++ [f] :=
    List.drop_append_of_le_length h.count
  have hslot : s.drv.rxProduceIndex < emacNumRxFrag := by
    rw [h.produce]
    exact Nat.mod_lt _ (by decide)
  have hroom : s.pending.length + 1 < emacNumRxFrag := by
    have hr := h.room
    rw [h.produce, Nat.mod_add_mod] at hfull
    by_contra hge
    refine hfull ?_
    rw [Nat.add_assoc, show s.pending.length + 1 = emacNumRxFrag by omega, Nat.add_mod_right]
    exact Nat.mod_eq_of_lt h.ready.consume
  refine ⟨⟨h.ready.number, h.ready.consume, h.ready.next, h.ready.slots⟩, h.packet, h.apart,
    ?_, ?_, ?_, ?_, ?_⟩
  · rw [List.length_append]
    exact Nat.le_trans h.count (Nat.le_add_right _ _)
  · show ((s.arrived ++ [f]).drop s.processed).length < _
    rw [hpend, List.length_append]
    exact hroom
  · show (s.drv.rxProduceIndex + 1) % _ =
      (s.drv.rxConsumeIndex + ((s.arrived ++ [f]).drop s.processed).length) % _
    rw [hpend, List.length_append, h.produce, Nat.mod_add_mod, Nat.add_assoc]
    rfl
  · show Holds _ _ _ ((s.arrived ++ [f]).drop s.processed)
    rw [hpend]
    refine h.pending.push (Nat.lt_of_succ_lt hroom) (fun k x hk hx => ?_) ?_
    · rw [← h.produce] at hk
      exact hx.receive_of_ne hk (h.apart k hx.slot _ hslot hk) hmax
    · rw [← h.produce]
      exact stored_receive hslot hmin hmax
  · show s.delivered = (((s.arrived ++ [f]).take s.processed).filter _).map _
    rw [List.take_append_of_le_length h.count]
    exact h.delivered

/-- What the two branches of `lpc_low_level_input` that take a frame have in
common: the indices advance, and every buffer stays in its slot and keeps its
bytes. -/
structure RxTook (d e : RxDrv) : Prop where
  number : e.rxDescriptorNumber = d.rxDescriptorNumber
  consume : e.rxConsumeIndex = (d.rxConsumeIndex + 1) % emacNumRxFrag
  next : e.rxdescnextindex = (d.rxConsumeIndex + 1) % emacNumRxFrag
  produce : e.rxProduceIndex = d.rxProduceIndex
  packet : ∀ k < emacNumRxFrag, (e.prxd k).packet = (d.prxd k).packet
  slots : ∀ k < emacNumRxFrag, ∃ b, e.rxb k = some b ∧ (d.prxd k).packet = b.payload
  info : ∀ k, k ≠ d.rxConsumeIndex → e.prxs k = d.prxs k
  mem : ∀ k < emacNumRxFrag, ∀ n ≤ emacEthMaxFlen,
    e.mem.load (d.prxd k).packet n = d.mem.load (d.prxd k).packet n

/-- **A call takes the oldest pending frame**, and returns its packet if it is
good. -/
theorem RxInv.take {s : RxSys} (h : RxInv s) {f : RxFrame} {rest : List RxFrame}
    (hpend : s.pending = f :: rest) {e : RxDrv} (he : RxTook s.drv e)
    {delivered : List RxPacket} (lastGood : ℕ → Option ℕ)
    (hdel : delivered = s.delivered ++ (if f.good then [f.packet] else [])) :
    RxInv ⟨e, s.arrived, s.processed + 1, delivered, lastGood⟩ := by
  have hrest : s.arrived.drop (s.processed + 1) = rest := by
    rw [← List.drop_drop, show s.arrived.drop s.processed = f :: rest from hpend]
    rfl
  have hlt : s.processed < s.arrived.length := by
    have hlen : s.pending.length = s.arrived.length - s.processed := List.length_drop
    rw [hpend, List.length_cons] at hlen
    omega
  have hf : s.arrived[s.processed]? = some f := by
    rw [← List.head?_drop, show s.arrived.drop s.processed = f :: rest from hpend]
    rfl
  have hroom := h.room
  have hprod := h.produce
  have hwindow := h.pending
  rw [hpend] at hroom hprod hwindow
  rw [List.length_cons] at hroom hprod
  refine ⟨?_, ?_, ?_, hlt, ?_, ?_, ?_, ?_⟩
  · refine ⟨he.number.trans h.ready.number, ?_, he.next.trans he.consume.symm, fun k hk => ?_⟩
    · rw [he.consume]
      exact Nat.mod_lt _ (by decide)
    · obtain ⟨b, hb, -⟩ := he.slots k hk
      exact ⟨b, hb⟩
  · intro k hk b hb
    obtain ⟨b', hb', hpack⟩ := he.slots k hk
    obtain rfl := Option.mem_unique hb' hb
    exact (he.packet k hk).trans hpack
  · intro j hj k hk hne
    show Apart (e.prxd j).packet _ (e.prxd k).packet _
    rw [he.packet j hj, he.packet k hk]
    exact h.apart j hj k hk hne
  · show (s.arrived.drop (s.processed + 1)).length < _
    rw [hrest]
    exact Nat.lt_of_succ_lt hroom
  · show e.rxProduceIndex = (e.rxConsumeIndex + (s.arrived.drop (s.processed + 1)).length) % _
    rw [hrest, he.produce, he.consume, hprod, Nat.mod_add_mod, Nat.add_assoc, Nat.add_comm 1]
  · show Holds _ (Stored e) e.rxConsumeIndex (s.arrived.drop (s.processed + 1))
    rw [hrest, he.consume]
    refine (hwindow.tail.imp fun i hi x hx => ?_).of_mod
    -- the slots of the rest are not the one just taken
    have hne : (s.drv.rxConsumeIndex + 1 + i) % emacNumRxFrag ≠ s.drv.rxConsumeIndex := by
      have hslot : s.drv.rxConsumeIndex % emacNumRxFrag ≠
          (s.drv.rxConsumeIndex + 1 + i) % emacNumRxFrag := slot_ne (by omega) (by omega)
      rw [Nat.mod_eq_of_lt h.ready.consume] at hslot
      exact hslot.symm
    refine ⟨hx.slot, hx.min, hx.max, ?_, ?_⟩
    · rw [he.info _ hne]
      exact hx.info
    · rw [he.packet _ hx.slot, he.mem _ hx.slot _ hx.max]
      exact hx.bytes
  · show delivered = ((s.arrived.take (s.processed + 1)).filter _).map _
    rw [hdel, h.delivered, List.take_add_one, hf, List.filter_append, List.map_append]
    congr 1
    cases hgood : f.good <;> simp [hgood]

/-- The error branch. -/
theorem RxInv.took_requeue {s : RxSys} (h : RxInv s) {b : Pbuf}
    (hb : s.drv.rxb s.drv.rxConsumeIndex = some b) (free : ℕ) :
    RxTook s.drv { s.drv.advance with
      prxd := Function.update s.drv.prxd s.drv.rxConsumeIndex (rxDesc b)
      rxdescfree := free } where
  number := rfl
  consume := rfl
  next := rfl
  produce := rfl
  packet := by
    intro k hk
    rcases eq_or_ne k s.drv.rxConsumeIndex with rfl | hne
    · simp only [Function.update_self]
      exact (h.packet _ hk b hb).symm
    · simp only [Function.update_of_ne hne]
  slots := by
    intro k hk
    obtain ⟨b, hb⟩ := h.ready.slots k hk
    exact ⟨b, hb, h.packet k hk b hb⟩
  info := by
    intro k hne
    simp only [RxDrv.advance, Function.update_of_ne hne]
  mem := fun _ _ _ _ => rfl

/-- The good branch, if the new pbuf is not part of the ring. -/
theorem RxInv.took_copy {s : RxSys} (h : RxInv s) {b : Pbuf}
    (hb : s.drv.rxb s.drv.rxConsumeIndex = some b) (a n : ℕ)
    (hapart : ∀ k < emacNumRxFrag, Apart a n (s.drv.prxd k).packet emacEthMaxFlen) :
    RxTook s.drv { s.drv.advance with
      rxb := Function.update s.drv.rxb s.drv.rxConsumeIndex
        (some { b with len := n, totLen := n })
      mem := s.drv.mem.memcpy a b.payload n } where
  number := rfl
  consume := rfl
  next := rfl
  produce := rfl
  packet := fun _ _ => rfl
  slots := by
    intro k hk
    rcases eq_or_ne k s.drv.rxConsumeIndex with rfl | hne
    · exact ⟨_, Function.update_self _ _ _, h.packet _ hk b hb⟩
    · obtain ⟨b, hb⟩ := h.ready.slots k hk
      exact ⟨b, (Function.update_of_ne hne _ _).trans hb, h.packet k hk b hb⟩
  info := by
    intro k hne
    simp only [RxDrv.advance, Function.update_of_ne hne]
  mem := by
    intro k hk m hm
    simp only [Mem.memcpy]
    rw [Mem.load_store_disjoint]
    rw [Mem.length_load]
    rcases hapart k hk with hlo | hhi
    · right
      exact hlo
    · left
      omega

/-- What is copied to the new pbuf is the frame without its FCS. -/
theorem Stored.packet_copy {d : RxDrv} {k : ℕ} {f : RxFrame} (h : Stored d k f) (a p n : ℕ)
    (hn : rxLength (d.prxs k).info = n) :
    rxPacket (d.mem.memcpy p (d.prxd k).packet n)
      { addr := a, payload := p, len := n, totLen := n } = f.packet := by
  have hmin := h.min
  have hmax := h.max
  have hlen : n = f.bytes.length - 4 := by
    have hsize := f.size_eq
    rw [← hn, h.info, rxLength]
    simp only [emacEthMaxFlen, u16] at hmax ⊢
    omega
  have hbytes : (d.mem.memcpy p (d.prxd k).packet n).load p n = f.bytes.take n := by
    rw [Mem.memcpy, Mem.load_store _ _ _ _ (Nat.le_of_eq (Mem.length_load _ _ _).symm),
      Mem.take_load _ _ (Nat.le_refl n), ← h.bytes, Mem.take_load _ _ (by omega)]
  rw [rxPacket, hbytes, hlen]
  rfl

/-- The oldest pending frame is the one at `RxConsumeIndex`. -/
theorem RxInv.head_of_not_empty {s : RxSys} (h : RxInv s) (he : isRxEmpty s.drv = false) :
    ∃ f rest, s.pending = f :: rest ∧ Stored s.drv s.drv.rxConsumeIndex f := by
  have hwindow := h.pending
  rcases hpend : s.pending with - | ⟨f, rest⟩
  · rw [h.empty_iff.mpr hpend] at he
    cases he
  · rw [hpend] at hwindow
    refine ⟨f, rest, rfl, ?_⟩
    have hf := hwindow.head
    rwa [Nat.mod_eq_of_lt h.ready.consume] at hf

theorem RxInv.step {s t : RxSys} {a : RxAct} (h : RxInv s) (hstep : rxStep s a = some t)
    (ha : RxAssumed s a t) : RxInv t := by
  cases a with
  | arrive f =>
      simp only [rxStep] at hstep
      split at hstep
      next => cases hstep
      next hfull =>
        obtain rfl := Option.some.inj hstep
        exact h.arrive ha.1 ha.2 hfull
  | input intStatus heap restart =>
      obtain ⟨hover, -, hapart⟩ := ha
      simp only [rxStep, RxDrv.takes, hover] at hstep
      rcases h.ready.input_cases intStatus heap restart with ⟨ho, -⟩ | ⟨-, he, hcall⟩ |
        ⟨-, he, hx, b, free, hb, hcall⟩ | ⟨-, -, -, -, hcall⟩ | ⟨-, he, hx, a, b, rfl, hb, hcall⟩
      · rw [hover] at ho
        cases ho
      · rw [hcall, he] at hstep
        obtain rfl := Option.some.inj hstep
        exact ⟨h.ready, h.packet, h.apart, h.count, h.room, h.produce, h.pending, by
          simpa using h.delivered⟩
      · obtain ⟨f, rest, hpend, hf⟩ := h.head_of_not_empty he
        have hgood : f.good = false := by rw [RxFrame.good, ← hf.info, hx]; rfl
        rw [hcall, he] at hstep
        obtain rfl := Option.some.inj hstep
        exact h.take hpend (h.took_requeue hb free) _ (by simp [hgood])
      · rw [hcall] at hstep
        cases hstep
      · obtain ⟨f, rest, hpend, hf⟩ := h.head_of_not_empty he
        have hgood : f.good = true := by rw [RxFrame.good, ← hf.info, hx]; rfl
        have hpacket := hf.packet_copy a.1 a.2 _ rfl
        rw [h.packet _ h.ready.consume b hb] at hpacket
        rw [hcall, he] at hstep
        obtain rfl := Option.some.inj hstep
        refine h.take hpend (h.took_copy hb a.2 _ (hapart he a rfl)) _ ?_
        rw [hgood, ← hpacket]
        rfl

theorem RxInv.delivers {s : RxSys} (h : RxInv s) : RxDelivers s where
  count := h.count
  empty_iff := by
    have hcount := h.count
    rw [h.empty_iff, RxSys.pending, List.drop_eq_nil_iff]
    omega
  delivered := h.delivered
  returns := by
    intro intStatus heap restart hheap
    simp only [rxStep, Option.isSome_map]
    rcases h.ready.input_cases intStatus heap restart with ⟨-, hcall⟩ | ⟨-, -, hcall⟩ |
      ⟨-, -, -, b, free, -, hcall⟩ | ⟨-, -, -, rfl, -⟩ | ⟨-, -, -, a, b, -, -, hcall⟩
    · rw [hcall]
      rfl
    · rw [hcall]
      rfl
    · rw [hcall]
      rfl
    · cases hheap
    · rw [hcall]
      rfl

/-! ### Runs -/

/-- **The packets returned are exactly those of the good frames processed**, in
the order of arrival, in every state that the hardware and the driver reach
together. -/
theorem rx_delivers (d : RxDrv) (heap : ℕ → Option (ℕ × ℕ)) (acts : List RxAct)
    (hsetup : (lpcRxSetup { d with rxProduceIndex := 0 } heap).2 = .ok)
    (hheap : ∀ j < emacNumRxFrag, ∀ k < emacNumRxFrag, j ≠ k → ∀ a ∈ heap j, ∀ b ∈ heap k,
      Apart a.2 emacEthMaxFlen b.2 emacEthMaxFlen)
    (hassumed : Along rxStep RxAssumed (.start d heap) acts) :
    RxDelivers (.start d heap) ∧
      Along rxStep (fun _ _ t => RxDelivers t) (.start d heap) acts := by
  have hstart := rxInv_start d heap hsetup hheap
  refine ⟨hstart.delivers, Along.of_invariant ?_ hstart hassumed⟩
  intro s a t h hstep ha
  have ht := h.step hstep ha
  exact ⟨ht.delivers, ht⟩

/-- A frame of 64 bytes without errors. -/
def rxFrame64 : RxFrame where
  bytes := List.replicate 64 7
  info := 63
  hashCRC := 0
  size_eq := by decide

/-- A frame of 64 bytes with a CRC error. -/
def rxFrame64Crc : RxFrame where
  bytes := List.replicate 64 7
  info := 63 ||| emacRinfoCrcErr
  hashCRC := 0
  size_eq := by decide

/-- All registers and fields 0. -/
def rxDrvZero : RxDrv where
  rxDescriptorNumber := 0
  rxProduceIndex := 0
  rxConsumeIndex := 0
  command := 0
  mac1 := 0
  prxd := fun _ => ⟨0, 0⟩
  prxs := fun _ => ⟨0, 0⟩
  rxb := fun _ => none
  rxdescfree := 0
  rxdescnextindex := 0
  mem := fun _ => 0
  freed := []

/-- Buffers of 2 KB each. -/
def rxHeap (k : ℕ) : Option (ℕ × ℕ) := some (k, 0x2007C000 + 2048 * k)

/-- A good, a bad and a good frame, the third arriving between the calls. -/
def rxThreeFrames : List RxAct :=
  [.arrive rxFrame64, .arrive rxFrame64Crc, .input 0 (rxHeap 4) rxHeap, .arrive rxFrame64,
    .input 0 (rxHeap 5) rxHeap, .input 0 (rxHeap 6) rxHeap]

theorem rx_delivers_three_frames :
    (List.foldlM rxStep (.start rxDrvZero rxHeap) rxThreeFrames).isSome ∧
      RxDelivers (.start rxDrvZero rxHeap) ∧
      Along rxStep (fun _ _ t => RxDelivers t) (.start rxDrvZero rxHeap) rxThreeFrames :=
  ⟨by decide +kernel,
    rx_delivers rxDrvZero rxHeap rxThreeFrames (by decide +kernel) (by decide +kernel)
      (by decide +kernel)⟩

end Lpc1768
