/-
Lpc1768/RxCapacity.lean

The capacity that receive descriptors advertise.  `lpc_rxqueue_pbuf` derives
the size field of a descriptor from `len` of the pbuf, and the good branch of
`lpc_low_level_input` leaves the received length there while the pbuf stays in
its slot.  An error frame that is processed in that slot later on queues the
pbuf again with the size of the good frame before it.

`rx_capacity_iff` says that this is the only way to lose capacity.  A good
frame of exactly 1540 bytes happens to leave the right length behind.
-/
import Lpc1768.RxDelivery

namespace Lpc1768

/-! ### The property and the condition -/

/-- The size field of a descriptor. -/
def RxDesc.size (r : RxDesc) : ℕ := (r.ctrl &&& 0x7FF).toNat

/-- Every descriptor advertises `EMAC_ETH_MAX_FLEN - 1`. -/
def FullCapacity (d : RxDrv) : Prop :=
  ∀ k < emacNumRxFrag, (d.prxd k).size = emacEthMaxFlen - 1

instance (d : RxDrv) : Decidable (FullCapacity d) := by
  unfold FullCapacity; infer_instance

/-- `pbuf_alloc` succeeds. -/
def AllocSucceeds (_ : RxSys) : RxAct → RxSys → Prop
  | .arrive _, _ => True
  | .input _ heap restart, _ => heap.isSome ∧ ∀ k < emacNumRxFrag, (restart k).isSome

instance (s : RxSys) : (a : RxAct) → (t : RxSys) → Decidable (AllocSucceeds s a t)
  | .arrive _, _ => inferInstanceAs (Decidable True)
  | .input _ heap restart, _ =>
      inferInstanceAs (Decidable (heap.isSome ∧ ∀ k < emacNumRxFrag, (restart k).isSome))

/-- No error frame is processed in a slot that received a good frame before,
other than one of 1540 bytes. -/
def NoShortRequeue (s : RxSys) : RxAct → RxSys → Prop
  | .arrive _, _ => True
  | .input intStatus _ _, _ =>
      s.drv.takes intStatus = true → rxError (s.drv.prxs s.drv.rxConsumeIndex).info = true →
        ∀ g ∈ s.lastGood s.drv.rxConsumeIndex, g = emacEthMaxFlen + 4

instance (s : RxSys) : (a : RxAct) → (t : RxSys) → Decidable (NoShortRequeue s a t)
  | .arrive _, _ => inferInstanceAs (Decidable True)
  | .input intStatus _ _, _ =>
      inferInstanceAs (Decidable (s.drv.takes intStatus = true →
        rxError (s.drv.prxs s.drv.rxConsumeIndex).info = true →
          ∀ g ∈ s.lastGood s.drv.rxConsumeIndex, g = emacEthMaxFlen + 4))

/-! ### The size field -/

theorem size_rxDesc (p : Pbuf) : (rxDesc p).size = (((p.len : ℤ) - 1) % 2048).toNat := by
  have hmask : (rxDesc p).ctrl &&& 0x7FF = BitVec.ofInt 32 (p.len - 1) &&& 0x7FF := by
    simp only [rxDesc, emacRctrlInt, emacRctrlSize]
    rw [BitVec.and_or_distrib_right, BitVec.and_assoc]
    simp
  have hones : (0x7FF : BitVec 32).toNat = 2 ^ 11 - 1 := rfl
  rw [RxDesc.size, hmask, BitVec.toNat_and, hones, Nat.and_two_pow_sub_one_eq_mod,
    BitVec.toNat_ofInt]
  omega

/-- A buffer that received a frame of `g` bytes is queued with the full size
iff `g` is 1540. -/
theorem size_rxDesc_iff {p : Pbuf} {g : ℕ} (hpos : 0 < g) (hmax : g ≤ 2048)
    (hlen : p.len = u16 (g - 4)) :
    (rxDesc p).size = emacEthMaxFlen - 1 ↔ g = emacEthMaxFlen + 4 := by
  rw [size_rxDesc, hlen]
  simp only [u16, emacEthMaxFlen]
  omega

/-! ### The invariant -/

/-- The length left in the buffer of a slot by the good frame it received
last. -/
def leftLen : Option ℕ → ℕ
  | none => emacEthMaxFlen
  | some g => u16 (g - 4)

structure CapInv (s : RxSys) : Prop where
  ready : RxReady s.drv
  len : ∀ k < emacNumRxFrag, ∀ b ∈ s.drv.rxb k, b.len = leftLen (s.lastGood k)
  good : ∀ k, ∀ g ∈ s.lastGood k, 0 < g ∧ g ≤ 2048
  full : FullCapacity s.drv

/-- A ring that `lpc_rx_setup` has just filled. -/
theorem RxQueued.capInv {heap : ℕ → Option (ℕ × ℕ)} {s : RxSys}
    (h : RxQueued heap s.drv emacNumRxFrag) (hgood : s.lastGood = fun _ => none) : CapInv s where
  ready := h.ready
  len := by
    intro k hk b hb
    obtain ⟨a, -, hb', -⟩ := h.slots k hk
    obtain rfl := Option.mem_unique hb' hb
    rw [hgood]
    rfl
  good := by
    intro k g hg
    rw [hgood] at hg
    cases hg
  full := by
    intro k hk
    obtain ⟨a, -, -, hd⟩ := h.slots k hk
    rw [hd, size_rxDesc]
    rfl

/-! ### One step -/

/-- The error branch keeps the capacity iff it is not short: the only
descriptor written is that of the slot. -/
theorem CapInv.requeue_iff {s : RxSys} (h : CapInv s) {b : Pbuf}
    (hb : s.drv.rxb s.drv.rxConsumeIndex = some b) (free : ℕ) :
    FullCapacity { s.drv.advance with
      prxd := Function.update s.drv.prxd s.drv.rxConsumeIndex (rxDesc b)
      rxdescfree := free } ↔
      ∀ g ∈ s.lastGood s.drv.rxConsumeIndex, g = emacEthMaxFlen + 4 := by
  have hlen := h.len _ h.ready.consume b hb
  have hslot : FullCapacity { s.drv.advance with
      prxd := Function.update s.drv.prxd s.drv.rxConsumeIndex (rxDesc b)
      rxdescfree := free } ↔ (rxDesc b).size = emacEthMaxFlen - 1 := by
    constructor
    · intro hfull
      have := hfull _ h.ready.consume
      simpa only [Function.update_self] using this
    · intro hsize k hk
      rcases eq_or_ne k s.drv.rxConsumeIndex with rfl | hne
      · simpa only [Function.update_self] using hsize
      · simp only [Function.update_of_ne hne]
        exact h.full k hk
  rw [hslot]
  rcases hg : s.lastGood s.drv.rxConsumeIndex with - | g
  · rw [hg] at hlen
    refine iff_of_true ?_ (fun g hg => nomatch hg)
    rw [size_rxDesc, hlen]
    rfl
  · rw [hg] at hlen
    obtain ⟨hpos, hmax⟩ := h.good _ g hg
    rw [size_rxDesc_iff hpos hmax hlen]
    simp

/-- The good branch records the received length in its slot. -/
theorem CapInv.copy {s : RxSys} (h : CapInv s) {b : Pbuf} (mem : Mem) (processed : ℕ)
    (delivered : List RxPacket) :
    CapInv
      { s with
        drv := { s.drv.advance with
          rxb := Function.update s.drv.rxb s.drv.rxConsumeIndex
            (some { b with
              len := rxLength (s.drv.prxs s.drv.rxConsumeIndex).info
              totLen := rxLength (s.drv.prxs s.drv.rxConsumeIndex).info })
          mem := mem }
        processed := processed
        delivered := delivered
        lastGood := Function.update s.lastGood s.drv.rxConsumeIndex
          (some ((s.drv.prxs s.drv.rxConsumeIndex).info &&& emacRinfoSize).toNat.succ) } where
  ready := by
    refine ⟨h.ready.number, Nat.mod_lt _ (by decide), rfl, fun k hk => ?_⟩
    rcases eq_or_ne k s.drv.rxConsumeIndex with rfl | hne
    · exact ⟨_, Function.update_self _ _ _⟩
    · obtain ⟨b, hb⟩ := h.ready.slots k hk
      exact ⟨b, (Function.update_of_ne hne _ _).trans hb⟩
  len := by
    intro k hk b' hb'
    rcases eq_or_ne k s.drv.rxConsumeIndex with rfl | hne
    · simp only [Function.update_self, Option.mem_some_iff] at hb' ⊢
      subst hb'
      simp [leftLen, rxLength]
    · simp only [Function.update_of_ne hne] at hb' ⊢
      exact h.len k hk b' hb'
  good := by
    intro k g hg
    rcases eq_or_ne k s.drv.rxConsumeIndex with rfl | hne
    · simp only [Function.update_self, Option.mem_some_iff] at hg
      have hlt : ((s.drv.prxs s.drv.rxConsumeIndex).info &&& emacRinfoSize).toNat ≤ 2047 := by
        rw [BitVec.toNat_and]
        exact Nat.and_le_right
      omega
    · simp only [Function.update_of_ne hne] at hg
      exact h.good k g hg
  full := h.full

/-- After a restart the ring is as `lpc_rx_setup` leaves it. -/
theorem rxRestart_queued (d : RxDrv) {heap : ℕ → Option (ℕ × ℕ)}
    (hheap : ∀ k < emacNumRxFrag, (heap k).isSome) :
    RxQueued heap (rxRestart d heap) emacNumRxFrag := by
  obtain ⟨hdone, hall, -⟩ := lpcRxSetup_spec (rxCleared d) heap
  have hq := hdone (hall hheap)
  rw [rxRestart_eq]
  exact ⟨hq.number, hq.free, hq.next, hq.consume, hq.slots⟩

/-- A step keeps the capacity iff it does not queue a short buffer, and then it
keeps the invariant. -/
theorem CapInv.step {s t : RxSys} {a : RxAct} (h : CapInv s) (hstep : rxStep s a = some t)
    (halloc : AllocSucceeds s a t) :
    (FullCapacity t.drv ↔ NoShortRequeue s a t) ∧ (NoShortRequeue s a t → CapInv t) := by
  cases a with
  | arrive f =>
      simp only [rxStep] at hstep
      split at hstep
      next => cases hstep
      next =>
        obtain rfl := Option.some.inj hstep
        exact ⟨iff_of_true h.full trivial, fun _ =>
          ⟨⟨h.ready.number, h.ready.consume, h.ready.next, h.ready.slots⟩, h.len, h.good, h.full⟩⟩
  | input intStatus heap restart =>
      obtain ⟨-, hrestart⟩ := halloc
      simp only [NoShortRequeue]
      rcases h.ready.input_cases intStatus heap restart with ⟨ho, hcall⟩ | ⟨ho, he, hcall⟩ |
        ⟨ho, he, hx, b, free, hb, hcall⟩ | ⟨-, -, -, -, hcall⟩ | ⟨ho, he, hx, a, b, -, hb, hcall⟩
      · have ht : s.drv.takes intStatus = false := by simp [RxDrv.takes, ho]
        simp only [rxStep, hcall, ho, ht, Option.map_some, Option.some.injEq, if_true] at hstep
        subst hstep
        have hinv : CapInv ⟨rxRestart s.drv restart, s.arrived, s.processed, s.delivered ++ [],
            fun _ => none⟩ := (rxRestart_queued s.drv hrestart).capInv rfl
        exact ⟨iff_of_true hinv.full (fun hf => by rw [ht] at hf; cases hf), fun _ => hinv⟩
      · have ht : s.drv.takes intStatus = false := by simp [RxDrv.takes, he]
        simp only [rxStep, hcall, ho, ht, Option.map_some, Option.some.injEq] at hstep
        subst hstep
        exact ⟨iff_of_true h.full (fun hf => by rw [ht] at hf; cases hf), fun _ =>
          ⟨h.ready, h.len, h.good, h.full⟩⟩
      · have ht : s.drv.takes intStatus = true := by simp [RxDrv.takes, ho, he]
        simp only [rxStep, hcall, ho, ht, hx, Option.map_some, Option.some.injEq] at hstep
        subst hstep
        have hiff := h.requeue_iff hb free
        simp only [ht, hx, forall_true_left]
        refine ⟨hiff, fun hshort => ⟨?_, h.len, h.good, hiff.mpr hshort⟩⟩
        exact ⟨h.ready.number, Nat.mod_lt _ (by decide), rfl, h.ready.slots⟩
      · simp only [rxStep, hcall, Option.map_none] at hstep
        cases hstep
      · have ht : s.drv.takes intStatus = true := by simp [RxDrv.takes, ho, he]
        simp only [rxStep, hcall, ho, ht, hx, Option.map_some, Option.some.injEq] at hstep
        subst hstep
        exact ⟨iff_of_true h.full (fun _ hf => by rw [hx] at hf; cases hf), fun _ => h.copy _ _ _⟩

/-! ### Runs -/

/-- **Every descriptor keeps its full capacity throughout a run iff no error
frame is processed in a slot that received a good frame before.** -/
theorem rx_capacity_iff (d : RxDrv) (heap : ℕ → Option (ℕ × ℕ)) (acts : List RxAct)
    (hsetup : (lpcRxSetup { d with rxProduceIndex := 0 } heap).2 = .ok)
    (halloc : Along rxStep AllocSucceeds (.start d heap) acts) :
    FullCapacity (RxSys.start d heap).drv ∧
      (Along rxStep (fun _ _ t => FullCapacity t.drv) (.start d heap) acts ↔
        Along rxStep NoShortRequeue (.start d heap) acts) := by
  have hstart : CapInv (.start d heap) :=
    ((lpcRxSetup_spec { d with rxProduceIndex := 0 } heap).1 hsetup).capInv rfl
  refine ⟨hstart.full, along_iff_of_along ?_ ?_ hstart halloc⟩
  · intro s a t h hstep ha
    exact (h.step hstep ha).1
  · intro s a t h hstep ha hshort
    exact (h.step hstep ha).2 hshort

/-- The error frame of this run goes to a slot that is still new. -/
theorem rx_capacity_three_frames :
    Along rxStep (fun _ _ t => FullCapacity t.drv) (.start rxDrvZero rxHeap) rxThreeFrames :=
  (rx_capacity_iff rxDrvZero rxHeap rxThreeFrames (by decide +kernel) (by decide +kernel)).2.mpr
    (by decide +kernel)

/-- A lap of good frames of 64 bytes, and an error frame in the first slot. -/
def rxLapThenError : List RxAct :=
  [.arrive rxFrame64, .input 0 (rxHeap 4) rxHeap, .arrive rxFrame64, .input 0 (rxHeap 5) rxHeap,
    .arrive rxFrame64, .input 0 (rxHeap 6) rxHeap, .arrive rxFrame64,
    .input 0 (rxHeap 7) rxHeap, .arrive rxFrame64Crc, .input 0 (rxHeap 8) rxHeap]

/-- The first descriptor is left with room for 60 bytes. -/
theorem rx_capacity_lost :
    (lpcRxSetup { rxDrvZero with rxProduceIndex := 0 } rxHeap).2 = .ok ∧
      Along rxStep AllocSucceeds (.start rxDrvZero rxHeap) rxLapThenError ∧
      ¬ Along rxStep (fun _ _ t => FullCapacity t.drv) (.start rxDrvZero rxHeap)
        rxLapThenError := by
  decide +kernel

end Lpc1768
