/-
Lpc1768/RxRecovery.lean

The two error paths of `lpc_low_level_input` that need memory.

* No memory for a good frame: the frame should be dropped and its slot queued
  again.  The branch queues the pbuf that it did not get, and dereferences
  `NULL` (`rx_alloc_failure`).
* An overrun: the receive side is reset, its pbufs are freed, the ring is filled
  anew and the receiver enabled.  The reset bit of `MAC1` is never taken back,
  and the receiver is enabled however many pbufs there were for the ring
  (`rx_restart_fails`); `rx_restart_bare_iff` says when a slot is left without
  one where the hardware or the driver will look for it.
-/
import Lpc1768.RxOwnership

namespace Lpc1768

/-! ### No memory for a frame -/

/-- The ring is at rest and a good frame waits in it. -/
structure GoodFrameWaits (d : RxDrv) (intStatus : BitVec 32) : Prop where
  ready : RxReady d
  owned : RxOwned d
  quiet : rxOverrun intStatus = false
  waiting : isRxEmpty d = false
  good : rxError (d.prxs d.rxConsumeIndex).info = false

/-- The call returns no packet, and passes over the slot at `RxConsumeIndex`,
which keeps its buffer. -/
def DropsFrame (d : RxDrv) (r : Option (RxDrv × Option Pbuf)) : Prop :=
  ∃ e, r = some (e, none) ∧
    e.rxConsumeIndex = (d.rxConsumeIndex + 1) % emacNumRxFrag ∧
    e.rxdescnextindex = (d.rxdescnextindex + 1) % emacNumRxFrag ∧
    e.rxdescfree = 0 ∧
    ((e.rxb d.rxConsumeIndex).map Pbuf.addr = (d.rxb d.rxConsumeIndex).map Pbuf.addr ∧
      (e.prxd d.rxConsumeIndex).packet = (d.prxd d.rxConsumeIndex).packet) ∧
    ∀ k, k ≠ d.rxConsumeIndex →
      e.rxb k = d.rxb k ∧ e.prxd k = d.prxd k ∧ e.prxs k = d.prxs k

/-- **Without memory for a good frame the driver dereferences `NULL`**: the frame
is never dropped. -/
theorem rx_alloc_failure {d : RxDrv} {intStatus : BitVec 32} (h : GoodFrameWaits d intStatus)
    (restart : ℕ → Option (ℕ × ℕ)) :
    lpcLowLevelInput d intStatus none restart = none ∧
      ¬ DropsFrame d (lpcLowLevelInput d intStatus none restart) := by
  have hcall : lpcLowLevelInput d intStatus none restart = none := by
    rcases h.ready.input_cases intStatus none restart with ⟨ho, -⟩ | ⟨-, he, -⟩ | ⟨-, -, hx, -⟩ |
      ⟨-, -, -, -, hcall⟩ | ⟨-, -, -, a, b, hnone, -, -⟩
    · cases h.quiet.symm.trans ho
    · cases h.waiting.symm.trans he
    · cases h.good.symm.trans hx
    · exact hcall
    · cases hnone
  refine ⟨hcall, ?_⟩
  rw [hcall]
  rintro ⟨e, he, -⟩
  cases he

/-- A ring that was just set up, with a frame in its first slot. -/
def rxOneFrame : RxDrv := (RxSys.start rxDrvZero rxHeap).drv.receive rxFrame64

theorem rxOneFrame_waits : GoodFrameWaits rxOneFrame 0 := by
  have hq : RxQueued rxHeap (lpcRxSetup { rxDrvZero with rxProduceIndex := 0 } rxHeap).1
      emacNumRxFrag :=
    (lpcRxSetup_spec { rxDrvZero with rxProduceIndex := 0 } rxHeap).1 (by decide +kernel)
  have hready := hq.ready
  refine ⟨⟨hready.number, hready.consume, hready.next, hready.slots⟩,
    ⟨?_, ?_, hq.free, hready.next⟩, by decide, by decide +kernel, by decide +kernel⟩
  · intro k hk
    obtain ⟨b, hb⟩ := hready.slots k hk
    exact ⟨b, hb, hq.packet k hk b hb⟩
  · show RxDrv.ring (lpcRxSetup { rxDrvZero with rxProduceIndex := 0 } rxHeap).1 |>.Nodup
    rw [hq.ring]
    decide +kernel

theorem rx_alloc_failure_one_frame :
    GoodFrameWaits rxOneFrame 0 ∧ lpcLowLevelInput rxOneFrame 0 none rxHeap = none :=
  ⟨rxOneFrame_waits, (rx_alloc_failure rxOneFrame_waits rxHeap).1⟩

/-- The first packet after start-up finds the heap exhausted. -/
theorem rx_alloc_failure_faults :
    GoodFrameWaits rxOneFrame 0 ∧
      ¬ DropsFrame rxOneFrame (lpcLowLevelInput rxOneFrame 0 none rxHeap) := by
  refine ⟨rxOneFrame_waits, ?_⟩
  rintro ⟨e, he, -⟩
  have hnone : (lpcLowLevelInput rxOneFrame 0 none rxHeap).isSome = false := by decide +kernel
  rw [he] at hnone
  cases hnone

/-! ### The restart -/

/-- The receiver works: every slot has a buffer of its own, the ring is empty for
a hardware that starts at index 0, and the receive logic is enabled and not
held in reset. -/
structure RxWorks (d : RxDrv) : Prop where
  slots : ∀ k < emacNumRxFrag, ∃ b, d.rxb k = some b ∧ (d.prxd k).packet = b.payload
  distinct : d.ring.Nodup
  empty : isRxEmpty { d with rxProduceIndex := 0 } = true
  released : d.mac1 &&& emacMac1ResRx = 0
  recEn : d.mac1 &&& emacMac1RecEn ≠ 0
  rxEn : d.command &&& emacCrRxEn ≠ 0

/-- The receiver is disabled. -/
def RxStopped (d : RxDrv) : Prop := d.mac1 &&& emacMac1RecEn = 0 ∨ d.command &&& emacCrRxEn = 0

/-- Slot `i` is among those that the hardware fills from index 0 on, up to one
before `RxConsumeIndex`. -/
def MayFill (d : RxDrv) (i : ℕ) : Prop :=
  i < emacNumRxFrag ∧ ∀ j ≤ i, (j + 1) % emacNumRxFrag ≠ d.rxConsumeIndex

/-- There is a buffer wherever the hardware may write a frame and where the driver
reads next. -/
structure NoBareSlot (d : RxDrv) : Prop where
  fill : ∀ i, MayFill d i → (d.rxb i).isSome
  read : isRxEmpty { d with rxProduceIndex := 0 } = false → (d.rxb d.rxConsumeIndex).isSome

/-- A restart ends with a working receiver or a stopped one. -/
def RestartsWell (d : RxDrv) : Prop := (RxWorks d ∨ RxStopped d) ∧ (¬ RxStopped d → NoBareSlot d)

/-- **No restart ends well**: the receiver is enabled, and its logic held in
reset. -/
theorem rx_restart_fails {d : RxDrv} {intStatus : BitVec 32} (h : rxOverrun intStatus = true)
    (heap : Option (ℕ × ℕ)) (restart : ℕ → Option (ℕ × ℕ)) :
    ∃ e, lpcLowLevelInput d intStatus heap restart = some (e, none) ∧ ¬ RestartsWell e := by
  obtain ⟨hmac1, hcommand, -⟩ := rxRestart_control d restart
  have hrec : emacMac1RecEn ≠ 0 := by decide
  have hrx : emacCrRxEn ≠ 0 := by decide
  refine ⟨rxRestart d restart, if_pos h, ?_⟩
  rintro ⟨hworks | hstopped, -⟩
  · -- the reset bit is set still
    have hres := hworks.released
    have hkept : emacMac1RecEn &&& emacMac1ResRx = 0 := by decide
    rw [hmac1, BitVec.and_or_distrib_right, or_and_self, hkept] at hres
    exact absurd hres (by decide)
  · rcases hstopped with hmac | hcr
    · rw [hmac1, or_and_self] at hmac
      exact hrec hmac
    · rw [hcommand, or_and_self] at hcr
      exact hrx hcr

theorem rx_restart_fails_full : ∃ e,
    lpcLowLevelInput rxOneFrame emacIntRxOverrun none rxHeap = some (e, none) ∧ ¬ RestartsWell e :=
  rx_restart_fails (by decide) none rxHeap

/-- An overrun with memory for the whole ring: the receive logic stays in reset. -/
theorem rx_restart_held_in_reset :
    lpcLowLevelInput rxOneFrame emacIntRxOverrun none rxHeap =
        some (rxRestart rxOneFrame rxHeap, none) ∧
      ¬ RestartsWell (rxRestart rxOneFrame rxHeap) := by
  refine ⟨rfl, ?_⟩
  rintro ⟨hworks | hmac | hcr, -⟩
  · exact absurd hworks.released (by decide +kernel)
  · exact absurd hmac (by decide +kernel)
  · exact absurd hcr (by decide +kernel)

/-! ### The slots after a restart -/

/-- The loop queues what it gets, and the other slots stay as they were. -/
theorem rxQueueLoop_prefix (heap : ℕ → Option (ℕ × ℕ)) {fuel q : ℕ} {d : RxDrv}
    (hfuel : q + fuel = emacNumRxFrag) (h : RxQueued heap d q) :
    ∃ n, q ≤ n ∧ n ≤ emacNumRxFrag ∧ RxQueued heap (rxQueueLoop heap fuel d q).1 n ∧
      (n < emacNumRxFrag → heap n = none) ∧
      (∀ k, n ≤ k → (rxQueueLoop heap fuel d q).1.rxb k = d.rxb k) ∧
      (n = q → (rxQueueLoop heap fuel d q).1 = d) := by
  induction fuel generalizing q d with
  | zero =>
      exact ⟨q, Nat.le_refl q, by omega, h, fun hlt => by omega, fun _ _ => rfl, fun _ => rfl⟩
  | succ fuel ih =>
      have hq : q < emacNumRxFrag := by omega
      have hfree : d.rxdescfree > 0 := by
        rw [h.free]
        omega
      have hu : u8 ((q : ℤ) + 1) = q + 1 :=
        u8_of_lt (n := q + 1) (by simp only [emacNumRxFrag] at hq; omega)
      rcases ha : heap q with - | a
      · simp only [rxQueueLoop, if_pos hfree, ha, pbufAlloc, Option.map_none]
        exact ⟨q, Nat.le_refl q, Nat.le_of_lt hq, h, fun _ => ha, fun _ _ => trivial,
          fun _ => trivial⟩
      · have hlen : u16 ((u16 (emacEthMaxFlen : ℕ) : ℕ) : ℤ) = emacEthMaxFlen := by decide
        simp only [rxQueueLoop, if_pos hfree, ha, pbufAlloc, Option.map_some, hlen, hu]
        obtain ⟨n, hle, hmax, hqueued, hnone, hrest, -⟩ := ih (by omega) (h.queue hq ha)
        refine ⟨n, by omega, hmax, hqueued, hnone, fun k hk => ?_, fun he => by omega⟩
        -- slot `q` is the only one written
        have hnext : d.rxdescnextindex = q := h.next.trans (Nat.mod_eq_of_lt hq)
        rw [hrest k hk]
        exact Function.update_of_ne (by omega) _ _

/-- After a restart the first `n` slots have a pbuf and the others none, where
allocation number `n` is the first that failed. -/
theorem rxRestart_slots (d : RxDrv) (heap : ℕ → Option (ℕ × ℕ)) :
    ∃ n, n ≤ emacNumRxFrag ∧ RxQueued heap (rxRestart d heap) n ∧
      (n < emacNumRxFrag → heap n = none) ∧
      (∀ k, n ≤ k → k < emacNumRxFrag → (rxRestart d heap).rxb k = none) ∧
      (n = 0 → (rxRestart d heap).rxConsumeIndex = d.rxConsumeIndex) := by
  obtain ⟨n, -, hmax, hqueued, hnone, hrest, hnothing⟩ := rxQueueLoop_prefix heap
    (show 0 + emacNumRxFrag = emacNumRxFrag from rfl)
    (d := { rxCleared d with
      rxDescriptorNumber := emacNumRxFrag - 1
      rxdescfree := emacNumRxFrag
      rxdescnextindex := 0 })
    ⟨rfl, rfl, rfl, fun h => absurd h (by decide), fun k hk => absurd hk (Nat.not_lt_zero k)⟩
  refine ⟨n, hmax, ⟨hqueued.number, hqueued.free, hqueued.next, hqueued.consume, hqueued.slots⟩,
    hnone, fun k hk hlt => ?_, fun he => ?_⟩
  · exact (hrest k hk).trans (if_pos hlt)
  · have hsame := congrArg RxDrv.rxConsumeIndex (hnothing he)
    exact hsame

/-- A restart that runs out of memory at slot `n` leaves a slot without a buffer
that will be used. -/
theorem rxRestart_bare {d : RxDrv} (hc : d.rxConsumeIndex < emacNumRxFrag)
    {heap : ℕ → Option (ℕ × ℕ)} {n : ℕ} (hlt : n < emacNumRxFrag)
    (hqueued : RxQueued heap (rxRestart d heap) n)
    (hbare : ∀ k, n ≤ k → k < emacNumRxFrag → (rxRestart d heap).rxb k = none)
    (hnothing : n = 0 → (rxRestart d heap).rxConsumeIndex = d.rxConsumeIndex) :
    ¬ NoBareSlot (rxRestart d heap) := by
  rintro ⟨hfill, hread⟩
  have hempty : ∀ k, n ≤ k → k < emacNumRxFrag → ((rxRestart d heap).rxb k).isSome = false :=
    fun k hk hlt => by rw [hbare k hk hlt]; rfl
  have hnotempty : (rxRestart d heap).rxConsumeIndex ≠ 0 →
      isRxEmpty { rxRestart d heap with rxProduceIndex := 0 } = false :=
    fun hne => decide_eq_false fun he => hne he.symm
  rcases Nat.eq_zero_or_pos n with rfl | hpos
  · have hcons := hnothing rfl
    rcases Nat.eq_zero_or_pos d.rxConsumeIndex with hzero | hcpos
    · -- the hardware fills slot 0 first
      have hsome := hfill 0 ⟨by decide, fun j hj => by
        obtain rfl : j = 0 := by omega
        rw [hcons, hzero]
        decide⟩
      rw [hempty 0 (Nat.le_refl 0) (by decide)] at hsome
      cases hsome
    · have hsome := hread (hnotempty (by omega))
      rw [hcons, hempty _ (Nat.zero_le _) hc] at hsome
      cases hsome
  · -- the driver takes slot `n` for the oldest frame
    have hcons : (rxRestart d heap).rxConsumeIndex = n :=
      (hqueued.consume hpos).trans (Nat.mod_eq_of_lt hlt)
    have hsome := hread (hnotempty (by omega))
    rw [hcons, hempty n (Nat.le_refl n) hlt] at hsome
    cases hsome

/-- **After a restart there is a buffer wherever one is needed iff every slot got
one.** -/
theorem rx_restart_bare_iff {d : RxDrv} (hc : d.rxConsumeIndex < emacNumRxFrag)
    (heap : ℕ → Option (ℕ × ℕ)) :
    NoBareSlot (rxRestart d heap) ↔ ∀ k < emacNumRxFrag, (heap k).isSome := by
  obtain ⟨n, hmax, hqueued, hnone, hbare, hnothing⟩ := rxRestart_slots d heap
  rcases Nat.lt_or_ge n emacNumRxFrag with hlt | hge
  · refine iff_of_false (rxRestart_bare hc hlt hqueued hbare hnothing) fun hall => ?_
    have hsome := hall n hlt
    rw [hnone hlt] at hsome
    cases hsome
  · obtain rfl : n = emacNumRxFrag := by omega
    refine iff_of_true ⟨?_, ?_⟩ fun k hk => ?_
    · rintro i ⟨hi, -⟩
      obtain ⟨b, hb⟩ := hqueued.ready.slots i hi
      rw [hb]
      rfl
    · intro _
      obtain ⟨b, hb⟩ := hqueued.ready.slots _ hqueued.ready.consume
      rw [hb]
      rfl
    · obtain ⟨a, ha, -, -⟩ := hqueued.slots k hk
      rw [ha]
      rfl

end Lpc1768
