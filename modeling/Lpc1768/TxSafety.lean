/-
Lpc1768/TxSafety.lean

Safety of the transmit ring.  The wait loop of `lpc_low_level_output` lets a
call through when `lpc_tx_ready` reports enough free descriptors.  It should
then be true that no descriptor is written that the hardware has still to
consume, and that `TxProduceIndex` is not moved round onto `TxConsumeIndex`,
which to the hardware would mean that nothing is queued.

`lpc_tx_ready` is right only where `TxConsumeIndex > TxProduceIndex`.  With
equal indices it reports one descriptor too many, and with
`TxProduceIndex > TxConsumeIndex` it subtracts the queued descriptors with
the wrong sign.  `tx_safe_iff` says that a run is safe exactly when the wait
loop is never passed in these two cases with more descriptors needed than
are free.
-/
import Mathlib.Data.List.Nodup
import Lpc1768.TxRing

namespace Lpc1768

/-! ### The property and the condition -/

/-- The descriptors written by a step, in the order of writing. -/
def written (s t : TxSys) : List ℕ :=
  (t.pending.drop s.pending.length).map Prod.fst

/-- No descriptor is written that is queued and not yet consumed, be it from
an earlier call or from this one, and `TxProduceIndex`, which follows each
descriptor written, does not come round to `TxConsumeIndex`. -/
def TxSafe (s : TxSys) (_ : TxAct) (t : TxSys) : Prop :=
  (∀ i ∈ written s t, i ∉ s.pending.map Prod.fst) ∧ (written s t).Nodup ∧
    ∀ i ∈ written s t, wrapInc s.drv.txDescriptorNumber i ≠ s.drv.txConsumeIndex

instance (s : TxSys) (a : TxAct) (t : TxSys) : Decidable (TxSafe s a t) := by
  unfold TxSafe; infer_instance

/-- Whenever the wait loop is passed, the descriptors queued and those needed
leave one descriptor of the ring free. -/
def TxRoom (s : TxSys) (a : TxAct) (_ : TxSys) : Prop :=
  ∀ j ∈ s.passes a, s.pending.length + j.dn ≤ emacNumTxFrag - 1

instance (s : TxSys) (a : TxAct) (t : TxSys) : Decidable (TxRoom s a t) := by
  unfold TxRoom; infer_instance

/-- Whenever the wait loop is passed with equal indices, at most two
descriptors are needed, and whenever it is passed with `TxProduceIndex`
above `TxConsumeIndex`, they fit into what the difference leaves free. -/
def IndexRoom (s : TxSys) (a : TxAct) (_ : TxSys) : Prop :=
  ∀ j ∈ s.passes a,
    (s.drv.txProduceIndex = s.drv.txConsumeIndex → j.dn ≤ emacNumTxFrag - 1) ∧
    (s.drv.txConsumeIndex < s.drv.txProduceIndex →
      s.drv.txProduceIndex - s.drv.txConsumeIndex + j.dn ≤ emacNumTxFrag - 1)

/-! ### Consecutive slots -/

/-- The `n` slots from descriptor number `lo` on. -/
def slotsFrom (lo n : ℕ) : List ℕ :=
  (List.range n).map fun i => (lo + i) % emacNumTxFrag

theorem slotsFrom_add (lo n m : ℕ) :
    slotsFrom lo (n + m) = slotsFrom lo n ++ slotsFrom (lo + n) m := by
  simp [slotsFrom, List.range_add, Function.comp_def, Nat.add_assoc]

theorem slotsFrom_succ (lo n : ℕ) :
    slotsFrom lo (n + 1) = lo % emacNumTxFrag :: slotsFrom (lo + 1) n := by
  rw [Nat.add_comm n 1, slotsFrom_add]
  rfl

theorem slotsFrom_mod (lo n : ℕ) : slotsFrom (lo % emacNumTxFrag) n = slotsFrom lo n := by
  simp [slotsFrom]

theorem mem_slotsFrom {lo n x : ℕ} :
    x ∈ slotsFrom lo n ↔ ∃ i < n, (lo + i) % emacNumTxFrag = x := by
  simp [slotsFrom]

/-- Up to a lap, the slots are different. -/
theorem nodup_slotsFrom {lo n : ℕ} (h : n ≤ emacNumTxFrag) : (slotsFrom lo n).Nodup := by
  refine List.Nodup.map_on ?_ List.nodup_range
  intro i hi j hj he
  rw [List.mem_range] at hi hj
  rcases Nat.lt_trichotomy i j with hlt | heq | hgt
  · exact absurd he (slot_ne (by omega) (by omega))
  · exact heq
  · exact absurd he.symm (slot_ne (by omega) (by omega))

/-! ### The functions of the driver -/

/-- What the wait loop is entered with: a chain, and the descriptors that it
needs. -/
theorem outputPrepare_job (d : TxDrv) (p : Pbuf) (next : List Pbuf) (heap : Option (ℕ × ℕ)) :
    ∀ j ∈ (outputPrepare d p next heap).2, j.q ≠ [] ∧ j.dn = u8 (pbufClen j.q) := by
  rintro j hj
  simp only [outputPrepare] at hj
  split at hj
  · split at hj
    · cases hj
    · obtain rfl := Option.some.inj hj
      exact ⟨List.cons_ne_nil _ _, rfl⟩
  · obtain rfl := Option.some.inj hj
    exact ⟨List.cons_ne_nil _ _, rfl⟩

/-- The part before the wait loop touches the memory and takes a reference on
the bounce buffer, if there is one. -/
theorem outputPrepare_frame (d : TxDrv) (p : Pbuf) (next : List Pbuf) (heap : Option (ℕ × ℕ)) :
    ∃ mem, (outputPrepare d p next heap).1 =
      { d with mem := mem, taken := d.taken ++ heldBy (outputPrepare d p next heap).2 } := by
  simp only [outputPrepare]
  split
  next hfar =>
    split
    · exact ⟨d.mem, by simp [heldBy]⟩
    · exact ⟨_, by rw [heldBy, if_neg hfar]⟩
  next hsafe => exact ⟨d.mem, by simp [heldBy, not_not.mp hsafe]⟩

/-- The queue loop touches descriptors, saved pbufs and `TxProduceIndex`. -/
theorem queueLoop_frame (p dn : ℕ) (qs : List Pbuf) (idx : ℕ) (d : TxDrv) :
    ∃ ptxd txb prod, (queueLoop p dn qs idx d).1 =
      { d with ptxd := ptxd, txb := txb, txProduceIndex := prod } := by
  induction dn generalizing qs idx d with
  | zero => exact ⟨d.ptxd, d.txb, d.txProduceIndex, rfl⟩
  | succ dn ih =>
      cases qs with
      | nil => exact ⟨d.ptxd, d.txb, d.txProduceIndex, rfl⟩
      | cons q qs =>
          obtain ⟨ptxd, txb, prod, h⟩ := ih qs _ _
          exact ⟨ptxd, txb, prod, by rw [queueLoop, h]⟩

/-- The loop writes no descriptor but those it lists. -/
theorem queueLoop_untouched (p dn : ℕ) (qs : List Pbuf) (idx : ℕ) (d : TxDrv) {i : ℕ}
    (h : i ∉ (queueLoop p dn qs idx d).2.map Prod.fst) :
    (queueLoop p dn qs idx d).1.ptxd i = d.ptxd i ∧
      (queueLoop p dn qs idx d).1.txb i = d.txb i := by
  induction dn generalizing qs idx d with
  | zero => exact ⟨rfl, rfl⟩
  | succ dn ih =>
      cases qs with
      | nil => exact ⟨rfl, rfl⟩
      | cons q qs =>
          simp only [queueLoop, List.map_cons, List.mem_cons, not_or] at h ⊢
          obtain ⟨hne, hrest⟩ := h
          obtain ⟨hd, hb⟩ := ih qs _ _ hrest
          rw [hd, hb]
          exact ⟨Function.update_of_ne hne _ _, Function.update_of_ne hne _ _⟩

/-- From descriptor number `k` on, the loop writes the next `dn` slots and
leaves `TxProduceIndex` behind them. -/
theorem queueLoop_slots (p : ℕ) {dn : ℕ} {qs : List Pbuf} {k : ℕ} {d : TxDrv}
    (hnum : d.txDescriptorNumber = emacNumTxFrag - 1) (hlen : dn ≤ qs.length)
    (hprod : d.txProduceIndex = k % emacNumTxFrag) :
    (queueLoop p dn qs (k % emacNumTxFrag) d).2.map Prod.fst = slotsFrom k dn ∧
    (queueLoop p dn qs (k % emacNumTxFrag) d).1.txProduceIndex = (k + dn) % emacNumTxFrag := by
  induction dn generalizing qs k d with
  | zero => exact ⟨rfl, hprod⟩
  | succ dn ih =>
      cases qs with
      | nil => simp at hlen
      | cons q qs =>
          have hwrap : wrapInc d.txDescriptorNumber (k % emacNumTxFrag) =
              (k + 1) % emacNumTxFrag := by
            rw [hnum]
            exact wrapInc_mod (by decide) (by decide) k
          simp only [queueLoop, hwrap]
          obtain ⟨hslots, hend⟩ := ih (k := k + 1) (d := { d with
            ptxd := _, txb := _, txProduceIndex := (k + 1) % emacNumTxFrag })
            hnum (by simpa using hlen) rfl
          refine ⟨?_, ?_⟩
          · rw [List.map_cons, hslots, slotsFrom_succ]
          · rw [hend, Nat.add_assoc, Nat.add_comm 1 dn]

theorem reclaimLoop_frame (fuel : ℕ) (d : TxDrv) :
    ∃ freed txb sem last, reclaimLoop fuel d =
      { d with freed := freed, txb := txb, xtxCountSem := sem, lasttxidx := last } := by
  induction fuel generalizing d with
  | zero => exact ⟨d.freed, d.txb, d.xtxCountSem, d.lasttxidx, rfl⟩
  | succ fuel ih =>
      rw [reclaimLoop]
      split
      · obtain ⟨freed, txb, sem, last, h⟩ := ih _
        exact ⟨freed, txb, sem, last, h⟩
      · exact ⟨d.freed, d.txb, d.xtxCountSem, d.lasttxidx, rfl⟩

/-! ### The invariant -/

/-- The pending descriptors are the slots from `TxConsumeIndex` up to
`TxProduceIndex`, and at least one slot of the ring is free. -/
structure TxInv (s : TxSys) : Prop where
  number : s.drv.txDescriptorNumber = emacNumTxFrag - 1
  consume : s.drv.txConsumeIndex < emacNumTxFrag
  produce : s.drv.txProduceIndex =
    (s.drv.txConsumeIndex + s.pending.length) % emacNumTxFrag
  slots : s.pending.map Prod.fst = slotsFrom s.drv.txConsumeIndex s.pending.length
  room : s.pending.length ≤ emacNumTxFrag - 1
  job : ∀ j ∈ s.job, j.q ≠ [] ∧ j.dn = u8 (pbufClen j.q)

theorem txInv_start (d : TxDrv) : TxInv (.start d) where
  number := rfl
  consume := by simp [TxSys.start, lpcTxSetup, emacNumTxFrag]
  produce := rfl
  slots := rfl
  room := by simp [TxSys.start]
  job := fun j hj => nomatch hj

/-- Three queued descriptors are not told from none, so `TxProduceIndex` and
`TxConsumeIndex` are equal only if nothing is queued. -/
theorem TxInv.index_cases {s : TxSys} (h : TxInv s) :
    (s.drv.txProduceIndex = s.drv.txConsumeIndex ∧ s.pending.length = 0) ∨
    (s.drv.txConsumeIndex < s.drv.txProduceIndex ∧
      s.pending.length = s.drv.txProduceIndex - s.drv.txConsumeIndex) ∨
    (s.drv.txProduceIndex < s.drv.txConsumeIndex ∧
      s.pending.length = s.drv.txProduceIndex + emacNumTxFrag - s.drv.txConsumeIndex) := by
  have hc := h.consume
  have hp := h.produce
  have hr := h.room
  simp only [emacNumTxFrag] at hc hp hr ⊢
  omega

/-- `lpc_tx_ready` where `TxConsumeIndex` is above `TxProduceIndex`. -/
theorem TxInv.lpcTxReady_of_lt {s : TxSys} (h : TxInv s)
    (hlt : s.drv.txProduceIndex < s.drv.txConsumeIndex) :
    lpcTxReady s.drv = emacNumTxFrag - 1 - s.pending.length := by
  have hc := h.consume
  have hp := h.produce
  have hr := h.room
  have hup : u8 s.drv.txProduceIndex = s.drv.txProduceIndex :=
    u8_of_lt (by simp only [emacNumTxFrag] at hc; omega)
  have huc : u8 s.drv.txConsumeIndex = s.drv.txConsumeIndex :=
    u8_of_lt (by simp only [emacNumTxFrag] at hc; omega)
  simp only [lpcTxReady, hup, huc, if_neg (show ¬ (s.drv.txProduceIndex : ℤ) =
    s.drv.txConsumeIndex by omega), if_pos (show (s.drv.txConsumeIndex : ℤ) >
    s.drv.txProduceIndex by omega)]
  simp only [emacNumTxFrag, u8] at hc hp hr ⊢
  omega

/-- **Room.**  Where the wait loop is passed, the queued and the needed
descriptors leave one free iff they do so in the two cases that
`lpc_tx_ready` gets wrong. -/
theorem TxInv.room_iff {s t : TxSys} {a : TxAct} (h : TxInv s) :
    TxRoom s a t ↔ IndexRoom s a t := by
  refine forall₂_congr fun j hj => ?_
  obtain ⟨-, -, hready⟩ := mem_passes.mp hj
  rcases h.index_cases with ⟨he, hlen⟩ | ⟨hlt, hlen⟩ | ⟨hlt, hlen⟩
  · simp [he, hlen]
  · simp only [hlen]
    refine ⟨fun hr => ⟨fun he => ?_, fun _ => hr⟩, fun hr => hr.2 hlt⟩
    omega
  · rw [h.lpcTxReady_of_lt hlt] at hready
    have hr := h.room
    refine iff_of_true (by omega) ⟨fun he => ?_, fun hlt' => ?_⟩
    · omega
    · omega

theorem TxInv.dn_le {s : TxSys} (h : TxInv s) {j : TxJob} (hj : s.job = some j) :
    j.dn ≤ j.q.length := by
  rw [(h.job j hj).2]
  exact Nat.le_trans (u8_le _) (pbufClen_le _)

theorem TxInv.outputQueue_eq {s : TxSys} (h : TxInv s) (j : TxJob) :
    outputQueue s.drv j = queueLoop j.p.addr j.dn j.q s.drv.txProduceIndex
      (s.drv.ref j) := by
  have hlt := Nat.mod_lt (s.drv.txConsumeIndex + s.pending.length)
    (show 0 < emacNumTxFrag by decide)
  rw [← h.produce] at hlt
  have hidx : u8 s.drv.txProduceIndex = s.drv.txProduceIndex :=
    u8_of_lt (Nat.lt_trans hlt (by decide))
  rw [outputQueue, hidx]

/-- What the queued frame adds to the pending descriptors. -/
theorem TxInv.queue {s : TxSys} (h : TxInv s) {j : TxJob} (hj : s.job = some j) :
    (∃ w, (s.queue j).pending = s.pending ++ w ∧
      w.map Prod.fst = slotsFrom (s.drv.txConsumeIndex + s.pending.length) j.dn) ∧
    (s.queue j).drv.txDescriptorNumber = s.drv.txDescriptorNumber ∧
    (s.queue j).drv.txConsumeIndex = s.drv.txConsumeIndex ∧
    (s.queue j).drv.txProduceIndex =
      (s.drv.txConsumeIndex + s.pending.length + j.dn) % emacNumTxFrag := by
  have hqueue := h.outputQueue_eq j
  rw [h.produce] at hqueue
  obtain ⟨hslots, hend⟩ := queueLoop_slots j.p.addr
    (d := s.drv.ref j) h.number (h.dn_le hj) h.produce
  obtain ⟨ptxd, txb, prod, hframe⟩ := queueLoop_frame j.p.addr j.dn j.q
    ((s.drv.txConsumeIndex + s.pending.length) % emacNumTxFrag) (s.drv.ref j)
  simp only [TxSys.queue, hqueue]
  refine ⟨⟨_, rfl, hslots⟩, ?_, ?_, hend⟩
  · rw [hframe]
    rfl
  · rw [hframe]
    rfl

/-- A safe call leaves the descriptors and the saved pbufs of the pending
frames as they are. -/
theorem TxSafe.untouched {s : TxSys} {j : TxJob} (h : TxSafe s .poll (s.queue j)) {i : ℕ}
    (hi : i ∈ s.pending.map Prod.fst) :
    (s.queue j).drv.ptxd i = s.drv.ptxd i ∧ (s.queue j).drv.txb i = s.drv.txb i := by
  have hw : i ∉ (outputQueue s.drv j).2.map Prod.fst := by
    intro hmem
    refine h.1 i ?_ hi
    simpa [written, TxSys.queue] using hmem
  obtain ⟨hd, hb⟩ := queueLoop_untouched _ _ _ _ _ hw
  exact ⟨hd, hb⟩

theorem TxInv.length_queue {s : TxSys} (h : TxInv s) {j : TxJob} (hj : s.job = some j) :
    (s.queue j).pending.length = s.pending.length + j.dn := by
  obtain ⟨⟨w, hpend, hslots⟩, -⟩ := h.queue hj
  have hlen : (w.map Prod.fst).length = j.dn := by
    rw [hslots]
    simp [slotsFrom]
  rw [hpend, List.length_append, ← hlen, List.length_map]

/-- A passed wait loop is safe iff it leaves one descriptor of the ring
free: the descriptor before `TxConsumeIndex` is the one whose successor is
`TxConsumeIndex`. -/
theorem TxInv.queue_safe_iff {s : TxSys} (h : TxInv s) {j : TxJob} (hj : s.job = some j) :
    TxSafe s .poll (s.queue j) ↔ s.pending.length + j.dn ≤ emacNumTxFrag - 1 := by
  obtain ⟨⟨w, hpend, hslots⟩, -, -, -⟩ := h.queue hj
  have hw : written s (s.queue j) =
      slotsFrom (s.drv.txConsumeIndex + s.pending.length) j.dn := by
    rw [written, hpend, List.drop_left, hslots]
  have hwrap : ∀ k, wrapInc s.drv.txDescriptorNumber (k % emacNumTxFrag) =
      (k + 1) % emacNumTxFrag := by
    intro k
    rw [h.number]
    exact wrapInc_mod (by decide) (by decide) k
  have hc : s.drv.txConsumeIndex % emacNumTxFrag = s.drv.txConsumeIndex :=
    Nat.mod_eq_of_lt h.consume
  have hr := h.room
  simp only [TxSafe, hw, h.slots]
  constructor
  · rintro ⟨-, -, hround⟩
    by_contra hfull
    -- the descriptor two after `TxConsumeIndex` is written
    refine hround ((s.drv.txConsumeIndex + 2) % emacNumTxFrag) ?_ ?_
    · refine mem_slotsFrom.mpr ⟨2 - s.pending.length, ?_, ?_⟩
      · simp only [emacNumTxFrag] at hfull hr
        omega
      · congr 1
        simp only [emacNumTxFrag] at hr
        omega
    · rw [hwrap]
      show (s.drv.txConsumeIndex + emacNumTxFrag) % emacNumTxFrag = s.drv.txConsumeIndex
      rw [Nat.add_mod_right, hc]
  · intro hroom
    have hlen : s.pending.length + j.dn < emacNumTxFrag := by
      simp only [emacNumTxFrag] at hroom ⊢
      omega
    -- pending and written slots together make less than a lap
    refine ⟨fun i hi hmem => ?_, nodup_slotsFrom (by omega), fun i hi => ?_⟩
    · obtain ⟨m, hm, rfl⟩ := mem_slotsFrom.mp hi
      obtain ⟨n, hn, he⟩ := mem_slotsFrom.mp hmem
      exact slot_ne (by omega) (by omega) he
    · obtain ⟨m, hm, rfl⟩ := mem_slotsFrom.mp hi
      rw [hwrap, ← hc]
      exact (slot_ne (by omega) (by omega)).symm

/-- A step that queues nothing is safe. -/
theorem txSafe_of_not_written {s t : TxSys} {a : TxAct} (h : written s t = []) :
    TxSafe s a t := by
  simp [TxSafe, h]

theorem TxInv.safe_iff {s t : TxSys} {a : TxAct} (h : TxInv s) (hstep : txStep s a = some t) :
    TxSafe s a t ↔ TxRoom s a t := by
  rcases txStep_cases hstep with ⟨p, next, heap, rfl, -, rfl⟩ | ⟨rfl, hp, rfl⟩ |
    ⟨j, rfl, hj, hp, rfl⟩ | ⟨rfl, -, rfl⟩ | ⟨rfl, rfl⟩
  · exact iff_of_true (txSafe_of_not_written (by simp [written]))
      (fun j hj => nomatch (mem_passes.mp hj).1)
  · exact iff_of_true (txSafe_of_not_written (by simp [written]))
      (fun j hj => nomatch hp.symm.trans hj)
  · rw [h.queue_safe_iff hj, TxRoom, hp]
    simp
  · exact iff_of_true (txSafe_of_not_written (by simp [written]))
      (fun j hj => nomatch (mem_passes.mp hj).1)
  · exact iff_of_true (txSafe_of_not_written (by simp [written]))
      (fun j hj => nomatch (mem_passes.mp hj).1)

/-! ### One step -/

/-- Queueing within the free descriptors keeps the invariant. -/
theorem TxInv.queue_inv {s : TxSys} (h : TxInv s) {j : TxJob} (hj : s.job = some j)
    (hroom : s.pending.length + j.dn ≤ emacNumTxFrag - 1) : TxInv (s.queue j) := by
  obtain ⟨⟨w, hpend, hslots⟩, hnum, hcons, hprod⟩ := h.queue hj
  have hplen := h.length_queue hj
  exact
    { number := hnum.trans h.number
      consume := by rw [hcons]; exact h.consume
      produce := by rw [hprod, hcons, hplen, Nat.add_assoc]
      slots := by rw [hcons, hplen, hpend, List.map_append, h.slots, hslots, slotsFrom_add]
      room := by rw [hplen]; exact hroom
      job := fun j hj => nomatch hj }

/-- A completion takes the oldest pending descriptor. -/
theorem TxInv.complete_inv {s : TxSys} (h : TxInv s) (completed : List ℕ)
    (hne : s.drv.txConsumeIndex ≠ s.drv.txProduceIndex) :
    TxInv { s with
      drv := { s.drv with txConsumeIndex := (s.drv.txConsumeIndex + 1) % emacNumTxFrag }
      pending := s.pending.tail
      completed := completed } := by
  obtain ⟨n, hn⟩ : ∃ n, s.pending.length = n + 1 := by
    rcases hlen : s.pending.length with - | n
    · -- with nothing pending the indices would be equal
      have hp := h.produce
      rw [hlen, Nat.add_zero, Nat.mod_eq_of_lt h.consume] at hp
      exact absurd hp.symm hne
    · exact ⟨n, rfl⟩
  have htail : s.pending.tail.length = n := by simp [hn]
  have hroom := h.room
  exact
    { number := h.number
      consume := Nat.mod_lt _ (by decide)
      produce := by
        show s.drv.txProduceIndex = _
        rw [htail, h.produce, hn, Nat.mod_add_mod, Nat.add_assoc, Nat.add_comm 1 n]
      slots := by
        show s.pending.tail.map Prod.fst = _
        rw [htail, slotsFrom_mod, List.map_tail, h.slots, hn, slotsFrom_succ]
        rfl
      room := by rw [htail]; omega
      job := h.job }

theorem TxInv.step {s t : TxSys} {a : TxAct} (h : TxInv s) (hstep : txStep s a = some t)
    (hroom : TxRoom s a t) : TxInv t := by
  rcases txStep_cases hstep with ⟨p, next, heap, rfl, -, rfl⟩ | ⟨rfl, -, rfl⟩ |
    ⟨j, rfl, hj, hp, rfl⟩ | ⟨rfl, hne, rfl⟩ | ⟨rfl, rfl⟩
  · -- a call has touched neither indices nor descriptors yet
    obtain ⟨mem, hd⟩ := outputPrepare_frame s.drv p next heap
    rw [hd]
    exact ⟨h.number, h.consume, h.produce, h.slots, h.room, outputPrepare_job _ _ _ _⟩
  · exact ⟨h.number, h.consume, h.produce, h.slots, h.room, h.job⟩
  · exact h.queue_inv hj (hroom j hp)
  · exact h.complete_inv _ hne
  · obtain ⟨freed, txb, sem, last, hd⟩ := reclaimLoop_frame
      (s.drv.txDescriptorNumber + 1) s.drv
    rw [lpcTxReclaim, hd]
    exact ⟨h.number, h.consume, h.produce, h.slots, h.room, h.job⟩

/-! ### Runs -/

/-- **A run is safe iff the wait loop is never passed for want of room in the
two cases that `lpc_tx_ready` gets wrong**, and so it is with leaving one
descriptor of the ring free. -/
theorem tx_safe_iff (d : TxDrv) (acts : List TxAct) :
    (Along txStep TxSafe (.start d) acts ↔ Along txStep IndexRoom (.start d) acts) ∧
    (Along txStep TxRoom (.start d) acts ↔ Along txStep IndexRoom (.start d) acts) := by
  have hinv : ∀ s a t, TxInv s → txStep s a = some t → IndexRoom s a t → TxInv t :=
    fun s a t h hstep hroom => h.step hstep (h.room_iff.mpr hroom)
  refine ⟨along_iff ?_ hinv (txInv_start d), along_iff ?_ hinv (txInv_start d)⟩
  · intro s a t h hstep
    rw [h.safe_iff hstep, h.room_iff]
  · intro s a t h _
    exact h.room_iff

/-- A single-pbuf frame of 60 bytes in DMA memory. -/
def txFrame60 (addr : ℕ) : Pbuf where
  addr := addr
  payload := 0x2007C000
  len := 60
  totLen := 60

/-- All registers and fields 0. -/
def txDrvZero : TxDrv where
  txDescriptorNumber := 0
  txProduceIndex := 0
  txConsumeIndex := 0
  ptxd := fun _ => ⟨0, 0⟩
  ptxs := fun _ => 0
  txb := fun _ => none
  lasttxidx := 0
  xtxCountSem := emacNumTxFrag
  mem := fun _ => 0
  taken := []
  freed := []

/-- Three frames sent while the hardware consumes none: the third is let
through and moves `TxProduceIndex` round onto `TxConsumeIndex`. -/
theorem tx_unsafe_third_frame :
    ¬ Along txStep TxSafe (.start txDrvZero)
        [.call (txFrame60 1) [] none, .poll, .call (txFrame60 2) [] none, .poll,
          .call (txFrame60 3) [] none, .poll] ∧
    ¬ Along txStep TxRoom (.start txDrvZero)
        [.call (txFrame60 1) [] none, .poll, .call (txFrame60 2) [] none, .poll,
          .call (txFrame60 3) [] none, .poll] := by
  decide +kernel

end Lpc1768
