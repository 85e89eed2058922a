/-
Lpc1768/TxLifetime.lean

The lifetime of transmit buffers.  `lpc_low_level_output` takes a reference on
the pbuf it queues and saves it in `txb` at the frame's last descriptor;
`lpc_tx_reclaim` walks `lasttxidx` up to `TxConsumeIndex` and frees what it
finds there.

Output waits for descriptors that the hardware has consumed, not for those
that have been reclaimed.  So a descriptor whose pbuf is still to be freed can
be written again, and `TxConsumeIndex` can come round to `lasttxidx`, where
`lpc_tx_reclaim` sees nothing to do.  As long as neither happens
(`ReclaimsInTime`), the slots from `lasttxidx` on hold the consumed and then
the pending descriptors, and the references taken are, in order, those freed,
those still to be reclaimed, those pending and the one held by a waiting call
(`LifeInv.ledger`).  `tx_lifetime_of_reclaimed` draws the conclusion for runs.
-/
import Mathlib.Data.List.Perm.Subperm
import Lpc1768.TxSafety

namespace Lpc1768

/-! ### The property and the conditions -/

/-- Each `pbuf_free` releases one of the references taken, and none before the
hardware has consumed the last descriptor of its frame; when `lpc_tx_reclaim`
has run and nothing is queued, every reference taken is released, but for the
bounce buffer of a frame that is not queued yet. -/
def TxLifetime (_ : TxSys) (a : TxAct) (t : TxSys) : Prop :=
  t.drv.freed.Subperm t.completed ∧ t.completed.Subperm t.drv.taken ∧
    (a = .reclaim → t.pending = [] → (t.drv.freed ++ heldBy t.job).Perm t.drv.taken)

instance (s : TxSys) (a : TxAct) (t : TxSys) : Decidable (TxLifetime s a t) := by
  unfold TxLifetime; infer_instance

/-- Every output call really finds enough free descriptors. -/
def FindsRoom (s : TxSys) (a : TxAct) (_ : TxSys) : Prop :=
  ∀ j ∈ s.passes a, s.pending.length + j.q.length ≤ emacNumTxFrag - 1

instance (s : TxSys) (a : TxAct) (t : TxSys) : Decidable (FindsRoom s a t) := by
  unfold FindsRoom; infer_instance

/-- How far `lasttxidx` is behind `TxConsumeIndex`. -/
def TxSys.unreclaimed (s : TxSys) : ℕ :=
  (s.drv.txConsumeIndex + emacNumTxFrag - s.drv.lasttxidx) % emacNumTxFrag

/-- No descriptor is written before it is reclaimed, and `TxConsumeIndex` does
not come round to `lasttxidx`. -/
def ReclaimsInTime (s : TxSys) (a : TxAct) (_ : TxSys) : Prop :=
  (∀ j ∈ s.passes a, s.unreclaimed + s.pending.length + j.q.length ≤ emacNumTxFrag) ∧
    (a = .complete → (s.drv.txConsumeIndex + 1) % emacNumTxFrag ≠ s.drv.lasttxidx)

instance (s : TxSys) (a : TxAct) (t : TxSys) : Decidable (ReclaimsInTime s a t) := by
  unfold ReclaimsInTime; infer_instance

/-! ### The queue loop -/

/-- A frame of `dn + 1` descriptors saves its pbuf once. -/
theorem queueLoop_saved (p dn : ℕ) (qs : List Pbuf) (idx : ℕ) (d : TxDrv)
    (h : dn + 1 ≤ qs.length) :
    (queueLoop p (dn + 1) qs idx d).2.filterMap Prod.snd = [p] := by
  induction dn generalizing qs idx d with
  | zero =>
      cases qs with
      | nil => simp at h
      | cons q qs => simp [queueLoop]
  | succ dn ih =>
      cases qs with
      | nil => simp at h
      | cons q qs =>
          rw [queueLoop, List.filterMap_cons_none (by simp)]
          exact ih qs _ _ (by simpa using h)

/-- Within the ring, the loop appends what it saves to the occupied slots. -/
theorem queueLoop_holds (p dn : ℕ) (qs : List Pbuf) (d : TxDrv) {lo : ℕ}
    {xs : List (Option ℕ)} (hnum : d.txDescriptorNumber = emacNumTxFrag - 1)
    (h : Holds emacNumTxFrag (Reads d.txb) lo xs) (hlap : xs.length + dn ≤ emacNumTxFrag) :
    Holds emacNumTxFrag (Reads (queueLoop p dn qs ((lo + xs.length) % emacNumTxFrag) d).1.txb) lo
      (xs ++ (queueLoop p dn qs ((lo + xs.length) % emacNumTxFrag) d).2.map Prod.snd) := by
  induction dn generalizing qs d xs with
  | zero => simpa [queueLoop] using h
  | succ dn ih =>
      cases qs with
      | nil => simpa [queueLoop] using h
      | cons q qs =>
          have hwrap : wrapInc d.txDescriptorNumber ((lo + xs.length) % emacNumTxFrag) =
              (lo + (xs ++ [if dn = 0 then some p else none]).length) % emacNumTxFrag := by
            rw [hnum, List.length_append, List.length_singleton, ← Nat.add_assoc]
            exact wrapInc_mod (by decide) (by decide) _
          simp only [queueLoop, hwrap, List.map_cons]
          rw [List.append_cons xs _ (List.map Prod.snd _)]
          refine ih qs _ hnum ?_ ?_
          · exact h.push_update (by omega)
          · rw [List.length_append, List.length_singleton]
            omega

/-! ### The reclaim loop -/

/-- **Reclaim.**  The consumed slots are freed in order and left empty, and
`lasttxidx` ends at `TxConsumeIndex`; a lap of fuel is enough. -/
theorem reclaimLoop_spec (ys : List (Option ℕ)) :
    ∀ (fuel : ℕ) (d : TxDrv) (lo : ℕ) (zs : List (Option ℕ)), ys.length ≤ fuel →
      ys.length < emacNumTxFrag → (ys ++ zs).length ≤ emacNumTxFrag →
      d.txDescriptorNumber = emacNumTxFrag - 1 → d.lasttxidx = lo % emacNumTxFrag →
      d.txConsumeIndex = (lo + ys.length) % emacNumTxFrag →
      Holds emacNumTxFrag (Reads d.txb) lo (ys ++ zs) →
      (reclaimLoop fuel d).freed = d.freed ++ ys.filterMap id ∧
      (reclaimLoop fuel d).lasttxidx = d.txConsumeIndex ∧
      Holds emacNumTxFrag (Reads (reclaimLoop fuel d).txb) (lo + ys.length) zs := by
  induction ys with
  | nil =>
      intro fuel d lo zs _ _ _ _ hlast hcons h
      have hdone : reclaimLoop fuel d = d := by
        cases fuel with
        | zero => rfl
        | succ fuel => rw [reclaimLoop, if_neg (by rw [hlast, hcons]; simp)]
      rw [hdone]
      exact ⟨by simp, by rw [hlast, hcons]; rfl, h⟩
  | cons y ys ih =>
      intro fuel d lo zs hfuel hlap htotal hnum hlast hcons h
      cases fuel with
      | zero => simp at hfuel
      | succ fuel =>
          simp only [List.length_cons, List.cons_append] at hfuel hlap htotal
          have hne : d.txConsumeIndex ≠ d.lasttxidx := by
            rw [hlast, hcons, List.length_cons]
            exact (slot_ne (by omega) (by omega)).symm
          have hhead : d.txb (lo % emacNumTxFrag) = y := h.head
          have hwrap : wrapInc d.txDescriptorNumber (lo % emacNumTxFrag) =
              (lo + 1) % emacNumTxFrag := by
            rw [hnum]
            exact wrapInc_mod (by decide) (by decide) lo
          rw [reclaimLoop, if_pos hne, hlast, hhead, hwrap]
          obtain ⟨hfreed, hend, hholds⟩ := ih fuel
            { d with
              freed := d.freed ++ y.toList
              txb := Function.update d.txb (lo % emacNumTxFrag) none
              xtxCountSem := semSignal d.xtxCountSem
              lasttxidx := (lo + 1) % emacNumTxFrag }
            (lo + 1) zs (by omega) (by omega) (by omega) hnum rfl
            (by rw [show lo + 1 + ys.length = lo + (y :: ys).length by simp; omega]; exact hcons)
            (h.tail.update fun i (hi : i < (ys ++ zs).length) =>
              (slot_ne (by omega) (by omega)).symm)
          refine ⟨?_, hend, ?_⟩
          · rw [hfreed]
            cases y <;> simp
          · rw [show lo + (y :: ys).length = lo + 1 + ys.length by simp; omega]
            exact hholds

/-! ### The invariant -/

/-- The slots from `lasttxidx` on hold the pbufs `ys` of the consumed
descriptors and then those of the pending ones, and each reference taken is
in exactly one place. -/
structure Ledger (s : TxSys) (ys : List (Option ℕ)) : Prop where
  lt : ys.length < emacNumTxFrag
  consume : s.drv.txConsumeIndex = (s.drv.lasttxidx + ys.length) % emacNumTxFrag
  lap : ys.length + s.pending.length ≤ emacNumTxFrag
  holds : Holds emacNumTxFrag (Reads s.drv.txb) s.drv.lasttxidx (ys ++ s.pending.map Prod.snd)
  completed : s.completed = s.drv.freed ++ ys.filterMap id
  taken : s.drv.taken = s.completed ++ s.pending.filterMap Prod.snd ++ heldBy s.job

structure LifeInv (s : TxSys) : Prop where
  tx : TxInv s
  last : s.drv.lasttxidx < emacNumTxFrag
  ledger : ∃ ys, Ledger s ys

theorem lifeInv_start (d : TxDrv) : LifeInv (.start d) where
  tx := txInv_start d
  last := by simp [TxSys.start, lpcTxSetup, emacNumTxFrag]
  ledger := ⟨[], by decide, rfl, by simp [TxSys.start], fun i hi => absurd hi (by simp [TxSys.start]),
    rfl, rfl⟩

/-- The ledger gives the property; after `lpc_tx_reclaim` no consumed
descriptor is left in it. -/
theorem Ledger.lifetime {s t : TxSys} {a : TxAct} {ys : List (Option ℕ)} (h : Ledger t ys)
    (hys : a = .reclaim → ys = []) : TxLifetime s a t := by
  refine ⟨?_, ?_, ?_⟩
  · rw [h.completed]
    exact (List.sublist_append_left _ _).subperm
  · rw [h.taken, List.append_assoc]
    exact (List.sublist_append_left _ _).subperm
  · intro ha hdrained
    have htaken : t.drv.taken = t.drv.freed ++ heldBy t.job := by
      rw [h.taken, h.completed, hys ha, hdrained]
      simp
    rw [htaken]

theorem Ledger.unreclaimed {s : TxSys} {ys : List (Option ℕ)} (h : Ledger s ys)
    (hlast : s.drv.lasttxidx < emacNumTxFrag) : s.unreclaimed = ys.length := by
  have hlt := h.lt
  have hcons := h.consume
  simp only [TxSys.unreclaimed, emacNumTxFrag] at hlt hcons hlast ⊢
  omega

/-! ### One step -/

/-- Queueing a frame for which there is room keeps the ledger, as long as its
slots are reclaimed. -/
theorem Ledger.queue {s : TxSys} {ys : List (Option ℕ)} (h : Ledger s ys) (htx : TxInv s)
    {j : TxJob} (hj : s.job = some j)
    (hroom : s.pending.length + j.q.length ≤ emacNumTxFrag - 1)
    (hlap : ys.length + s.pending.length + j.q.length ≤ emacNumTxFrag) :
    Ledger (s.queue j) ys := by
  obtain ⟨hne, hdn⟩ := htx.job j hj
  have hdn : j.dn = j.q.length := by
    simp only [emacNumTxFrag] at hroom
    rw [hdn, pbufClen_of_lt (by omega), u8_of_lt (by omega)]
  obtain ⟨n, hn⟩ := Nat.exists_eq_succ_of_ne_zero (mt List.length_eq_zero_iff.mp hne)
  have hprod : s.drv.txProduceIndex = (s.drv.lasttxidx +
      (ys ++ s.pending.map Prod.snd).length) % emacNumTxFrag := by
    rw [htx.produce, h.consume, Nat.mod_add_mod, List.length_append, List.length_map,
      Nat.add_assoc]
  have hqueue := htx.outputQueue_eq j
  rw [hprod] at hqueue
  have hholds := queueLoop_holds j.p.addr j.dn j.q
    (s.drv.ref j) htx.number h.holds (by rw [List.length_append, List.length_map]; omega)
  have hsaved := queueLoop_saved j.p.addr n j.q
    ((s.drv.lasttxidx + (ys ++ s.pending.map Prod.snd).length) % emacNumTxFrag)
    (s.drv.ref j) (by omega)
  rw [show n + 1 = j.dn by omega] at hsaved
  obtain ⟨ptxd, txb, prod, hframe⟩ := queueLoop_frame j.p.addr j.dn j.q
    ((s.drv.lasttxidx + (ys ++ s.pending.map Prod.snd).length) % emacNumTxFrag)
    (s.drv.ref j)
  rw [← hqueue] at hholds hsaved hframe
  refine ⟨h.lt, ?_, ?_, ?_, ?_, ?_⟩
  · show (outputQueue s.drv j).1.txConsumeIndex =
      ((outputQueue s.drv j).1.lasttxidx + ys.length) % emacNumTxFrag
    rw [hframe]
    exact h.consume
  · show ys.length + (s.pending ++ (outputQueue s.drv j).2).length ≤ emacNumTxFrag
    have hlen : (s.pending ++ (outputQueue s.drv j).2).length = s.pending.length + j.dn :=
      htx.length_queue hj
    omega
  · show Holds emacNumTxFrag (Reads (outputQueue s.drv j).1.txb) (outputQueue s.drv j).1.lasttxidx
      (ys ++ (s.pending ++ (outputQueue s.drv j).2).map Prod.snd)
    rw [List.map_append, ← List.append_assoc,
      show (outputQueue s.drv j).1.lasttxidx = s.drv.lasttxidx by rw [hframe]; rfl]
    exact hholds
  · show s.completed = (outputQueue s.drv j).1.freed ++ ys.filterMap id
    rw [hframe]
    exact h.completed
  · show (outputQueue s.drv j).1.taken = s.completed ++
      (s.pending ++ (outputQueue s.drv j).2).filterMap Prod.snd ++ []
    rw [List.filterMap_append, hsaved, hframe]
    simp only [TxDrv.ref, h.taken, hj, heldBy]
    split <;> simp

/-- A completion moves the oldest pending descriptor to the consumed ones. -/
theorem Ledger.complete {s : TxSys} {ys : List (Option ℕ)} (h : Ledger s ys) (htx : TxInv s)
    (hlast : s.drv.lasttxidx < emacNumTxFrag)
    (hne : s.drv.txConsumeIndex ≠ s.drv.txProduceIndex)
    (hin : (s.drv.txConsumeIndex + 1) % emacNumTxFrag ≠ s.drv.lasttxidx) :
    ∃ b, Ledger { s with
      drv := { s.drv with txConsumeIndex := (s.drv.txConsumeIndex + 1) % emacNumTxFrag }
      pending := s.pending.tail
      completed := s.completed ++ (s.pending.head?.bind Prod.snd).toList } (ys ++ [b]) := by
  rcases hpend : s.pending with - | ⟨⟨i, b⟩, rest⟩
  · have hp := htx.produce
    rw [hpend, List.length_nil, Nat.add_zero, Nat.mod_eq_of_lt htx.consume] at hp
    exact absurd hp.symm hne
  refine ⟨b, ?_⟩
  have hcons := h.consume
  have hlap := h.lap
  have hholds := h.holds
  rw [hpend] at hlap hholds
  rw [List.length_cons] at hlap
  have hmod : (s.drv.txConsumeIndex + 1) % emacNumTxFrag =
      (s.drv.lasttxidx + (ys.length + 1)) % emacNumTxFrag := by
    rw [hcons, Nat.mod_add_mod, Nat.add_assoc]
  refine ⟨?_, ?_, ?_, ?_, ?_, ?_⟩
  · rw [List.length_append, List.length_singleton]
    rcases Nat.lt_or_ge (ys.length + 1) emacNumTxFrag with hlt | hge
    · exact hlt
    · rw [hmod, show ys.length + 1 = emacNumTxFrag by omega, Nat.add_mod_right,
        Nat.mod_eq_of_lt hlast] at hin
      exact absurd rfl hin
  · rw [List.length_append, List.length_singleton]
    exact hmod
  · simp only [List.length_append, List.length_singleton, List.tail_cons]
    omega
  · rw [List.append_assoc]
    exact hholds
  · simp only [h.completed, List.head?_cons, Option.bind_some, List.append_assoc]
    cases b <;> simp
  · rw [h.taken, hpend]
    cases b <;> simp

/-- `lpc_tx_reclaim` empties the consumed part of the ledger. -/
theorem Ledger.reclaim {s : TxSys} {ys : List (Option ℕ)} (h : Ledger s ys) (htx : TxInv s)
    (hlast : s.drv.lasttxidx < emacNumTxFrag) :
    (lpcTxReclaim s.drv).lasttxidx = s.drv.txConsumeIndex ∧
    Ledger { s with drv := lpcTxReclaim s.drv } [] := by
  have hlt := h.lt
  have hlap := h.lap
  obtain ⟨hfreed, hend, hholds⟩ := reclaimLoop_spec ys (s.drv.txDescriptorNumber + 1) s.drv
    s.drv.lasttxidx (s.pending.map Prod.snd)
    (by rw [htx.number]; simp only [emacNumTxFrag] at hlt ⊢; omega) h.lt
    (by rw [List.length_append, List.length_map]; omega) htx.number
    (Nat.mod_eq_of_lt hlast).symm h.consume h.holds
  obtain ⟨freed, txb, sem, last, hframe⟩ := reclaimLoop_frame
    (s.drv.txDescriptorNumber + 1) s.drv
  change (lpcTxReclaim s.drv).lasttxidx = _ at hend
  change (lpcTxReclaim s.drv).freed = _ at hfreed
  change Holds _ (Reads (lpcTxReclaim s.drv).txb) _ _ at hholds
  change lpcTxReclaim s.drv = _ at hframe
  have hcons : (lpcTxReclaim s.drv).txConsumeIndex = s.drv.txConsumeIndex := by rw [hframe]
  refine ⟨hend, by decide, ?_, ?_, ?_, ?_, ?_⟩
  · show (lpcTxReclaim s.drv).txConsumeIndex =
      ((lpcTxReclaim s.drv).lasttxidx + 0) % emacNumTxFrag
    rw [hcons, hend]
    exact (Nat.mod_eq_of_lt htx.consume).symm
  · exact Nat.le_trans (Nat.add_le_add_right (Nat.zero_le _) _) hlap
  · show Holds emacNumTxFrag (Reads (lpcTxReclaim s.drv).txb) (lpcTxReclaim s.drv).lasttxidx
      ([] ++ s.pending.map Prod.snd)
    rw [hend, h.consume, List.nil_append]
    exact hholds.of_mod
  · show s.completed = (lpcTxReclaim s.drv).freed ++ []
    rw [hfreed, List.append_nil]
    exact h.completed
  · show (lpcTxReclaim s.drv).taken = _
    rw [hframe]
    exact h.taken

theorem LifeInv.step {s t : TxSys} {a : TxAct} (h : LifeInv s) (hstep : txStep s a = some t)
    (hroom : FindsRoom s a t) (htime : ReclaimsInTime s a t) :
    LifeInv t ∧ TxLifetime s a t := by
  obtain ⟨ys, hys⟩ := h.ledger
  have htx : TxInv t := h.tx.step hstep fun j hj => by
    have hdn := h.tx.dn_le (mem_passes.mp hj).2.1
    have := hroom j hj
    omega
  have hlast := h.last
  rcases txStep_cases hstep with ⟨p, next, heap, rfl, hjob, rfl⟩ | ⟨rfl, -, rfl⟩ |
    ⟨j, rfl, hj, hp, rfl⟩ | ⟨rfl, hne, rfl⟩ | ⟨rfl, rfl⟩
  · obtain ⟨mem, hd⟩ := outputPrepare_frame s.drv p next heap
    have hledger : Ledger { s with
        drv := (outputPrepare s.drv p next heap).1
        job := (outputPrepare s.drv p next heap).2 } ys := by
      rw [hd]
      refine ⟨hys.lt, hys.consume, hys.lap, hys.holds, hys.completed, ?_⟩
      show s.drv.taken ++ _ = _
      rw [hys.taken, hjob]
      simp [heldBy]
    refine ⟨⟨htx, ?_, ys, hledger⟩, hledger.lifetime (by rintro ⟨⟩)⟩
    show (outputPrepare s.drv p next heap).1.lasttxidx < emacNumTxFrag
    rw [hd]
    exact hlast
  · have hledger : Ledger { s with
        drv := { s.drv with xtxCountSem := s.drv.xtxCountSem - 1 } } ys :=
      ⟨hys.lt, hys.consume, hys.lap, hys.holds, hys.completed, hys.taken⟩
    exact ⟨⟨htx, hlast, ys, hledger⟩, hledger.lifetime (by rintro ⟨⟩)⟩
  · have hlap := htime.1 j hp
    rw [hys.unreclaimed hlast] at hlap
    have hledger := hys.queue h.tx hj (hroom j hp) hlap
    refine ⟨⟨htx, ?_, ys, hledger⟩, hledger.lifetime (by rintro ⟨⟩)⟩
    obtain ⟨ptxd, txb, prod, hframe⟩ := queueLoop_frame j.p.addr j.dn j.q
      (u8 s.drv.txProduceIndex) (s.drv.ref j)
    show (outputQueue s.drv j).1.lasttxidx < emacNumTxFrag
    rw [outputQueue, hframe]
    exact hlast
  · obtain ⟨b, hledger⟩ := hys.complete h.tx hlast hne (htime.2 rfl)
    exact ⟨⟨htx, hlast, _, hledger⟩, hledger.lifetime (by rintro ⟨⟩)⟩
  · obtain ⟨hend, hledger⟩ := hys.reclaim h.tx hlast
    refine ⟨⟨htx, ?_, [], hledger⟩, hledger.lifetime (fun _ => rfl)⟩
    show (lpcTxReclaim s.drv).lasttxidx < emacNumTxFrag
    rw [hend]
    exact h.tx.consume

/-! ### Runs -/

/-- **Every reference is released exactly once and not too early, as long as
descriptors are reclaimed in time.** -/
theorem tx_lifetime_of_reclaimed (d : TxDrv) (acts : List TxAct)
    (hroom : Along txStep FindsRoom (.start d) acts)
    (htime : Along txStep ReclaimsInTime (.start d) acts) :
    Along txStep TxLifetime (.start d) acts :=
  Along.of_invariant
    (fun _ _ _ hI hstep hC => (hI.step hstep hC.1 hC.2).symm)
    (lifeInv_start d) (along_and.mpr ⟨hroom, htime⟩)

/-- Output of one frame and its completion. -/
def sendOne (addr : ℕ) : List TxAct :=
  [.call (txFrame60 addr) [] none, .poll, .complete]

/-- Two frames, reclaimed, and two more. -/
theorem tx_lifetime_four_frames :
    Along txStep TxLifetime (.start txDrvZero)
      (sendOne 1 ++ sendOne 2 ++ [.reclaim] ++ sendOne 3 ++ sendOne 4 ++ [.reclaim]) :=
  tx_lifetime_of_reclaimed _ _ (by decide +kernel) (by decide +kernel)

/-- Three frames, each sent when nothing else is queued, and then reclaimed:
none of them is freed. -/
theorem tx_lifetime_full_lap :
    Along txStep FindsRoom (.start txDrvZero)
        (sendOne 1 ++ sendOne 2 ++ sendOne 3 ++ [.reclaim]) ∧
      ¬ Along txStep TxLifetime (.start txDrvZero)
        (sendOne 1 ++ sendOne 2 ++ sendOne 3 ++ [.reclaim]) := by
  decide +kernel

end Lpc1768
