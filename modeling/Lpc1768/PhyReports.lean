/-
Lpc1768/PhyReports.lean

What `lpcPHYStsPoll` reports over a whole sequence of polls, each of which may
find the MDIO bus timed out.

The change flag is cleared when a new status read is started, which needs the
read of `BMSR` to go through.  A change is therefore reported by the poll that
finds it and again by every time-out of the read that follows
(`PhyInv.reports_eq`), so that there is one report per change iff no such read
times out (`one_report_per_change_iff`).

The second register of a status read is read without a check: after a time-out
the update decodes -1, which shows 10 Mbit/s full duplex.  The link reported is
one that was read iff that happens to have been read too
(`reports_read_iff`).
-/
import Mathlib.Data.List.ReduceOption
import Lpc1768.PhyStatus
import Lpc1768.Transition

namespace Lpc1768

/-! ### The polls -/

/-- The link that `lpc_phy_init` leaves. -/
def noLink : Link := ⟨false, false, false⟩

/-- The driver with what happened since `lpc_phy_init`, newest first: the
outcomes of the reads of `BMSR` and of `DP83848_PHYSTS_REG`, the links of the
completed updates, and the statuses returned. -/
structure PhySys where
  drv : PhyDriver
  bmsr : List (Option (BitVec 32))
  phySts : List (Option (BitVec 32))
  updates : List Link
  statuses : List (BitVec 32)

def PhySys.start (written : Bool) (bmcr : ℕ → Option (BitVec 32)) (s : PhyDriver) : PhySys where
  drv := (lpcPhyInit written bmcr s).1
  bmsr := []
  phySts := []
  updates := []
  statuses := []

/-- One poll; the register that it reads goes by the state of the machine. -/
def PhySys.poll (s : PhySys) (mrdd : Option (BitVec 32)) : PhySys :=
  let r := lpcPHYStsPoll mrdd s.drv
  { drv := r.1
    bmsr := if s.drv.phyustate = 1 ∨ s.drv.phyustate = 2 then s.bmsr else mrdd :: s.bmsr
    phySts := if s.drv.phyustate = 1 then mrdd :: s.phySts else s.phySts
    updates := if s.drv.phyustate = 2 then linkOf r.2 :: s.updates else s.updates
    statuses := r.2 :: s.statuses }

def PhySys.polls (s : PhySys) (reads : List (Option (BitVec 32))) : PhySys :=
  reads.foldl PhySys.poll s

def phyStep (s : PhySys) (mrdd : Option (BitVec 32)) : Option PhySys := some (s.poll mrdd)

/-! ### The change reports -/

/-- The polls whose status has the change flag. -/
def PhySys.reports (s : PhySys) : ℕ := s.statuses.countP fun p => Changed p

/-- How often a link differs from the one before it, the first from that of
`lpc_phy_init`. -/
def changes : List Link → ℕ
  | [] => 0
  | l :: ls => changes ls + if l ≠ ls.head?.getD noLink then 1 else 0

/-- One report per change. -/
def PhySys.OneReportPerChange (s : PhySys) : Prop := s.reports = changes s.updates

/-- The read of `BMSR` times out while a change is still flagged. -/
def RepeatsChange (s : PhySys) (mrdd : Option (BitVec 32)) : Prop :=
  s.drv.phyustate = 0 ∧ Changed s.drv.physts ∧ readphy mrdd = BitVec.ofInt 32 errMem

instance (s : PhySys) (mrdd : Option (BitVec 32)) : Decidable (RepeatsChange s mrdd) := by
  unfold RepeatsChange; infer_instance

/-! ### The link reported -/

/-- `physts`, which the polls return, is as `lpc_phy_init` left it, as long as no
update is completed, or shows the link in values of the two registers that were
read. -/
def ShowsRead (s : PhySys) : Prop :=
  (s.updates = [] ∧ linkOf s.drv.physts = noLink) ∨
    ∃ v w, some v ∈ s.bmsr ∧ some w ∈ s.phySts ∧
      linkOf s.drv.physts = linkShown (v.setWidth 16) (w.setWidth 16)

def ReportsRead (_ : PhySys) (_ : Option (BitVec 32)) (t : PhySys) : Prop := ShowsRead t

/-- A poll that completes an update reports the link in the values of the two
registers that were read last. -/
def UpdatesFromLast (s : PhySys) (_ : Option (BitVec 32)) (t : PhySys) : Prop :=
  s.drv.phyustate = 2 → ∃ v w, s.bmsr.reduceOption.head? = some v ∧
    s.phySts.reduceOption.head? = some w ∧
    linkOf t.drv.physts = linkShown (v.setWidth 16) (w.setWidth 16)

/-- A register value that shows what a time-out is decoded as. -/
def Shows10F (w : BitVec 32) : Prop := w.setWidth 16 &&& lan8Speedmask = lan8Speed10F

/-- If this poll completes an update whose second read timed out, then 10 Mbit/s
full duplex has been read before. -/
def TimeoutSeen (s : PhySys) (_ : Option (BitVec 32)) (_ : PhySys) : Prop :=
  s.drv.phyustate = 2 → s.phySts.head? = some none → ∃ w, some w ∈ s.phySts ∧ Shows10F w

/-- The same, of the value read last. -/
def TimeoutSeenLast (s : PhySys) (_ : Option (BitVec 32)) (_ : PhySys) : Prop :=
  s.drv.phyustate = 2 → s.phySts.head? = some none →
    ∃ w, s.phySts.reduceOption.head? = some w ∧ Shows10F w

/-! ### One poll -/

/-- **What one poll does.**  A time-out of the first read leaves everything as it
was; a first read starts a status read and clears the change flag; the second
read is taken as it is; the update reports the link in what was read. -/
theorem poll_cases {s : PhySys} (h : s.drv.phyustate = 0 ∨ s.drv.phyustate = 1 ∨
    s.drv.phyustate = 2) (mrdd : Option (BitVec 32)) :
    (s.drv.phyustate = 0 ∧ readphy mrdd = BitVec.ofInt 32 errMem ∧
      s.poll mrdd = { s with
        drv := { s.drv with sts := readphy mrdd }
        bmsr := mrdd :: s.bmsr
        statuses := s.drv.physts :: s.statuses }) ∨
    (∃ v physts, s.drv.phyustate = 0 ∧ mrdd = some v ∧ ¬ Changed physts ∧
      linkOf physts = linkOf s.drv.physts ∧
      s.poll mrdd = { s with
        drv := { s.drv with physts := physts, phyustate := 1, sts := v }
        bmsr := some v :: s.bmsr
        statuses := physts :: s.statuses }) ∨
    (s.drv.phyustate = 1 ∧
      s.poll mrdd = { s with
        drv := { s.drv with phyustate := 2, temp := readphy mrdd }
        phySts := mrdd :: s.phySts
        statuses := s.drv.physts :: s.statuses }) ∨
    (∃ drv, s.drv.phyustate = 2 ∧ drv.phyustate = 0 ∧ drv.Synced ∧
      linkOf drv.physts = linkShown (s.drv.sts.setWidth 16) (s.drv.temp.setWidth 16) ∧
      (Changed drv.physts ↔ linkOf drv.physts ≠ linkOf s.drv.olddphysts ∨
        Changed s.drv.physts) ∧
      s.poll mrdd = { s with
        drv := drv
        updates := linkOf drv.physts :: s.updates
        statuses := drv.physts :: s.statuses }) := by
  obtain ⟨⟨physts, olddphysts, phyustate, sts, temp⟩, bmsr, phySts, updates, statuses⟩ := s
  rcases h with h0 | h1 | h2
  · obtain rfl : phyustate = 0 := h0
    by_cases herr : readphy mrdd = BitVec.ofInt 32 errMem
    · refine .inl ⟨rfl, herr, ?_⟩
      simp [PhySys.poll, lpcPHYStsPoll, herr]
    · cases mrdd with
      | none => exact absurd rfl herr
      | some v =>
          refine .inr (.inl ⟨v, physts &&& ~~~phyLinkChanged ||| phyLinkBusy, rfl, rfl, ?_, ?_, ?_⟩)
          · simp [changed_iff, phyLinkChanged, phyLinkBusy]
          · rw [linkOf_or _ (by decide), linkOf_clear _ (by decide)]
          · have hv : v ≠ BitVec.ofInt 32 errMem := herr
            simp [PhySys.poll, lpcPHYStsPoll, readphy, hv]
  · obtain rfl : phyustate = 1 := h1
    exact .inr (.inr (.inl ⟨rfl, rfl⟩))
  · obtain rfl : phyustate = 2 := h2
    obtain ⟨hlink, hsync, hch⟩ := lpcPHYStsPoll_update (s := ⟨physts, olddphysts, 2, sts, temp⟩)
      rfl mrdd
    rw [← hlink] at hch
    exact .inr (.inr (.inr ⟨_, rfl, rfl, hsync, hlink, hch, rfl⟩))

/-- The driver remembers the link of the last update.  From the first read on,
`sts` is what was read last and no change is flagged; `temp` is the outcome of
the second read. -/
structure PhyInv (s : PhySys) : Prop where
  state : s.drv.phyustate = 0 ∨ s.drv.phyustate = 1 ∨ s.drv.phyustate = 2
  sync : s.drv.Synced
  link : linkOf s.drv.physts = s.updates.head?.getD noLink
  quiet : s.drv.phyustate ≠ 0 → ¬ Changed s.drv.physts
  sts : s.drv.phyustate ≠ 0 → s.bmsr.head? = some (some s.drv.sts)
  temp : s.drv.phyustate = 2 → ∃ r, s.phySts.head? = some r ∧ s.drv.temp = readphy r

theorem phyInv_start (written : Bool) (bmcr : ℕ → Option (BitVec 32)) (s : PhyDriver) :
    PhyInv (.start written bmcr s) where
  state := .inl rfl
  sync := (lpcPhyInit_synced written bmcr s).1
  link := (lpcPhyInit_synced written bmcr s).2
  quiet := fun h => absurd rfl h
  sts := fun h => absurd rfl h
  temp := fun h => nomatch h

theorem PhyInv.poll {s : PhySys} (h : PhyInv s) (mrdd : Option (BitVec 32)) :
    PhyInv (s.poll mrdd) := by
  rcases poll_cases h.state mrdd with ⟨h0, -, ht⟩ | ⟨v, physts, h0, -, hquiet, hlink, ht⟩ |
    ⟨h1, ht⟩ | ⟨drv, h2, h0, hsync, -, -, ht⟩
  · rw [ht]
    exact ⟨.inl h0, h.sync, h.link, fun hne => absurd h0 hne, fun hne => absurd h0 hne,
      fun h2 => by rw [h0] at h2; cases h2⟩
  · rw [ht]
    exact ⟨.inr (.inl rfl), h.sync.trans hlink.symm, hlink.trans h.link, fun _ => hquiet,
      fun _ => rfl, fun h2 => nomatch h2⟩
  · have hne : s.drv.phyustate ≠ 0 := by rw [h1]; decide
    rw [ht]
    exact ⟨.inr (.inr rfl), h.sync, h.link, fun _ => h.quiet hne, fun _ => h.sts hne,
      fun _ => ⟨mrdd, rfl, rfl⟩⟩
  · rw [ht]
    exact ⟨.inl h0, hsync, rfl, fun hne => absurd h0 hne, fun hne => absurd h0 hne,
      fun h2 => by rw [h0] at h2; cases h2⟩

/-! ### Counting the reports -/

theorem reports_cons (s : PhySys) (p : BitVec 32) :
    PhySys.reports { s with statuses := p :: s.statuses } =
      s.reports + if Changed p then 1 else 0 := by
  simp [PhySys.reports, List.countP_cons]

/-- A poll adds as many reports as changes, and one more if it repeats one. -/
theorem PhyInv.count {s : PhySys} (h : PhyInv s) (mrdd : Option (BitVec 32)) {n : ℕ}
    (hn : s.reports = changes s.updates + n) :
    (s.poll mrdd).reports =
      changes (s.poll mrdd).updates + if RepeatsChange s mrdd then n + 1 else n := by
  rcases poll_cases h.state mrdd with ⟨h0, herr, ht⟩ | ⟨v, physts, h0, rfl, hquiet, -, ht⟩ |
    ⟨h1, ht⟩ | ⟨drv, h2, -, -, -, hch, ht⟩
  · rw [ht]
    show PhySys.reports { s with statuses := s.drv.physts :: s.statuses } = changes s.updates + _
    rw [reports_cons, hn]
    by_cases hc : Changed s.drv.physts
    · rw [if_pos hc, if_pos ⟨h0, hc, herr⟩, Nat.add_assoc]
    · rw [if_neg hc, if_neg fun hr => hc hr.2.1, Nat.add_zero]
  · rw [ht]
    show PhySys.reports { s with statuses := physts :: s.statuses } = changes s.updates + _
    have hno : ¬ RepeatsChange s (some v) := by
      rintro ⟨-, hc, herr⟩
      have hstart := congrArg (fun t => t.drv.phyustate) ht
      have herr : v = BitVec.ofInt 32 errMem := herr
      simp [PhySys.poll, lpcPHYStsPoll, h0, readphy, herr] at hstart
    rw [reports_cons, hn, if_neg hquiet, if_neg hno, Nat.add_zero]
  · rw [ht]
    show PhySys.reports { s with statuses := s.drv.physts :: s.statuses } = changes s.updates + _
    have hne : s.drv.phyustate ≠ 0 := by rw [h1]; decide
    rw [reports_cons, hn, if_neg (h.quiet hne), if_neg fun hr => hne hr.1, Nat.add_zero]
  · rw [ht]
    show PhySys.reports { s with statuses := drv.physts :: s.statuses } =
      changes (linkOf drv.physts :: s.updates) + _
    have hne : s.drv.phyustate ≠ 0 := by rw [h2]; decide
    -- the update flags a change iff the link is not the one remembered
    rw [or_iff_left (h.quiet hne), h.sync, h.link] at hch
    rw [reports_cons, hn, changes, if_congr hch rfl rfl]
    rw [if_neg fun hr : RepeatsChange s mrdd => hne hr.1]
    omega

/-- Reports that are too many stay so. -/
theorem PhyInv.count_polls {s : PhySys} (h : PhyInv s) (reads : List (Option (BitVec 32))) {n : ℕ}
    (hn : s.reports = changes s.updates + n) :
    changes (s.polls reads).updates + n ≤ (s.polls reads).reports ∧
      ((s.polls reads).reports = changes (s.polls reads).updates + n ↔
        Along phyStep (fun s mrdd _ => ¬ RepeatsChange s mrdd) s reads) := by
  induction reads generalizing s n with
  | nil => exact ⟨Nat.le_of_eq hn.symm, iff_of_true hn trivial⟩
  | cons mrdd reads ih =>
      have hstep := h.count mrdd hn
      rw [along_cons_of_some rfl]
      show changes ((s.poll mrdd).polls reads).updates + n ≤ ((s.poll mrdd).polls reads).reports ∧
        (((s.poll mrdd).polls reads).reports = changes ((s.poll mrdd).polls reads).updates + n ↔ _)
      by_cases hr : RepeatsChange s mrdd
      · rw [if_pos hr] at hstep
        obtain ⟨hle, -⟩ := ih (h.poll mrdd) hstep
        exact ⟨by omega, iff_of_false (by omega) fun hc => hc.1 hr⟩
      · rw [if_neg hr] at hstep
        obtain ⟨hle, hiff⟩ := ih (h.poll mrdd) hstep
        exact ⟨hle, hiff.trans (and_iff_right hr).symm⟩

/-- **One report per change** exactly in the runs in which no read of `BMSR` times
out while a change is still flagged. -/
theorem one_report_per_change_iff (written : Bool) (bmcr : ℕ → Option (BitVec 32))
    (s : PhyDriver) (reads : List (Option (BitVec 32))) :
    ((PhySys.start written bmcr s).polls reads).OneReportPerChange ↔
      Along phyStep (fun s mrdd _ => ¬ RepeatsChange s mrdd) (.start written bmcr s) reads :=
  ((phyInv_start written bmcr s).count_polls reads (n := 0) rfl).2

/-- A PHY driver before `lpc_phy_init`. -/
def phyDriverZero : PhyDriver := ⟨0, 0, 0, 0, 0⟩

/-- The link comes up with 100 Mbit/s full duplex, and the next read of `BMSR`
times out: the change is reported twice. -/
theorem change_reported_twice :
    ¬ ((PhySys.start true (fun _ => some 0) phyDriverZero).polls
      [some 0x4, some 0x4, none, none]).OneReportPerChange := by
  unfold PhySys.OneReportPerChange
  decide

/-! ### The values reported -/

theorem shows10F_iff (a : BitVec 16) (w : BitVec 32) :
    Shows10F w ↔ (linkShown a (w.setWidth 16)).speed100 = false ∧
      (linkShown a (w.setWidth 16)).fullDuplex = true := by
  have hH : lan8Speed10F ≠ lan8Speed100H := by decide
  have hT : lan8Speed10F ≠ lan8Speed10H := by decide
  simp only [Shows10F, linkShown, decide_eq_false_iff_not, decide_eq_true_eq]
  constructor
  · intro h
    rw [h]
    exact ⟨fun hne => hne.1 rfl, hH, hT⟩
  · rintro ⟨hspeed, -, hne⟩
    by_contra hF
    exact hspeed ⟨hF, hne⟩

/-- What a time-out is decoded as. -/
theorem shows10F_timeout : Shows10F (readphy none) :=
  show (readphy none).setWidth 16 &&& lan8Speedmask = lan8Speed10F by decide

theorem linkShown_connected (linksts x y : BitVec 16) :
    (linkShown linksts x).connected = (linkShown linksts y).connected := rfl

/-- A value shows the speed and duplex of a time-out iff it shows 10 Mbit/s full
duplex. -/
theorem linkShown_timeout_iff (a b : BitVec 16) (w : BitVec 32) :
    (linkShown a ((readphy none).setWidth 16) = linkShown b (w.setWidth 16) → Shows10F w) ∧
      (Shows10F w → linkShown a ((readphy none).setWidth 16) = linkShown a (w.setWidth 16)) := by
  obtain ⟨hspeed, hduplex⟩ := (shows10F_iff a (readphy none)).mp shows10F_timeout
  constructor
  · intro he
    rw [he] at hspeed hduplex
    exact (shows10F_iff b w).mpr ⟨hspeed, hduplex⟩
  · intro hw
    obtain ⟨hspeed', hduplex'⟩ := (shows10F_iff a w).mp hw
    ext
    · rw [linkShown_connected]
    · rw [hspeed, hspeed']
    · rw [hduplex, hduplex']

/-- A poll that completes no update keeps the link and what was read. -/
theorem PhyInv.poll_idle {s : PhySys} (h : PhyInv s) (mrdd : Option (BitVec 32))
    (hne : s.drv.phyustate ≠ 2) :
    linkOf (s.poll mrdd).drv.physts = linkOf s.drv.physts ∧ (s.poll mrdd).updates = s.updates ∧
      s.bmsr ⊆ (s.poll mrdd).bmsr ∧ s.phySts ⊆ (s.poll mrdd).phySts := by
  rcases poll_cases h.state mrdd with ⟨-, -, ht⟩ | ⟨v, physts, -, -, -, hlink, ht⟩ |
    ⟨-, ht⟩ | ⟨drv, h2, -⟩
  · rw [ht]
    exact ⟨rfl, rfl, List.subset_cons_self _ _, List.Subset.refl _⟩
  · rw [ht]
    exact ⟨hlink, rfl, List.subset_cons_self _ _, List.Subset.refl _⟩
  · rw [ht]
    exact ⟨rfl, rfl, List.Subset.refl _, List.subset_cons_self _ _⟩
  · exact absurd h2 hne

/-- A poll that completes an update, of the value of `BMSR` read last and of the
outcome of the second read. -/
theorem PhyInv.poll_update {s : PhySys} (h : PhyInv s) (mrdd : Option (BitVec 32))
    (h2 : s.drv.phyustate = 2) :
    ∃ v vs r rs, s.bmsr = some v :: vs ∧ s.phySts = r :: rs ∧
      linkOf (s.poll mrdd).drv.physts =
        linkShown (v.setWidth 16) ((readphy r).setWidth 16) ∧
      (s.poll mrdd).updates ≠ [] ∧ (s.poll mrdd).bmsr = s.bmsr ∧
      (s.poll mrdd).phySts = s.phySts := by
  have hne : s.drv.phyustate ≠ 0 := by rw [h2]; decide
  obtain ⟨r, hr, htemp⟩ := h.temp h2
  obtain ⟨vs, hvs⟩ := List.head?_eq_some_iff.mp (h.sts hne)
  obtain ⟨rs, hrs⟩ := List.head?_eq_some_iff.mp hr
  rcases poll_cases h.state mrdd with ⟨h0, -⟩ | ⟨v, physts, h0, -⟩ | ⟨h1, -⟩ |
    ⟨drv, -, -, -, hlink, -, ht⟩
  · exact absurd h0 hne
  · exact absurd h0 hne
  · rw [h2] at h1
    cases h1
  · refine ⟨s.drv.sts, vs, r, rs, hvs, hrs, ?_⟩
    rw [ht, ← htemp]
    exact ⟨hlink, List.cons_ne_nil _ _, rfl, rfl⟩

theorem PhyInv.reportsRead_iff {s : PhySys} (h : PhyInv s) (hread : ShowsRead s)
    (mrdd : Option (BitVec 32)) :
    ReportsRead s mrdd (s.poll mrdd) ↔ TimeoutSeen s mrdd (s.poll mrdd) := by
  by_cases h2 : s.drv.phyustate = 2
  · obtain ⟨v, vs, r, rs, hbmsr, hphy, hlink, hupd, hb, hp⟩ := h.poll_update mrdd h2
    rw [ReportsRead, ShowsRead, or_iff_right fun hnone => hupd hnone.1, hlink, hb, hp,
      TimeoutSeen, hphy, List.head?_cons]
    cases r with
    | some w =>
        refine iff_of_true ⟨v, w, ?_, List.mem_cons_self, rfl⟩ fun _ he => nomatch he
        rw [hbmsr]
        exact List.mem_cons_self
    | none =>
        constructor
        · rintro ⟨v', w, -, hw, he⟩ - -
          exact ⟨w, hw, (linkShown_timeout_iff _ _ w).1 he⟩
        · intro hseen
          obtain ⟨w, hw, hshow⟩ := hseen h2 rfl
          refine ⟨v, w, ?_, hw, (linkShown_timeout_iff _ 0 w).2 hshow⟩
          rw [hbmsr]
          exact List.mem_cons_self
  · obtain ⟨hlink, hupd, hb, hp⟩ := h.poll_idle mrdd h2
    refine iff_of_true ?_ fun he => absurd he h2
    rw [ReportsRead, ShowsRead, hlink, hupd]
    exact hread.imp id fun ⟨v, w, hv, hw, he⟩ => ⟨v, w, hb hv, hp hw, he⟩

theorem PhyInv.updatesFromLast_iff {s : PhySys} (h : PhyInv s) (mrdd : Option (BitVec 32)) :
    UpdatesFromLast s mrdd (s.poll mrdd) ↔ TimeoutSeenLast s mrdd (s.poll mrdd) := by
  refine imp_congr_right fun h2 => ?_
  obtain ⟨v, vs, r, rs, hbmsr, hphy, hlink, -⟩ := h.poll_update mrdd h2
  have hv : s.bmsr.reduceOption.head? = some v := by
    rw [hbmsr, List.reduceOption_cons_of_some, List.head?_cons]
  rw [hv, hlink, hphy, List.head?_cons]
  cases r with
  | some w =>
      rw [List.reduceOption_cons_of_some, List.head?_cons]
      exact iff_of_true ⟨v, w, rfl, rfl, rfl⟩ fun he => nomatch he
  | none =>
      constructor
      · rintro ⟨v', w, -, hw, he⟩ -
        exact ⟨w, hw, (linkShown_timeout_iff _ _ w).1 he⟩
      · intro hseen
        obtain ⟨w, hw, hshow⟩ := hseen rfl
        exact ⟨v, w, rfl, hw, (linkShown_timeout_iff _ 0 w).2 hshow⟩

/-- **The link reported has been read** exactly in the runs in which no time-out of
the second register is decoded before 10 Mbit/s full duplex was read there; it
is the one read last exactly if that was read last. -/
theorem reports_read_iff (written : Bool) (bmcr : ℕ → Option (BitVec 32)) (s : PhyDriver)
    (reads : List (Option (BitVec 32))) :
    (Along phyStep ReportsRead (.start written bmcr s) reads ↔
        Along phyStep TimeoutSeen (.start written bmcr s) reads) ∧
      (Along phyStep UpdatesFromLast (.start written bmcr s) reads ↔
        Along phyStep TimeoutSeenLast (.start written bmcr s) reads) := by
  have hstart := phyInv_start written bmcr s
  constructor
  · refine along_iff (I := fun s => PhyInv s ∧ ShowsRead s) ?_ ?_ ⟨hstart, .inl ⟨rfl, hstart.link⟩⟩
    · rintro s mrdd t ⟨h, hread⟩ ht
      obtain rfl := Option.some.inj ht
      exact h.reportsRead_iff hread mrdd
    · rintro s mrdd t ⟨h, hread⟩ ht hC
      obtain rfl := Option.some.inj ht
      exact ⟨h.poll mrdd, (h.reportsRead_iff hread mrdd).mpr hC⟩
  · refine along_iff (I := PhyInv) ?_ ?_ hstart
    · intro s mrdd t h ht
      obtain rfl := Option.some.inj ht
      exact h.updatesFromLast_iff mrdd
    · intro s mrdd t h ht _
      obtain rfl := Option.some.inj ht
      exact h.poll mrdd

/-- The second read of the first status read times out: a 100 Mbit/s link is
reported as 10 Mbit/s full duplex, and that register has never been read. -/
theorem timeout_reported_10F :
    ¬ Along phyStep ReportsRead (.start true (fun _ => some 0) phyDriverZero)
        [some 0x4, none, none] ∧
      ¬ Along phyStep UpdatesFromLast (.start true (fun _ => some 0) phyDriverZero)
        [some 0x4, none, none] := by
  refine ⟨fun h => ?_, fun h => ?_⟩
  · obtain ⟨-, -, hread, -⟩ := h
    rcases hread with ⟨hnil, -⟩ | ⟨v, w, -, hw, -⟩
    · cases hnil
    · cases List.mem_singleton.mp (show some w ∈ [none] from hw)
  · obtain ⟨-, -, hlast, -⟩ := h
    obtain ⟨v, w, -, hw, -⟩ := hlast rfl
    cases hw

end Lpc1768
