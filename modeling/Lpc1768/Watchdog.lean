/-
Lpc1768/Watchdog.lean

The watchdog.  `vEthernetDaemon` checks in at the end of each round of its loop by
setting a bit of an event group; `vWDTFeed` waits for it, with clear-on-exit and a
time-out, and feeds the watchdog when it has got the bit.

The bit is cleared by whoever lets the wait end: by `xEventGroupWaitBits` itself
if the bit is there already, by `xEventGroupSetBits` if the task is blocked, and by
the task when the bit came between its time-out and its resumption.  A check-in
is therefore in one place at a time: in the group, or with the task.  These two
places are the credit of a state (`WdtSys.credit`), each feed takes from it, and
only a check-in adds to it (`wdt_credit`).
-/
import Lpc1768.Credit
import Lpc1768.EventGroup
import Lpc1768.PhyStatus

namespace Lpc1768

/-! ### The system -/

def netMainBit : BitVec 32 := 1 <<< 0
def taskBitAll : BitVec 32 := netMainBit

def wdtSecond : ℕ := 2
def wdtTicks : ℕ := wdtSecond * 1000 + 500
def portTickPeriodMs : ℕ := 1000 / 1000

/-- The tasks that wait on `xEventGroup`. -/
inductive WdtTask
  | vWDTFeed
  deriving DecidableEq, Repr

/-- Where `vWDTFeed` is. -/
inductive FeedPc
  | waitBits
  /-- on the list of the event group -/
  | blocked
  /-- off the list, with this value in its event list item -/
  | resume (item : BitVec 32)
  /-- `xEventGroupWaitBits` has returned -/
  | check (uxBits : BitVec 32)
  deriving DecidableEq, Repr

/-- Where `vEthernetDaemon` is. -/
inductive RoundPc
  /-- before the loop -/
  | start
  | poll
  /-- with a changed status: at `tcpip_callback_with_block`, then at `vTaskDelay` -/
  | callback | delay
  | setBits
  deriving DecidableEq, Repr

structure WdtSys where
  group : EventGroup WdtTask
  feed : FeedPc
  daemon : RoundPc

/-- The scheduler starts; `xEventGroupCreate` has set no bits. -/
def WdtSys.start : WdtSys where
  group := ⟨0, []⟩
  feed := .waitBits
  daemon := .start

inductive WdtAct
  /-- `vEthernetDaemon` goes on; `physts` is what `lpcPHYStsPoll` returns -/
  | daemon (physts : BitVec 32)
  /-- `vWDTFeed` goes on -/
  | feed
  /-- the block time of `vWDTFeed` expires -/
  | timeout
  deriving DecidableEq, Repr

/-- `xTicksToWait`. -/
def xTicksToWait : ℕ := wdtTicks / portTickPeriodMs

/-- `vEthernetDaemon`, one statement of it. -/
def wdtDaemon (s : WdtSys) (physts : BitVec 32) : WdtSys :=
  match s.daemon with
  | .start => { s with daemon := .poll }
  | .poll => { s with daemon := if physts &&& phyLinkChanged ≠ 0 then .callback else .setBits }
  | .callback => { s with daemon := .delay }
  | .delay => { s with daemon := .setBits }
  | .setBits =>
      let r := xEventGroupSetBits s.group netMainBit
      { group := r.1
        feed := (r.2.head?.map fun x => .resume x.2).getD s.feed
        daemon := .poll }

/-- `vWDTFeed`, one part of it. -/
def vWDTFeed (s : WdtSys) : Option WdtSys :=
  match s.feed with
  | .waitBits =>
      let r := xEventGroupWaitBits s.group .vWDTFeed taskBitAll true true xTicksToWait
      some { s with
        group := r.1
        feed := match r.2 with
          | some uxBits => .check uxBits
          | none => .blocked }
  | .blocked => none
  | .resume item =>
      let r := waitBitsResume s.group item taskBitAll true true
      some { s with group := r.1, feed := .check r.2 }
  -- with `WDT_UpdateTimeOut` if the bits are there
  | .check _ => some { s with feed := .waitBits }

def wdtStep (s : WdtSys) : WdtAct → Option WdtSys
  | .daemon physts => some (wdtDaemon s physts)
  | .feed => vWDTFeed s
  | .timeout =>
      match s.feed, s.group.xTasksWaitingForBits.head? with
      | .blocked, some x => some { s with group := s.group.expire x.1, feed := .resume x.2 }
      | _, _ => none

/-- A check-in and a feed. -/
inductive WdtEvent
  /-- `xEventGroupSetBits(xEventGroup, NET_MAIN_BIT)` -/
  | setBits
  /-- `WDT_UpdateTimeOut(WDT_TIMEOUT)` -/
  | updateTimeOut
  deriving DecidableEq, Repr

/-- The call made by a step. -/
def wdtEmit (s : WdtSys) : WdtAct → Option WdtEvent
  | .daemon _ => if s.daemon = .setBits then some .setBits else none
  | .feed =>
      match s.feed with
      | .check uxBits => if uxBits &&& taskBitAll = taskBitAll then some .updateTimeOut else none
      | _ => none
  | .timeout => none

/-! ### The credit -/

/-- Some bits hold a check-in. -/
def bitCredit (bits : BitVec 32) : ℕ := if bits &&& taskBitAll = taskBitAll then 1 else 0

/-- Where `vWDTFeed` holds one: it was unblocked by the bit, or has it in `uxBits`. -/
def FeedPc.credit : FeedPc → ℕ
  | .resume item => if item &&& eventUnblockedDueToBitSet = 0 then 0 else 1
  | .check uxBits => bitCredit uxBits
  | _ => 0

/-- The check-ins that have not been paid out. -/
def WdtSys.credit (s : WdtSys) : ℕ := bitCredit s.group.uxEventBits + s.feed.credit

/-- The item that `vWDTFeed` waits with. -/
def wdtItem : BitVec 32 := waitItem taskBitAll true true

/-- The list has `vWDTFeed` while it is blocked. -/
def WdtInv (s : WdtSys) : Prop :=
  s.group.xTasksWaitingForBits = if s.feed = .blocked then [(.vWDTFeed, wdtItem)] else []

theorem bitCredit_le (bits : BitVec 32) : bitCredit bits ≤ 1 := by
  unfold bitCredit
  split
  · exact Nat.le_refl 1
  · exact Nat.zero_le 1

theorem bitCredit_cleared (bits : BitVec 32) : bitCredit (bits &&& ~~~taskBitAll) = 0 := by
  rw [bitCredit, and_not_and_self]
  rfl

/-- The control byte is none of the bits waited for. -/
theorem bitCredit_uncontrolled (bits : BitVec 32) :
    bitCredit (bits &&& ~~~eventEventBitsControlBytes) = bitCredit bits := by
  rw [bitCredit, BitVec.and_assoc,
    show ~~~eventEventBitsControlBytes &&& taskBitAll = taskBitAll by decide, bitCredit]

theorem WdtSys.credit_le (s : WdtSys) : s.credit ≤ 2 := by
  have hfeed : s.feed.credit ≤ 1 := by
    rcases s.feed with - | - | item | uxBits
    · exact Nat.zero_le 1
    · exact Nat.zero_le 1
    · rw [FeedPc.credit]
      split
      · exact Nat.zero_le 1
      · exact Nat.le_refl 1
    · exact bitCredit_le uxBits
  exact Nat.add_le_add (bitCredit_le _) hfeed

/-! ### The calls on the event group -/

/-- While it is blocked `vWDTFeed` is unblocked by the bit, which is cleared. -/
theorem setBits_blocked (bits : BitVec 32) :
    ∃ item, xEventGroupSetBits (τ := WdtTask) ⟨bits, [(.vWDTFeed, wdtItem)]⟩ netMainBit =
        (⟨(bits ||| netMainBit) &&& ~~~taskBitAll, []⟩, [(.vWDTFeed, item)]) ∧
      item &&& eventUnblockedDueToBitSet ≠ 0 := by
  have hcontrol : wdtItem &&& eventEventBitsControlBytes &&& eventWaitForAllBits ≠ 0 := by decide
  have hclear : wdtItem &&& eventEventBitsControlBytes &&& eventClearEventsOnExitBit ≠ 0 := by
    decide
  have hwaited : wdtItem &&& ~~~eventEventBitsControlBytes = taskBitAll := by decide
  have hmatch : matchFound (bits ||| netMainBit) wdtItem = true := by
    rw [matchFound, if_neg hcontrol, hwaited, decide_eq_true_eq, BitVec.and_comm]
    exact or_and_self bits netMainBit
  refine ⟨bits ||| netMainBit ||| eventUnblockedDueToBitSet ||| taskEventListItemValueInUse,
    ?_, fun hzero => ?_⟩
  · rw [xEventGroupSetBits, setBitsLoop, if_pos hmatch, if_pos hclear, hwaited]
    simp [setBitsLoop]
  · -- the mark is one of the bits stored
    have hmark := or_and_self (bits ||| netMainBit ||| taskEventListItemValueInUse)
      eventUnblockedDueToBitSet
    rw [BitVec.or_assoc, BitVec.or_comm taskEventListItemValueInUse, ← BitVec.or_assoc, hzero]
      at hmark
    exact absurd hmark (by decide)

/-- Otherwise the bit is in the group. -/
theorem setBits_nobody (bits : BitVec 32) :
    xEventGroupSetBits (τ := WdtTask) ⟨bits, []⟩ netMainBit = (⟨bits ||| netMainBit, []⟩, []) := by
  rw [xEventGroupSetBits, setBitsLoop, and_not_zero]

/-- `vWDTFeed` takes the bit, or blocks. -/
theorem waitBits_cases (bits : BitVec 32) :
    (bits &&& taskBitAll = taskBitAll ∧
      xEventGroupWaitBits (⟨bits, []⟩ : EventGroup WdtTask) .vWDTFeed taskBitAll true true
        xTicksToWait = (⟨bits &&& ~~~taskBitAll, []⟩, some bits)) ∨
    (bits &&& taskBitAll ≠ taskBitAll ∧
      xEventGroupWaitBits (⟨bits, []⟩ : EventGroup WdtTask) .vWDTFeed taskBitAll true true
        xTicksToWait = (⟨bits, [(.vWDTFeed, wdtItem)]⟩, none)) := by
  by_cases hall : bits &&& taskBitAll = taskBitAll
  · refine .inl ⟨hall, if_pos (decide_eq_true hall)⟩
  · refine .inr ⟨hall, ?_⟩
    have htest : ¬ prvTestWaitCondition bits taskBitAll true = true :=
      fun h => hall (of_decide_eq_true h)
    have hticks : xTicksToWait ≠ 0 := by decide
    rw [xEventGroupWaitBits, if_neg htest, if_neg hticks]
    rfl

/-- `vWDTFeed` was unblocked by the bit, or it takes the bit if that has come since
its time-out. -/
theorem resume_cases (bits item : BitVec 32) :
    (item &&& eventUnblockedDueToBitSet ≠ 0 ∧
      waitBitsResume (⟨bits, []⟩ : EventGroup WdtTask) item taskBitAll true true =
        (⟨bits, []⟩, item &&& ~~~eventEventBitsControlBytes)) ∨
    (item &&& eventUnblockedDueToBitSet = 0 ∧ bits &&& taskBitAll = taskBitAll ∧
      waitBitsResume (⟨bits, []⟩ : EventGroup WdtTask) item taskBitAll true true =
        (⟨bits &&& ~~~taskBitAll, []⟩, bits &&& ~~~eventEventBitsControlBytes)) ∨
    (item &&& eventUnblockedDueToBitSet = 0 ∧ bits &&& taskBitAll ≠ taskBitAll ∧
      waitBitsResume (⟨bits, []⟩ : EventGroup WdtTask) item taskBitAll true true =
        (⟨bits, []⟩, bits &&& ~~~eventEventBitsControlBytes)) := by
  by_cases hmark : item &&& eventUnblockedDueToBitSet = 0
  · right
    by_cases hall : bits &&& taskBitAll = taskBitAll
    · have htest : prvTestWaitCondition bits taskBitAll true = true := decide_eq_true hall
      refine .inl ⟨hmark, hall, ?_⟩
      rw [waitBitsResume, if_pos hmark, htest]
      rfl
    · have htest : prvTestWaitCondition bits taskBitAll true = false := decide_eq_false hall
      refine .inr ⟨hmark, hall, ?_⟩
      rw [waitBitsResume, if_pos hmark, htest]
      rfl
  · exact .inl ⟨hmark, if_neg hmark⟩

/-! ### One step -/

theorem WdtInv.blocked {s : WdtSys} (h : WdtInv s) (hfeed : s.feed = .blocked) :
    s.group = ⟨s.group.uxEventBits, [(.vWDTFeed, wdtItem)]⟩ := by
  rw [WdtInv, if_pos hfeed] at h
  rw [← h]

theorem WdtInv.nobody {s : WdtSys} (h : WdtInv s) (hfeed : s.feed ≠ .blocked) :
    s.group = ⟨s.group.uxEventBits, []⟩ := by
  rw [WdtInv, if_neg hfeed] at h
  rw [← h]

/-- A check-in goes to `vWDTFeed` if it is blocked, else to the group. -/
theorem WdtInv.checkIn {s : WdtSys} (h : WdtInv s) (hpc : s.daemon = .setBits)
    (physts : BitVec 32) :
    WdtInv (wdtDaemon s physts) ∧ (wdtDaemon s physts).credit ≤ s.credit + 1 := by
  by_cases hfeed : s.feed = .blocked
  · obtain ⟨item, hset, hmark⟩ := setBits_blocked s.group.uxEventBits
    have ht : wdtDaemon s physts =
        { group := ⟨(s.group.uxEventBits ||| netMainBit) &&& ~~~taskBitAll, []⟩
          feed := .resume item
          daemon := .poll } := by
      simp only [wdtDaemon, hpc]
      rw [h.blocked hfeed, hset]
      rfl
    rw [ht]
    refine ⟨rfl, ?_⟩
    rw [WdtSys.credit, FeedPc.credit, if_neg hmark, bitCredit_cleared]
    exact Nat.le_add_left _ _
  · have ht : wdtDaemon s physts =
        { group := ⟨s.group.uxEventBits ||| netMainBit, []⟩
          feed := s.feed
          daemon := .poll } := by
      simp only [wdtDaemon, hpc]
      rw [h.nobody hfeed, setBits_nobody]
      rfl
    rw [ht]
    refine ⟨(if_neg hfeed).symm, ?_⟩
    have hle := bitCredit_le (s.group.uxEventBits ||| netMainBit)
    simp only [WdtSys.credit]
    omega

/-- The rest of its loop has nothing to do with the group. -/
theorem wdtDaemon_of_ne {s : WdtSys} (hpc : s.daemon ≠ .setBits) (physts : BitVec 32) :
    (wdtDaemon s physts).group = s.group ∧ (wdtDaemon s physts).feed = s.feed := by
  unfold wdtDaemon
  cases hd : s.daemon with
  | setBits => exact absurd hd hpc
  | _ => exact ⟨rfl, rfl⟩

/-- **The daemon**: only a check-in adds to the credit, and it adds one. -/
theorem WdtInv.daemon {s : WdtSys} (h : WdtInv s) (physts : BitVec 32) :
    WdtInv (wdtDaemon s physts) ∧ (wdtDaemon s physts).credit ≤
      s.credit + (wdtEmit s (.daemon physts)).toList.count .setBits := by
  by_cases hpc : s.daemon = .setBits
  · have hemit : (wdtEmit s (.daemon physts)).toList.count .setBits = 1 := by
      rw [wdtEmit, if_pos hpc]
      rfl
    rw [hemit]
    exact h.checkIn hpc physts
  · obtain ⟨hgroup, hfeed⟩ := wdtDaemon_of_ne hpc physts
    rw [WdtInv, WdtSys.credit, hgroup, hfeed]
    exact ⟨h, Nat.le_add_right _ _⟩

/-- `vWDTFeed` takes the bit from the group, which it clears, or waits for it. -/
theorem WdtInv.waitBits {s t : WdtSys} (h : WdtInv s) (hfeed : s.feed = .waitBits)
    (hstep : vWDTFeed s = some t) : WdtInv t ∧ t.credit ≤ s.credit := by
  simp only [vWDTFeed, hfeed] at hstep
  rw [h.nobody (by rw [hfeed]; decide)] at hstep
  rcases waitBits_cases s.group.uxEventBits with ⟨hall, hw⟩ | ⟨hall, hw⟩ <;> rw [hw] at hstep <;>
    obtain rfl := Option.some.inj hstep
  · refine ⟨rfl, ?_⟩
    simp only [WdtSys.credit, FeedPc.credit, bitCredit_cleared, hfeed]
    omega
  · refine ⟨rfl, ?_⟩
    simp only [WdtSys.credit, FeedPc.credit, hfeed]
    exact Nat.le_refl _

/-- What `vWDTFeed` returns from the call with, it has been given with its item or has
taken from the group. -/
theorem WdtInv.resume {s t : WdtSys} (h : WdtInv s) {item : BitVec 32}
    (hfeed : s.feed = .resume item) (hstep : vWDTFeed s = some t) :
    WdtInv t ∧ t.credit ≤ s.credit := by
  simp only [vWDTFeed, hfeed] at hstep
  rw [h.nobody (by rw [hfeed]; exact FeedPc.noConfusion)] at hstep
  rcases resume_cases s.group.uxEventBits item with
    ⟨hmark, hw⟩ | ⟨hmark, hall, hw⟩ | ⟨hmark, hall, hw⟩ <;> rw [hw] at hstep <;>
    obtain rfl := Option.some.inj hstep
  · refine ⟨rfl, ?_⟩
    simp only [WdtSys.credit, FeedPc.credit, hfeed, if_neg hmark]
    exact Nat.add_le_add_left (bitCredit_le _) _
  · -- the bit came after the time-out, and the task clears it
    refine ⟨rfl, ?_⟩
    simp only [WdtSys.credit, FeedPc.credit, hfeed, if_pos hmark, bitCredit_cleared,
      bitCredit_uncontrolled]
    omega
  · refine ⟨rfl, ?_⟩
    have hnone : bitCredit s.group.uxEventBits = 0 := if_neg hall
    simp only [WdtSys.credit, FeedPc.credit, hfeed, if_pos hmark, bitCredit_uncontrolled, hnone]
    exact Nat.le_refl 0

/-- At the end of a round `vWDTFeed` drops what it has. -/
theorem WdtInv.check {s t : WdtSys} (h : WdtInv s) {uxBits : BitVec 32}
    (hfeed : s.feed = .check uxBits) (hstep : vWDTFeed s = some t) :
    WdtInv t ∧ bitCredit uxBits + t.credit ≤ s.credit := by
  simp only [vWDTFeed, hfeed] at hstep
  obtain rfl := Option.some.inj hstep
  refine ⟨?_, ?_⟩
  · rw [h.nobody (by rw [hfeed]; exact FeedPc.noConfusion)]
    rfl
  · simp only [WdtSys.credit, FeedPc.credit, hfeed]
    omega

/-- `vWDTFeed` feeds for the bit in `uxBits`, and nowhere else. -/
theorem count_wdtEmit_feed (s : WdtSys) :
    (wdtEmit s .feed).toList.count .updateTimeOut =
      match s.feed with
      | .check uxBits => bitCredit uxBits
      | _ => 0 := by
  cases hfeed : s.feed with
  | check uxBits =>
      simp only [wdtEmit, hfeed, bitCredit]
      split <;> rfl
  | _ =>
      simp only [wdtEmit, hfeed]
      rfl

/-- **The task**: it moves a check-in from the group to itself, and a feed uses up
the one that it has. -/
theorem WdtInv.feed {s t : WdtSys} (h : WdtInv s) (hstep : vWDTFeed s = some t) :
    WdtInv t ∧ (wdtEmit s .feed).toList.count .updateTimeOut + t.credit ≤ s.credit := by
  rw [count_wdtEmit_feed]
  cases hfeed : s.feed with
  | waitBits =>
      show WdtInv t ∧ 0 + t.credit ≤ s.credit
      rw [Nat.zero_add]
      exact h.waitBits hfeed hstep
  | blocked =>
      simp only [vWDTFeed, hfeed] at hstep
      cases hstep
  | resume item =>
      show WdtInv t ∧ 0 + t.credit ≤ s.credit
      rw [Nat.zero_add]
      exact h.resume hfeed hstep
  | check uxBits => exact h.check hfeed hstep

/-- **A time-out** leaves the credit as it is: the item has not been marked. -/
theorem WdtInv.timeout {s t : WdtSys} (h : WdtInv s) (hstep : wdtStep s .timeout = some t) :
    WdtInv t ∧ t.credit = s.credit := by
  by_cases hfeed : s.feed = .blocked
  · simp only [wdtStep, hfeed] at hstep
    rw [h.blocked hfeed] at hstep
    obtain rfl := Option.some.inj hstep
    refine ⟨rfl, ?_⟩
    have hunmarked : wdtItem &&& eventUnblockedDueToBitSet = 0 := by decide
    simp only [WdtSys.credit, EventGroup.expire, hfeed, FeedPc.credit, if_pos hunmarked]
  · cases hf : s.feed with
    | blocked => exact absurd hf hfeed
    | _ =>
        simp only [wdtStep, hf] at hstep
        cases hstep

/-- **Check-ins are credit, and feeds are paid from it.** -/
theorem wdt_credit :
    Credit wdtStep wdtEmit .setBits .updateTimeOut WdtInv WdtSys.credit where
  inv := by
    intro s a t hs hstep
    cases a with
    | daemon physts =>
        obtain rfl := Option.some.inj hstep
        exact (hs.daemon physts).1
    | feed => exact (hs.feed hstep).1
    | timeout => exact (hs.timeout hstep).1
  pays := by
    intro s a t hs hstep
    cases a with
    | daemon physts =>
        obtain rfl := Option.some.inj hstep
        have hno : (wdtEmit s (.daemon physts)).toList.count .updateTimeOut = 0 := by
          rw [wdtEmit]
          split <;> rfl
        rw [hno, Nat.zero_add]
        exact (hs.daemon physts).2
    | feed => exact Nat.le_trans (hs.feed hstep).2 (Nat.le_add_right _ _)
    | timeout =>
        rw [(hs.timeout hstep).2, wdtEmit]
        exact Nat.le_of_eq (Nat.add_comm _ _)

theorem WdtInv.start : WdtInv .start := rfl

/-! ### Feeding -/

/-- **The watchdog is fed on evidence of life.**  In every run each feed has an
earlier check-in of its own; and from where the daemon makes no more check-ins
the watchdog is fed twice at most. -/
theorem watchdog_fed_on_life (acts : List WdtAct) :
    (∃ f : ℕ → ℕ,
      (∀ i, (trace wdtStep wdtEmit .start acts)[i]? = some .updateTimeOut →
        f i < i ∧ (trace wdtStep wdtEmit .start acts)[f i]? = some .setBits) ∧
      Set.InjOn f {i | (trace wdtStep wdtEmit .start acts)[i]? = some .updateTimeOut}) ∧
    ∀ s, Run wdtStep .start acts s → ∀ acts', .setBits ∉ trace wdtStep wdtEmit s acts' →
      (trace wdtStep wdtEmit s acts').count .updateTimeOut ≤ 2 := by
  refine ⟨wdt_credit.matched (by decide) WdtInv.start rfl acts, fun s hrun acts' hsilent => ?_⟩
  have hs : WdtInv s := hrun.invariant wdt_credit.inv WdtInv.start
  have hle := wdt_credit.count_trace_le hs acts'
  rw [List.count_eq_zero.mpr hsilent, Nat.add_zero] at hle
  exact Nat.le_trans hle s.credit_le

/-- Two check-ins have been made, one of them is in the group and `vWDTFeed` is
about to feed for the other: it feeds twice, and its next wait times out. -/
theorem watchdog_fed_on_life_twice :
    let s : WdtSys := { group := ⟨1, []⟩, feed := .check 1, daemon := .poll }
    let acts' : List WdtAct := [.feed, .feed, .feed, .daemon 0, .feed, .timeout, .feed, .feed]
    Run wdtStep .start [.daemon 0, .daemon 0, .daemon 0, .feed, .daemon 0, .daemon 0] s ∧
      trace wdtStep wdtEmit s acts' = [.updateTimeOut, .updateTimeOut] ∧
      (trace wdtStep wdtEmit s acts').count .updateTimeOut ≤ 2 := by
  intro s acts'
  have hrun : Run wdtStep .start
      [.daemon 0, .daemon 0, .daemon 0, .feed, .daemon 0, .daemon 0] s :=
    run_iff_foldlM.mpr rfl
  have htrace : trace wdtStep wdtEmit s acts' = [.updateTimeOut, .updateTimeOut] := by decide
  refine ⟨hrun, htrace, (watchdog_fed_on_life _).2 s hrun acts' ?_⟩
  rw [htrace]
  decide

end Lpc1768
