/-
Lpc1768/StartUp.lean

Start-up, and the semaphores that the handlers give.  `main` enables UART0
before it creates `xSemaphore`; `lpc_enetif_init` enables the EMAC interrupts
before it creates `rx_sem` and `tx_clean_sem`.  A handler that is entered in
between gives a semaphore by a null handle.

The system goes through the statements of `main` and `lpc_enetif_init` that
create something, enable something or leave early; `ok` is what an allocation
or the PHY returns.  Bytes reach `uart_receive_int` as soon as UART0 is
enabled, EMAC events and `ENET_IRQHandler` come in between.

Which semaphores an event calls for is said of the events (`due`): the byte
number 98 after a header, counted on the bytes received (`sinceHeader`), or a
bit of the group in `IntStatus`.  That the handlers give just these
(`gives_eq_due`) rests on the deframer's state being a function of the bytes
(`Tracks`).  `handles_exist_iff` is the statement for runs.
-/
import Lpc1768.Deframer
import Lpc1768.EnetSys

namespace Lpc1768

/-! ### Headers among the bytes received -/

/-- The list, latest byte first, ends in a header: `0x55` after a `0xAA`, with
only `0x55` in between. -/
def headerEnds : List UInt8 → Bool
  | [] => false
  | b :: bs => b = gsHeaderII && (bs.dropWhile (· = gsHeaderII)).head? = some gsHeaderI

/-- The number of bytes since the last header. -/
def sinceHeader : List UInt8 → Option ℕ
  | [] => none
  | b :: bs => if headerEnds (b :: bs) then some 0 else (sinceHeader bs).map (· + 1)

/-- The deframer after these bytes, latest first: `prev` knows the last byte
other than `0x55`, and a frame is open while fewer than 98 bytes have come
since the last header. -/
structure Tracks (d : Deframer) (bs : List UInt8) : Prop where
  prev : d.prev = gsHeaderI ↔ (bs.dropWhile (· = gsHeaderII)).head? = some gsHeaderI
  lt : d.gsData < gsDataLen
  opened : d.frameFlag = true → sinceHeader bs = some d.gsData
  closed : d.frameFlag = false → ∀ k, sinceHeader bs = some k → gsDataLen ≤ k

theorem tracks_reset (buffer : Mem) : Tracks (.reset buffer) [] where
  prev := by simp [Deframer.reset, gsHeaderI]
  lt := by simp [Deframer.reset, gsDataLen]
  opened := by rintro ⟨⟩
  closed := by rintro - k ⟨⟩

theorem sinceHeader_cons {b : UInt8} {bs : List UInt8} (h : headerEnds (b :: bs) = false) :
    sinceHeader (b :: bs) = (sinceHeader bs).map (· + 1) := by
  rw [sinceHeader, h, if_neg Bool.false_ne_true]

/-- `prev` after a byte that completes no header. -/
theorem dropWhile_cons_head (b : UInt8) (bs : List UInt8) {c : UInt8}
    (h : c = gsHeaderI ↔ (bs.dropWhile (· = gsHeaderII)).head? = some gsHeaderI) :
    nextPrev c b = gsHeaderI ↔
      ((b :: bs).dropWhile (· = gsHeaderII)).head? = some gsHeaderI := by
  by_cases hb : b = gsHeaderII
  · rw [nextPrev, if_pos hb, List.dropWhile_cons_of_pos (by simpa using hb)]
    exact h
  · rw [nextPrev, if_neg hb, List.dropWhile_cons_of_neg (by simpa using hb), List.head?_cons,
      Option.some_inj]

/-- **One byte**: the deframer stays in step, and gives at the byte number 98
after a header. -/
theorem Tracks.byte {d : Deframer} {bs : List UInt8} (h : Tracks d bs) (b : UInt8) :
    Tracks (uartReceiveInt d (some b)).1 (b :: bs) ∧
      ((uartReceiveInt d (some b)).2 = true ↔ sinceHeader (b :: bs) = some gsDataLen) := by
  obtain ⟨hprev, hlt, hopen, hclosed⟩ := h
  have hpos : 0 < gsDataLen := by decide
  by_cases hhead : b = gsHeaderII ∧ d.prev = gsHeaderI
  · obtain ⟨rfl, hp⟩ := hhead
    have hends : headerEnds (gsHeaderII :: bs) = true := by
      simp only [headerEnds, hprev.mp hp, decide_true, Bool.and_self]
    have hsince : sinceHeader (gsHeaderII :: bs) = some 0 := by
      rw [sinceHeader, hends, if_pos rfl]
    have hdrop : (gsHeaderII :: bs).dropWhile (· = gsHeaderII) = bs.dropWhile (· = gsHeaderII) :=
      List.dropWhile_cons_of_pos (by decide)
    rw [uartReceiveInt_header hp]
    refine ⟨⟨?_, hpos, fun _ => hsince, by rintro ⟨⟩⟩, iff_of_false (by rintro ⟨⟩) ?_⟩
    · rw [hdrop]
      exact hprev
    · rw [hsince]
      decide
  · have hb : b = gsHeaderII → d.prev ≠ gsHeaderI := fun he hp => hhead ⟨he, hp⟩
    have hends : headerEnds (b :: bs) = false := by
      by_contra hne
      rw [Bool.not_eq_false, headerEnds, Bool.and_eq_true, decide_eq_true_eq,
        decide_eq_true_eq] at hne
      exact hb hne.1 (hprev.mpr hne.2)
    have hprev' := dropWhile_cons_head b bs hprev
    have hsince := sinceHeader_cons hends
    rcases hf : d.frameFlag with - | -
    · -- between frames the count is 98 or more already
      have hfar : ∀ k, sinceHeader (b :: bs) = some k → gsDataLen < k := by
        intro k hk
        rw [hsince, Option.map_eq_some_iff] at hk
        obtain ⟨j, hj, rfl⟩ := hk
        exact Nat.lt_succ_of_le (hclosed hf j hj)
      rw [uartReceiveInt_closed hb hf]
      refine ⟨⟨hprev', hlt, fun ht => ?_, fun _ k hk => Nat.le_of_lt (hfar k hk)⟩, ?_⟩
      · cases hf.symm.trans ht
      · exact iff_of_false (by rintro ⟨⟩) fun hk => Nat.lt_irrefl _ (hfar _ hk)
    · have hcount : sinceHeader (b :: bs) = some (d.gsData + 1) := by
        rw [hsince, hopen hf, Option.map_some]
      rcases Nat.lt_or_ge (d.gsData + 1) gsDataLen with hroom | hfull
      · rw [uartReceiveInt_open hb hf hroom]
        refine ⟨⟨hprev', hroom, fun _ => hcount, fun ht => ?_⟩, ?_⟩
        · cases hf.symm.trans ht
        · refine iff_of_false (by rintro ⟨⟩) fun hk => Nat.ne_of_lt hroom ?_
          exact Option.some.inj (hcount.symm.trans hk)
      · have hlast : d.gsData + 1 = gsDataLen := by omega
        rw [uartReceiveInt_last hb hf hlast]
        refine ⟨⟨hprev', hpos, by rintro ⟨⟩, fun _ k hk => ?_⟩, ?_⟩
        · obtain rfl := Option.some.inj (hcount.symm.trans hk)
          exact hfull
        · exact iff_of_true rfl (by rw [hcount, hlast])

/-! ### The start-up statements -/

/-- The next statement of start-up: in `main` up to `scheduler`, in
`low_level_init` up to `enableRx`, then in `lpc_enetif_init`. -/
inductive StartPc
  | uartInit | createSem | createEvents | scheduler
  | intDisable | phyInit | rxSetup | enableIrq | intClear | enableTx | enableRx
  | txMutex | rxMutex | rxSem | rxThread | txCleanSem | txThread
  /-- `main` or `lpc_enetif_init` has returned -/
  | done
  deriving DecidableEq, Repr

/-- The semaphores that handlers give. -/
inductive Sem
  | xSemaphore | rxSem | txCleanSem
  deriving DecidableEq, Repr

/-- A semaphore that is not in `created` has a null handle.  The ghost `bytes`
holds what UART0 has received, latest first. -/
structure StartSys where
  pc : StartPc
  created : List Sem
  uartEnabled : Bool
  uart : Deframer
  enetEnabled : Bool
  intEnable : BitVec 32
  intStatus : BitVec 32
  bytes : List UInt8

/-- After reset. -/
def StartSys.reset (buffer : Mem) : StartSys where
  pc := .uartInit
  created := []
  uartEnabled := false
  uart := .reset buffer
  enetEnabled := false
  intEnable := 0
  intStatus := 0
  bytes := []

inductive StartAct
  /-- start-up performs its next statement, which may fail -/
  | next (ok : Bool)
  /-- UART0 is handled: `uart_receive_int` takes a byte, or none -/
  | uart (rx : Option UInt8)
  /-- the EMAC raises these bits of `IntStatus` -/
  | raise (bits : BitVec 32)
  /-- `ENET_IRQHandler` runs -/
  | enet
  deriving DecidableEq, Repr

/-- A semaphore is created, and start-up is left if it cannot be. -/
def StartSys.create (s : StartSys) (h : Sem) (ok : Bool) (next : StartPc) : StartSys :=
  { s with
    pc := if ok then next else .done
    created := if ok then h :: s.created else s.created }

/-- The next start-up statement; only failures that are tested for matter. -/
def startNext (s : StartSys) (ok : Bool) : Option StartSys :=
  match s.pc with
  | .uartInit => some { s with pc := .createSem, uartEnabled := true }
  | .createSem => some (s.create .xSemaphore ok .createEvents)
  | .createEvents => some { s with pc := if ok then .scheduler else .done }
  | .scheduler => some { s with pc := if ok then .intDisable else .done }
  | .intDisable => some { s with pc := .phyInit, intEnable := 0 }
  -- `low_level_init` returns `false` then, which is `ERR_OK`
  | .phyInit => some { s with pc := if ok then .rxSetup else .txMutex }
  | .rxSetup => some { s with pc := if ok then .enableIrq else .done }
  | .enableIrq => some { s with pc := .intClear, enetEnabled := true }
  | .intClear => some { s with pc := .enableTx, intStatus := s.intStatus &&& ~~~0xffff }
  | .enableTx => some { s with pc := .enableRx, intEnable := txGroup }
  | .enableRx => some { s with pc := .txMutex, intEnable := s.intEnable ||| rxGroup }
  | .txMutex => some { s with pc := if ok then .rxMutex else .done }
  | .rxMutex => some { s with pc := if ok then .rxSem else .done }
  | .rxSem => some (s.create .rxSem ok .rxThread)
  | .rxThread => some { s with pc := if ok then .txCleanSem else .done }
  | .txCleanSem => some (s.create .txCleanSem ok .txThread)
  | .txThread => some { s with pc := .done }
  | .done => none

def startStep (s : StartSys) : StartAct → Option StartSys
  | .next ok => startNext s ok
  | .uart rx =>
      if s.uartEnabled then
        some { s with
          uart := (uartReceiveInt s.uart rx).1
          bytes := rx.toList ++ s.bytes }
      else none
  | .raise bits => some { s with intStatus := s.intStatus ||| bits }
  | .enet =>
      if s.enetEnabled && s.intStatus &&& s.intEnable ≠ 0 then
        some { s with intStatus := s.intStatus &&& ~~~(s.intStatus &&& pendingMask) }
      else none

/-- The calls of `xSemaphoreGiveFromISR` made by the handlers. -/
def StartSys.gives (s : StartSys) : StartAct → List Sem
  | .uart rx => if (uartReceiveInt s.uart rx).2 then [.xSemaphore] else []
  | .enet =>
      let ints := s.intStatus &&& pendingMask
      (if ints &&& rxGroup ≠ 0 then [.rxSem] else []) ++
        (if ints &&& txGroup ≠ 0 then [.txCleanSem] else [])
  | _ => []

/-! ### The property and the condition -/

/-- The handlers give semaphores that have been created. -/
def HandlesExist (s : StartSys) (a : StartAct) (_ : StartSys) : Prop :=
  ∀ h ∈ s.gives a, h ∈ s.created

/-- The semaphores that an event calls for: the byte that fills a frame, or a
bit in `IntStatus` when the EMAC interrupts. -/
def StartSys.due (s : StartSys) : StartAct → List Sem
  | .uart (some b) =>
      if sinceHeader (b :: s.bytes) = some gsDataLen then [.xSemaphore] else []
  | .enet =>
      (if s.intStatus &&& rxGroup ≠ 0 then [.rxSem] else []) ++
        (if s.intStatus &&& txGroup ≠ 0 then [.txCleanSem] else [])
  | _ => []

/-- No event comes before its semaphore. -/
def EventsLate (s : StartSys) (a : StartAct) (_ : StartSys) : Prop :=
  ∀ h ∈ s.due a, h ∈ s.created

instance (s : StartSys) (a : StartAct) (t : StartSys) : Decidable (HandlesExist s a t) := by
  unfold HandlesExist; infer_instance

/-! ### Runs -/

/-- The deframer has received the bytes. -/
def StartInv (s : StartSys) : Prop := Tracks s.uart s.bytes

theorem startNext_frame {s t : StartSys} {ok : Bool} (h : startNext s ok = some t) :
    t.uart = s.uart ∧ t.bytes = s.bytes := by
  simp only [startNext] at h
  split at h
  case h_18 => cases h
  all_goals
    obtain rfl := Option.some.inj h
    exact ⟨rfl, rfl⟩

theorem StartInv.step {s t : StartSys} {a : StartAct} (h : StartInv s)
    (hstep : startStep s a = some t) : StartInv t := by
  cases a with
  | next ok =>
      obtain ⟨huart, hbytes⟩ := startNext_frame hstep
      rw [StartInv, huart, hbytes]
      exact h
  | uart rx =>
      obtain ⟨-, rfl⟩ := of_guard hstep
      cases rx with
      | none => exact h
      | some b => exact (Tracks.byte h b).1
  | raise bits =>
      obtain rfl := Option.some.inj hstep
      exact h
  | enet =>
      obtain ⟨-, rfl⟩ := of_guard hstep
      exact h

/-- **The handlers give exactly the semaphores that the event calls for.** -/
theorem StartInv.gives_eq_due {s : StartSys} (h : StartInv s) (a : StartAct) :
    s.gives a = s.due a := by
  cases a with
  | uart rx =>
      cases rx with
      | none => rfl
      | some b =>
          show (if (uartReceiveInt s.uart (some b)).2 = true then [Sem.xSemaphore] else []) =
            if sinceHeader (b :: s.bytes) = some gsDataLen then [Sem.xSemaphore] else []
          exact if_congr (Tracks.byte h b).2 rfl rfl
  | enet =>
      have hrx : pendingMask &&& rxGroup = rxGroup := by decide
      have htx : pendingMask &&& txGroup = txGroup := by decide
      show (if s.intStatus &&& pendingMask &&& rxGroup ≠ 0 then [Sem.rxSem] else []) ++
        (if s.intStatus &&& pendingMask &&& txGroup ≠ 0 then [Sem.txCleanSem] else []) = _
      rw [BitVec.and_assoc, BitVec.and_assoc, hrx, htx]
      rfl
  | _ => rfl

/-- **Handlers give no semaphore by a null handle iff no event comes before its
semaphore has been created.** -/
theorem handles_exist_iff (buffer : Mem) (acts : List StartAct) :
    Along startStep HandlesExist (.reset buffer) acts ↔
      Along startStep EventsLate (.reset buffer) acts := by
  refine along_iff (I := StartInv) ?_ (fun s a t h hstep _ => h.step hstep) (tracks_reset buffer)
  intro s a t h _
  rw [HandlesExist, EventsLate, h.gives_eq_due]

/-- A frame arrives while `main` has still to create `xSemaphore`. -/
def earlyFrame : List StartAct :=
  .next true :: .uart (some gsHeaderI) :: .uart (some gsHeaderII) ::
    List.replicate gsDataLen (.uart (some 0))

/-- A packet is received before `lpc_enetif_init` creates `rx_sem`. -/
def earlyPacket : List StartAct :=
  List.replicate 11 (.next true) ++ [.raise emacIntRxDone, .enet]

theorem early_events :
    ¬ Along startStep HandlesExist (.reset fun _ => 0) earlyFrame ∧
      ¬ Along startStep HandlesExist (.reset fun _ => 0) earlyPacket := by
  decide +kernel

end Lpc1768
