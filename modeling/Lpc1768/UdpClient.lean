/-
Lpc1768/UdpClient.lean

The UDP client and the UART interrupt share `net_gs_data.buffer`.  The
interrupt fills it and gives `xSemaphore` when a frame is complete; the loop
of `vUDPClient` enables the interrupt, takes the semaphore, disables the
interrupt, connects and sends the buffer.

The system is the product of the two: `byte b` is one UART0 interrupt, which
can happen wherever the loop is as long as the NVIC enable bit of UART0 is
set; the other actions are the statements of the loop.  The semaphore is
binary: a give while it is full changes nothing.  It carries the number of
the give its token came from, so that "the frame the token stands for" is
part of the state.

The interrupt is disabled only after the take, so bytes of the next frame may
already be in the buffer.  `sends_given_of_disable_agrees` says when the
packet sent is a given frame all the same: at every disable, the body bytes
overwritten since the last give agree with the frame given there.  The
invariant behind it (`ClientInv.last`) is that outside those bytes the buffer
is the last given frame.  `sends_torn_frame` is a run that sends a mixture.
-/
import Lpc1768.Deframer
import Lpc1768.Transition

namespace Lpc1768

/-! ### The system -/

/-- The statement of the loop that is executed next. -/
inductive ClientPc
  | enableIRQ | take | disableIRQ | connect | send
  deriving DecidableEq, Repr

/-- The state of the interrupt routine, of the loop and of the semaphore
between them. -/
structure ClientSys where
  dfr : Deframer
  /-- the NVIC enable bit of UART0 -/
  uartIRQ : Bool
  /-- `xSemaphore`: `some i` if it holds the token of give number `i` -/
  sem : Option ℕ
  pc : ClientPc
  /-- the give whose token was taken last -/
  taken : ℕ
  /-- the packets in the buffer at the gives so far, oldest first -/
  given : List (List UInt8)
  /-- how many body bytes of the buffer were overwritten since the last give -/
  dirty : ℕ

/-- The loop about to be entered; `vUartInit` has enabled the interrupt. -/
def ClientSys.init (buffer : Mem) : ClientSys where
  dfr := .reset buffer
  uartIRQ := true
  sem := none
  pc := .enableIRQ
  taken := 0
  given := []
  dirty := 0

inductive ClientAct
  /-- UART0 interrupt with one received byte -/
  | byte (b : UInt8)
  /-- `NVIC_EnableIRQ(UART0_IRQn)` -/
  | enableIRQ
  /-- `xSemaphoreTake` returns `pdTRUE` -/
  | take
  /-- `xSemaphoreTake` times out -/
  | timeout
  /-- `NVIC_DisableIRQ(UART0_IRQn)` -/
  | disableIRQ
  /-- `connect`, successful or not -/
  | connect (ok : Bool)
  /-- `send` of the first `GS_PACK_LEN` bytes of the buffer -/
  | send
  deriving DecidableEq, Repr

/-- `UART0_IRQHandler` on a received byte: `uart_receive_int`, with
`xSemaphoreGiveFromISR` when the frame is complete. -/
def ClientSys.receive (s : ClientSys) (b : UInt8) : ClientSys :=
  let r := uartReceiveInt s.dfr (some b)
  if r.2 then
    { s with
      dfr := r.1
      -- a token that is still there is not replaced: the semaphore is binary
      sem := some (s.sem.getD s.given.length)
      given := s.given ++ [r.1.packet]
      dirty := 0 }
  else { s with dfr := r.1, dirty := max s.dirty r.1.gsData }

/-- One step of the system; `none` if the action is not enabled. -/
def clientStep (s : ClientSys) : ClientAct → Option ClientSys
  | .byte b => if s.uartIRQ then some (s.receive b) else none
  | .enableIRQ =>
      if s.pc = .enableIRQ then some { s with uartIRQ := true, pc := .take } else none
  | .take =>
      match s.pc, s.sem with
      | .take, some i => some { s with sem := none, taken := i, pc := .disableIRQ }
      | _, _ => none
  | .timeout =>
      if s.pc = .take ∧ s.sem = none then some { s with pc := .enableIRQ } else none
  | .disableIRQ =>
      if s.pc = .disableIRQ then some { s with uartIRQ := false, pc := .connect } else none
  | .connect ok =>
      if s.pc = .connect then
        some { s with pc := if ok then .send else .enableIRQ }
      else none
  | .send => if s.pc = .send then some { s with pc := .enableIRQ } else none

/-! ### The property and the condition -/

/-- Whenever `send` is called, the packet is a frame given by the give whose
token was taken or by a later one. -/
def SendsGiven (s : ClientSys) (a : ClientAct) (_ : ClientSys) : Prop :=
  a = .send → s.dfr.packet ∈ s.given.drop s.taken

instance (s : ClientSys) (a : ClientAct) (t : ClientSys) : Decidable (SendsGiven s a t) := by
  unfold SendsGiven; infer_instance

/-- The body bytes overwritten since the last give are as they were there. -/
def ClientSys.Agrees (s : ClientSys) : Prop :=
  ∀ g ∈ s.given.getLast?, ∀ i < s.dirty, g[2 + i]? = some (s.dfr.buffer (2 + i))

instance (s : ClientSys) : Decidable s.Agrees := by
  unfold ClientSys.Agrees; infer_instance

/-- Whenever the interrupt is disabled, the bytes received since the last
give agree with the frame given there. -/
def DisableAgrees (s : ClientSys) (a : ClientAct) (_ : ClientSys) : Prop :=
  a = .disableIRQ → s.Agrees

instance (s : ClientSys) (a : ClientAct) (t : ClientSys) : Decidable (DisableAgrees s a t) := by
  unfold DisableAgrees; infer_instance

/-! ### The invariant -/

/-- The loop has taken a token and not come back to the top. -/
def ClientPc.holding : ClientPc → Bool
  | .disableIRQ | .connect | .send => true
  | .enableIRQ | .take => false

/-- The loop is between `NVIC_DisableIRQ` and `NVIC_EnableIRQ`. -/
def ClientPc.masked : ClientPc → Bool
  | .connect | .send => true
  | .enableIRQ | .take | .disableIRQ => false

structure ClientInv (s : ClientSys) : Prop where
  ok : s.dfr.Ok
  dirty_lt : s.dirty < gsDataLen
  /-- once a frame has been given, the buffer begins with the header -/
  header : s.given ≠ [] → s.dfr.buffer 0 = gsHeaderI ∧ s.dfr.buffer 1 = gsHeaderII
  /-- outside the overwritten bytes, the buffer is the last given frame -/
  last : ∀ g ∈ s.given.getLast?, g.length = gsPackLen ∧
    ∀ i < gsPackLen, ¬ (2 ≤ i ∧ i < 2 + s.dirty) → g[i]? = some (s.dfr.buffer i)
  token : ∀ i ∈ s.sem, i < s.given.length
  taken : s.pc.holding = true → s.taken < s.given.length
  irq : s.pc.masked = true → s.uartIRQ = false
  agrees : s.pc.masked = true → s.Agrees

theorem clientInv_init (buffer : Mem) : ClientInv (.init buffer) where
  ok := ok_reset buffer
  dirty_lt := by simp [ClientSys.init, gsDataLen]
  header := by simp [ClientSys.init]
  last := by simp [ClientSys.init]
  token := by simp [ClientSys.init]
  taken := by simp [ClientSys.init, ClientPc.holding]
  irq := by simp [ClientSys.init, ClientPc.masked]
  agrees := by simp [ClientSys.init, ClientPc.masked]

theorem packet_getElem? (s : Deframer) (i : ℕ) :
    s.packet[i]? = if i < gsPackLen then some (s.buffer i) else none := by
  split
  next h => simp [Deframer.packet, Mem.load, h]
  next h => simpa [Deframer.packet] using Nat.le_of_not_lt h

/-- Under the invariant the packet is the last given frame iff the bytes
overwritten since then agree with it. -/
theorem ClientInv.packet_eq_last_iff {s : ClientSys} (h : ClientInv s) {g : List UInt8}
    (hg : g ∈ s.given.getLast?) : s.dfr.packet = g ↔ s.Agrees := by
  obtain ⟨hlen, hlast⟩ := h.last g hg
  have hdirty := h.dirty_lt
  constructor
  · rintro rfl g' hg' i hi
    obtain rfl : s.dfr.packet = g' := Option.mem_unique hg hg'
    rw [packet_getElem?, if_pos]
    simp only [gsPackLen, gsHeaderLen]
    omega
  · intro hagree
    apply List.ext_getElem?
    intro i
    rw [packet_getElem?]
    split
    next hi =>
      by_cases hin : 2 ≤ i ∧ i < 2 + s.dirty
      · have := hagree g hg (i - 2) (by omega)
        rw [show 2 + (i - 2) = i by omega] at this
        exact this.symm
      · exact (hlast i hi hin).symm
    next hi =>
      rw [List.getElem?_eq_none (by omega)]

/-! ### One interrupt -/

/-- A byte that does not complete a frame: at most the body bytes of the open
frame change. -/
theorem ClientInv.receive_open {s : ClientSys} {d : Deframer} (h : ClientInv s)
    (hpc : s.pc.masked = false) (hok : d.Ok)
    (hsame : s.given ≠ [] → ∀ i, ¬ (2 ≤ i ∧ i < 2 + d.gsData) →
      d.buffer i = s.dfr.buffer i) :
    ClientInv { s with dfr := d, dirty := max s.dirty d.gsData } where
  ok := hok
  dirty_lt := Nat.max_lt.mpr ⟨h.dirty_lt, hok.lt⟩
  header := by
    intro hgiven
    show d.buffer 0 = gsHeaderI ∧ d.buffer 1 = gsHeaderII
    rw [hsame hgiven 0 (by omega), hsame hgiven 1 (by omega)]
    exact h.header hgiven
  last := by
    intro g hg
    obtain ⟨hlen, hlast⟩ := h.last g hg
    have hgiven : s.given ≠ [] := by
      rintro hnil
      simp [hnil] at hg
    refine ⟨hlen, fun i hi hout => ?_⟩
    dsimp only at hout ⊢
    rw [hsame hgiven i (by omega)]
    exact hlast i hi (by omega)
  token := h.token
  taken := h.taken
  irq := fun hm => absurd hm (by simp [hpc])
  agrees := fun hm => absurd hm (by simp [hpc])

/-- The byte that completes a frame: the buffer is given as it is. -/
theorem ClientInv.receive_give {s : ClientSys} {d : Deframer} (h : ClientInv s)
    (hpc : s.pc.masked = false) (hok : d.Ok)
    (hheader : d.buffer 0 = gsHeaderI ∧ d.buffer 1 = gsHeaderII) :
    ClientInv { s with
      dfr := d
      sem := some (s.sem.getD s.given.length)
      given := s.given ++ [d.packet]
      dirty := 0 } where
  ok := hok
  dirty_lt := by simp [gsDataLen]
  header := fun _ => hheader
  last := by
    intro g hg
    obtain rfl : d.packet = g := by simpa using hg
    refine ⟨by simp [Deframer.packet], fun i hi _ => ?_⟩
    simp [packet_getElem?, hi]
  token := by
    intro i hi
    simp only [Option.mem_some_iff] at hi
    subst hi
    rcases hsem : s.sem with - | j
    · simp
    · have := h.token j hsem
      simp only [Option.getD_some, List.length_append]
      omega
  taken := by
    intro hm
    have := h.taken hm
    simp only [List.length_append]
    omega
  irq := fun hm => absurd hm (by simp [hpc])
  agrees := fun hm => absurd hm (by simp [hpc])

theorem receive_of_not_given {s : ClientSys} {b : UInt8} {d : Deframer}
    (h : uartReceiveInt s.dfr (some b) = (d, false)) :
    s.receive b = { s with dfr := d, dirty := max s.dirty d.gsData } := by
  simp [ClientSys.receive, h]

theorem receive_of_given {s : ClientSys} {b : UInt8} {d : Deframer}
    (h : uartReceiveInt s.dfr (some b) = (d, true)) :
    s.receive b = { s with
      dfr := d
      sem := some (s.sem.getD s.given.length)
      given := s.given ++ [d.packet]
      dirty := 0 } := by
  simp [ClientSys.receive, h]

/-- An interrupt keeps the invariant, wherever the loop is. -/
theorem ClientInv.receive {s : ClientSys} (h : ClientInv s) (hirq : s.uartIRQ = true)
    (b : UInt8) : ClientInv (s.receive b) := by
  have hpc : s.pc.masked = false := by
    rcases Bool.eq_false_or_eq_true s.pc.masked with hm | hm
    · cases hirq.symm.trans (h.irq hm)
    · exact hm
  have hok := h.ok.step b
  rcases uartReceiveInt_cases b h.ok.lt with ⟨-, -, e⟩ | ⟨-, e⟩ | ⟨-, -, e⟩ | ⟨hf, -, e⟩ <;>
    rw [e] at hok
  · -- a header: the two bytes written are there already
    rw [receive_of_not_given e]
    refine h.receive_open hpc hok fun hgiven i _ => ?_
    obtain ⟨h0, h1⟩ := h.header hgiven
    rw [← load_header h0 h1, Mem.store_load]
  · rw [receive_of_not_given e]
    exact h.receive_open hpc hok fun _ i _ => rfl
  · rw [receive_of_not_given e]
    refine h.receive_open hpc hok fun _ i hout => ?_
    apply Mem.store_outside
    simp only [List.length_singleton] at hout ⊢
    omega
  · rw [receive_of_given e]
    refine h.receive_give hpc hok ?_
    simp only [store_body_header _ _ _ (show 0 < 2 by omega),
      store_body_header _ _ _ (show 1 < 2 by omega)]
    exact h.ok.header hf

/-! ### One step -/

/-- A step of the loop leaves the buffer, and what was given, alone; it keeps
the invariant if the taken token, the mask and the bytes received are as the
next statement assumes. -/
theorem ClientInv.loop {s : ClientSys} (h : ClientInv s) (irq : Bool) (sem : Option ℕ)
    (pc : ClientPc) (taken : ℕ) (hsem : ∀ i ∈ sem, i < s.given.length)
    (htaken : pc.holding = true → taken < s.given.length)
    (hmasked : pc.masked = true → irq = false ∧ s.Agrees) :
    ClientInv { s with uartIRQ := irq, sem := sem, pc := pc, taken := taken } where
  ok := h.ok
  dirty_lt := h.dirty_lt
  header := h.header
  last := h.last
  token := hsem
  taken := htaken
  irq := fun hm => (hmasked hm).1
  agrees := fun hm => (hmasked hm).2

theorem ClientInv.step {s t : ClientSys} {a : ClientAct} (h : ClientInv s)
    (hstep : clientStep s a = some t) (hdis : DisableAgrees s a t) : ClientInv t := by
  cases a with
  | byte b =>
      obtain ⟨hirq, rfl⟩ := of_guard hstep
      exact h.receive hirq b
  | enableIRQ =>
      obtain ⟨hpc, rfl⟩ := of_guard hstep
      exact h.loop true s.sem .take s.taken h.token (fun hm => nomatch hm) (fun hm => nomatch hm)
  | take =>
      simp only [clientStep] at hstep
      split at hstep
      next i hpc hsem =>
        cases hstep
        exact h.loop s.uartIRQ none .disableIRQ i (fun j hj => nomatch hj)
          (fun _ => h.token i hsem) (fun hm => nomatch hm)
      next => cases hstep
  | timeout =>
      obtain ⟨hpc, rfl⟩ := of_guard hstep
      exact h.loop s.uartIRQ s.sem .enableIRQ s.taken h.token (fun hm => nomatch hm)
        (fun hm => nomatch hm)
  | disableIRQ =>
      obtain ⟨hpc, rfl⟩ := of_guard hstep
      exact h.loop false s.sem .connect s.taken h.token (fun _ => h.taken (by rw [hpc]; rfl))
        (fun _ => ⟨rfl, hdis rfl⟩)
  | connect ok =>
      obtain ⟨hpc, rfl⟩ := of_guard hstep
      have hm : s.pc.masked = true := by rw [hpc]; rfl
      cases ok with
      | true =>
          exact h.loop s.uartIRQ s.sem .send s.taken h.token
            (fun _ => h.taken (by rw [hpc]; rfl)) (fun _ => ⟨h.irq hm, h.agrees hm⟩)
      | false =>
          exact h.loop s.uartIRQ s.sem .enableIRQ s.taken h.token (fun hm => nomatch hm)
            (fun hm => nomatch hm)
  | send =>
      obtain ⟨hpc, rfl⟩ := of_guard hstep
      exact h.loop s.uartIRQ s.sem .enableIRQ s.taken h.token (fun hm => nomatch hm)
        (fun hm => nomatch hm)

/-- Under the invariant, what is sent is the last given frame, which is given
by the give of the token taken or by a later one. -/
theorem ClientInv.sendsGiven {s t : ClientSys} {a : ClientAct} (h : ClientInv s)
    (hstep : clientStep s a = some t) : SendsGiven s a t := by
  rintro rfl
  have hpc : s.pc = .send := by
    by_contra hne
    simp [clientStep, hne] at hstep
  have htaken := h.taken (by rw [hpc]; rfl)
  have hne : s.given ≠ [] := List.ne_nil_of_length_pos (by omega)
  have hg : s.given.getLast hne ∈ s.given.getLast? := List.getLast?_eq_some_getLast hne
  rw [(h.packet_eq_last_iff hg).mpr (h.agrees (by rw [hpc]; rfl))]
  rw [List.mem_drop_iff_getElem]
  refine ⟨s.given.length - 1 - s.taken, by omega, ?_⟩
  rw [List.getLast_eq_getElem]
  congr 1
  omega

/-! ### Runs -/

/-- **Every frame handed to the client is sent untorn, as long as the bytes
received before each disable agree with the last given frame.** -/
theorem sends_given_of_disable_agrees (buffer : Mem) (acts : List ClientAct)
    (h : Along clientStep DisableAgrees (.init buffer) acts) :
    Along clientStep SendsGiven (.init buffer) acts :=
  Along.of_invariant
    (fun _ _ _ hI hstep hdis => ⟨hI.sendsGiven hstep, hI.step hstep hdis⟩)
    (clientInv_init buffer) h

/-- A frame of zeros, the first three bytes of another frame, and one round of
the loop. -/
def roundAfter (b : UInt8) : List ClientAct :=
  ([gsHeaderI, gsHeaderII] ++ List.replicate gsDataLen 0 ++ [gsHeaderI, gsHeaderII, b]).map .byte ++
    [.enableIRQ, .take, .disableIRQ, .connect true, .send]

/-- If the third byte is `0` like that of the first frame, the packet is the
first frame. -/
theorem sends_given_frame :
    (List.foldlM clientStep (.init fun _ => 0) (roundAfter 0)).isSome ∧
      Along clientStep SendsGiven (.init fun _ => 0) (roundAfter 0) :=
  ⟨by decide +kernel, sends_given_of_disable_agrees _ _ (by decide +kernel)⟩

/-- If the third byte is `1`, the packet is a mixture of the two frames. -/
theorem sends_torn_frame :
    ¬ Along clientStep SendsGiven (.init fun _ => 0) (roundAfter 1) := by
  decide +kernel

end Lpc1768
