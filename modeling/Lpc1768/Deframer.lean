/-
Lpc1768/Deframer.lean

The GS deframer: `uart_receive_int`, called once per byte that UART0 has
received.  A frame is the header pair `0xAA 0x55` followed by 98 body bytes;
the bytes go to `net_gs_data.buffer`, and the last one gives `xSemaphore`.

The static `prev` remembers the last byte other than `0x55`: the header test
looks at it, and neither a completed header nor a byte `0x55` changes it.  So
the header test fires on `0x55` exactly when the bytes before it, skipping
`0x55`s, end in `0xAA`.  `Quiet c bs` says that it never fires while `bs` is
received with `prev = c`, and `quiet_iff_isChain` identifies this with the
absence of the pair `0xAA, 0x55` in `c :: bs`.

`feed_body` is the run lemma of a frame body received without a header in
it: after `k` bytes they sit at `buffer[2 + gs_data ..]`, and only the byte
that fills the frame gives the semaphore.
-/
import Mathlib.Logic.Function.Basic
import Lpc1768.Machine

namespace Lpc1768

/-! ### Constants of uart.h -/

def gsHeaderI : UInt8 := 0xAA
def gsHeaderII : UInt8 := 0x55
def gsHeaderLen : ℕ := 1
def gsDataLen : ℕ := 98
def gsPackLen : ℕ := gsHeaderLen * 2 + gsDataLen

/-! ### The receive routine -/

/-- The statics of `uart_receive_int` and `net_gs_data.buffer`. -/
structure Deframer where
  prev : UInt8
  frameFlag : Bool
  gsData : ℕ
  buffer : Mem

/-- The state before the first byte. -/
def Deframer.reset (buffer : Mem) : Deframer where
  prev := 0
  frameFlag := false
  gsData := 0
  buffer := buffer

/-- The tail of `uart_receive_int`: store a body byte if a frame is open.
The flag says that `xSemaphoreGiveFromISR` was called. -/
def Deframer.storeBody (s : Deframer) (data : UInt8) : Deframer × Bool :=
  if s.frameFlag then
    let buffer := Function.update s.buffer (2 + s.gsData) data
    let gsData := u8 (s.gsData + 1)
    if gsData ≥ gsDataLen then
      ({ s with buffer := buffer, gsData := 0, frameFlag := false }, true)
    else
      ({ s with buffer := buffer, gsData := gsData }, false)
  else (s, false)

/-- `uart_receive_int`; `rx` is what `UART_Receive` took from the receive
register, `none` when it returned 0. -/
def uartReceiveInt (s : Deframer) (rx : Option UInt8) : Deframer × Bool :=
  match rx with
  | none => (s, false)
  | some data =>
      if data = gsHeaderII then
        -- also inside a frame, which then starts again
        if s.prev = gsHeaderI then
          let buffer := Function.update (Function.update s.buffer 0 s.prev) 1 data
          ({ s with buffer := buffer, frameFlag := true, gsData := 0 }, false)
        else s.storeBody data
      -- `prev` keeps the last byte other than 0x55
      else { s with prev := data }.storeBody data

/-- The first `GS_PACK_LEN` bytes of the buffer, which is what the UDP client
sends. -/
def Deframer.packet (s : Deframer) : List UInt8 :=
  s.buffer.load 0 gsPackLen

/-- The state after a list of bytes. -/
def Deframer.feed (s : Deframer) (bs : List UInt8) : Deframer :=
  bs.foldl (fun s b => (uartReceiveInt s (some b)).1) s

/-- The frames given while `bs` is received, each with the position of its
last byte; `n` is the position of the first byte of `bs`. -/
def Deframer.gives (s : Deframer) (n : ℕ) : List UInt8 → List (ℕ × List UInt8)
  | [] => []
  | b :: bs =>
      let r := uartReceiveInt s (some b)
      if r.2 then (n, r.1.packet) :: r.1.gives (n + 1) bs
      else r.1.gives (n + 1) bs

@[simp] theorem Deframer.feed_nil (s : Deframer) : s.feed [] = s := rfl

@[simp] theorem Deframer.feed_cons (s : Deframer) (b : UInt8) (bs : List UInt8) :
    s.feed (b :: bs) = (uartReceiveInt s (some b)).1.feed bs := rfl

theorem Deframer.feed_append (s : Deframer) (xs ys : List UInt8) :
    s.feed (xs ++ ys) = (s.feed xs).feed ys := by
  simp [Deframer.feed]

theorem Deframer.gives_append (s : Deframer) (n : ℕ) (xs ys : List UInt8) :
    s.gives n (xs ++ ys) = s.gives n xs ++ (s.feed xs).gives (n + xs.length) ys := by
  induction xs generalizing s n with
  | nil => simp [Deframer.gives]
  | cons b xs ih =>
      have hlen : n + (b :: xs).length = n + 1 + xs.length := by
        simp only [List.length_cons]; omega
      simp only [List.cons_append, Deframer.gives, Deframer.feed_cons, ih, hlen]
      split <;> simp

/-- Every frame given during `bs` is given at one of the bytes of `bs`. -/
theorem Deframer.gives_position (s : Deframer) (n : ℕ) (bs : List UInt8) :
    ∀ g ∈ s.gives n bs, n ≤ g.1 ∧ g.1 < n + bs.length := by
  induction bs generalizing s n with
  | nil => simp [Deframer.gives]
  | cons b bs ih =>
      intro g hg
      have hrest : ∀ s' : Deframer, g ∈ s'.gives (n + 1) bs →
          n ≤ g.1 ∧ g.1 < n + (b :: bs).length := by
        intro s' hs'
        have := ih s' (n + 1) g hs'
        simp only [List.length_cons]
        omega
      simp only [Deframer.gives] at hg
      split at hg
      · rcases List.mem_cons.mp hg with rfl | hg
        · simp
        · exact hrest _ hg
      · exact hrest _ hg

/-! ### What one byte does -/

/-- The header test fires on the second header byte. -/
theorem uartReceiveInt_header {s : Deframer} (h : s.prev = gsHeaderI) :
    uartReceiveInt s (some gsHeaderII) =
      ({ s with
          buffer := Function.update (Function.update s.buffer 0 gsHeaderI) 1 gsHeaderII
          frameFlag := true
          gsData := 0 }, false) := by
  simp [uartReceiveInt, h]

/-- The value of `prev` after a byte that does not complete a header. -/
def nextPrev (prev data : UInt8) : UInt8 :=
  if data = gsHeaderII then prev else data

/-- Where the header test does not fire, a byte is at most stored. -/
theorem uartReceiveInt_body {s : Deframer} {b : UInt8}
    (h : b = gsHeaderII → s.prev ≠ gsHeaderI) :
    uartReceiveInt s (some b) =
      { s with prev := nextPrev s.prev b }.storeBody b := by
  by_cases hd : b = gsHeaderII
  · simp [uartReceiveInt, nextPrev, hd, h hd]
  · simp [uartReceiveInt, nextPrev, hd]

theorem storeBody_prev (s : Deframer) (b : UInt8) :
    (s.storeBody b).1.prev = s.prev := by
  simp only [Deframer.storeBody]
  split
  · split <;> rfl
  · rfl

/-- Between frames a byte is not stored. -/
theorem uartReceiveInt_closed {s : Deframer} {b : UInt8}
    (hb : b = gsHeaderII → s.prev ≠ gsHeaderI) (h : s.frameFlag = false) :
    uartReceiveInt s (some b) = ({ s with prev := nextPrev s.prev b }, false) := by
  rw [uartReceiveInt_body hb]
  simp [Deframer.storeBody, h]

/-- Inside a frame that stays incomplete a byte is appended. -/
theorem uartReceiveInt_open {s : Deframer} {b : UInt8}
    (hb : b = gsHeaderII → s.prev ≠ gsHeaderI) (h : s.frameFlag = true)
    (hlt : s.gsData + 1 < gsDataLen) :
    uartReceiveInt s (some b) =
      ({ s with
          prev := nextPrev s.prev b
          buffer := Function.update s.buffer (2 + s.gsData) b
          gsData := s.gsData + 1 }, false) := by
  have hu : u8 ((s.gsData : ℤ) + 1) = s.gsData + 1 :=
    u8_of_lt (n := s.gsData + 1) (by simp only [gsDataLen] at hlt; omega)
  rw [uartReceiveInt_body hb]
  simp [Deframer.storeBody, h, hu, hlt]

/-- The last byte of a frame is appended and gives the semaphore. -/
theorem uartReceiveInt_last {s : Deframer} {b : UInt8}
    (hb : b = gsHeaderII → s.prev ≠ gsHeaderI) (h : s.frameFlag = true)
    (hlast : s.gsData + 1 = gsDataLen) :
    uartReceiveInt s (some b) =
      ({ s with
          prev := nextPrev s.prev b
          buffer := Function.update s.buffer (2 + s.gsData) b
          gsData := 0
          frameFlag := false }, true) := by
  have hu : u8 ((s.gsData : ℤ) + 1) = s.gsData + 1 :=
    u8_of_lt (n := s.gsData + 1) (by simp only [gsDataLen] at hlast; omega)
  rw [uartReceiveInt_body hb]
  simp [Deframer.storeBody, h, hu, hlast]

/-- **What one byte does**, where the open frame is not overfull: it
completes a header, is ignored between frames, is appended, or is appended as
the last byte of the frame. -/
theorem uartReceiveInt_cases {s : Deframer} (b : UInt8) (hlt : s.gsData < gsDataLen) :
    (s.prev = gsHeaderI ∧ b = gsHeaderII ∧
      uartReceiveInt s (some b) =
        ({ s with
            buffer := (s.buffer.store 0 [gsHeaderI, gsHeaderII])
            frameFlag := true
            gsData := 0 }, false)) ∨
    (s.frameFlag = false ∧
      uartReceiveInt s (some b) = ({ s with prev := nextPrev s.prev b }, false)) ∨
    (s.frameFlag = true ∧ s.gsData + 1 < gsDataLen ∧
      uartReceiveInt s (some b) =
        ({ s with
            prev := nextPrev s.prev b
            buffer := s.buffer.store (2 + s.gsData) [b]
            gsData := s.gsData + 1 }, false)) ∨
    (s.frameFlag = true ∧ s.gsData + 1 = gsDataLen ∧
      uartReceiveInt s (some b) =
        ({ s with
            prev := nextPrev s.prev b
            buffer := s.buffer.store (2 + s.gsData) [b]
            gsData := 0
            frameFlag := false }, true)) := by
  by_cases hb : b = gsHeaderII → s.prev ≠ gsHeaderI
  · right
    rcases Bool.eq_false_or_eq_true s.frameFlag with hf | hf
    swap
    · exact .inl ⟨hf, uartReceiveInt_closed hb hf⟩
    rcases Nat.lt_or_ge (s.gsData + 1) gsDataLen with hlt' | hge
    · exact .inr (.inl ⟨hf, hlt', by
        rw [uartReceiveInt_open hb hf hlt', Mem.update_eq_store]⟩)
    · have hlast : s.gsData + 1 = gsDataLen := by omega
      exact .inr (.inr ⟨hf, hlast, by
        rw [uartReceiveInt_last hb hf hlast, Mem.update_eq_store]⟩)
  · obtain ⟨rfl, hp⟩ := not_forall_not.mp hb
    refine .inl ⟨hp, rfl, ?_⟩
    rw [uartReceiveInt_header hp, Mem.update_eq_store, Mem.update_eq_store,
      show [gsHeaderI, gsHeaderII] = [gsHeaderI] ++ [gsHeaderII] from rfl, Mem.store_append]
    rfl

/-! ### The state invariant -/

/-- The frame is never overfull, its length is 0 between frames, and inside a
frame the buffer begins with the header pair. -/
structure Deframer.Ok (s : Deframer) : Prop where
  lt : s.gsData < gsDataLen
  closed : s.frameFlag = false → s.gsData = 0
  header : s.frameFlag = true → s.buffer 0 = gsHeaderI ∧ s.buffer 1 = gsHeaderII

theorem ok_reset (buffer : Mem) : (Deframer.reset buffer).Ok where
  lt := by simp [Deframer.reset, gsDataLen]
  closed := fun _ => rfl
  header := fun h => absurd h (by simp [Deframer.reset])

theorem load_header {m : Mem} (h0 : m 0 = gsHeaderI) (h1 : m 1 = gsHeaderII) :
    m.load 0 2 = [gsHeaderI, gsHeaderII] := by
  simp [Mem.load, List.range_succ, h0, h1]

/-- Storing a body byte does not touch the header bytes. -/
theorem store_body_header (m : Mem) (k : ℕ) (bs : List UInt8) {i : ℕ} (hi : i < 2) :
    m.store (2 + k) bs i = m i :=
  Mem.store_outside _ _ _ _ (by omega)

theorem Deframer.Ok.step {s : Deframer} (h : s.Ok) (b : UInt8) :
    (uartReceiveInt s (some b)).1.Ok := by
  rcases uartReceiveInt_cases b h.lt with ⟨-, -, e⟩ | ⟨hf, e⟩ | ⟨hf, hlt, e⟩ | ⟨hf, -, e⟩ <;>
    rw [e]
  · exact ⟨by simp [gsDataLen], fun hc => absurd hc (by simp), fun _ =>
      ⟨Mem.store_inside s.buffer 0 [gsHeaderI, gsHeaderII] 0 (by decide),
        Mem.store_inside s.buffer 0 [gsHeaderI, gsHeaderII] 1 (by decide)⟩⟩
  · exact ⟨h.lt, h.closed, h.header⟩
  · refine ⟨hlt, fun hc => ?_, fun _ => ?_⟩
    · rw [hf] at hc; cases hc
    · simp only [store_body_header _ _ _ (show 0 < 2 by omega),
        store_body_header _ _ _ (show 1 < 2 by omega)]
      exact h.header hf
  · exact ⟨by simp [gsDataLen], fun _ => rfl, fun hc => absurd hc (by simp)⟩

/-! ### Byte strings without a header -/

/-- The header test does not fire while `bs` is received with `prev = c`. -/
def Quiet (c : UInt8) : List UInt8 → Prop
  | [] => True
  | b :: bs => (b = gsHeaderII → c ≠ gsHeaderI) ∧ Quiet (nextPrev c b) bs

theorem quiet_append (c : UInt8) (xs ys : List UInt8) :
    Quiet c (xs ++ ys) ↔ Quiet c xs ∧ Quiet (xs.foldl nextPrev c) ys := by
  induction xs generalizing c with
  | nil => simp [Quiet]
  | cons b xs ih => simp [Quiet, ih, and_assoc]

/-- Two bytes that do not form a header. -/
def NotHeader (a b : UInt8) : Prop := ¬ (a = gsHeaderI ∧ b = gsHeaderII)

instance (a b : UInt8) : Decidable (NotHeader a b) := by
  unfold NotHeader; infer_instance

/-- The header test fires somewhere in `bs` iff the header pair occurs in
`bs` preceded by the remembered byte: bytes `0x55` between a `0xAA` and a
later `0x55` are themselves preceded by that `0xAA`. -/
theorem quiet_iff_isChain (c : UInt8) (bs : List UInt8) :
    Quiet c bs ↔ (c :: bs).IsChain NotHeader := by
  induction bs generalizing c with
  | nil => simp [Quiet]
  | cons b bs ih =>
      simp only [Quiet, List.isChain_cons_cons, ih, NotHeader]
      by_cases hb : b = gsHeaderII
      · subst hb
        simp only [nextPrev, if_true, forall_true_left, and_true]
        refine and_congr_right fun hc => ?_
        -- neither `c` nor `0x55` can start a header with what follows
        cases bs with
        | nil => simp
        | cons b' bs =>
            simp [List.isChain_cons_cons, NotHeader, hc,
              show gsHeaderII ≠ gsHeaderI by decide]
      · simp [nextPrev, hb]

/-! ### A frame body -/

/-- After the header pair the routine is at the start of a frame, whatever
its state was. -/
theorem feed_header (s : Deframer) :
    (s.feed [gsHeaderI, gsHeaderII]).prev = gsHeaderI ∧
    (s.feed [gsHeaderI, gsHeaderII]).frameFlag = true ∧
    (s.feed [gsHeaderI, gsHeaderII]).gsData = 0 ∧
    (s.feed [gsHeaderI, gsHeaderII]).buffer 0 = gsHeaderI ∧
    (s.feed [gsHeaderI, gsHeaderII]).buffer 1 = gsHeaderII := by
  have hprev : (uartReceiveInt s (some gsHeaderI)).1.prev = gsHeaderI := by
    rw [uartReceiveInt_body (fun h => absurd h (by decide)), storeBody_prev]
    rfl
  simp only [Deframer.feed_cons, Deframer.feed_nil, uartReceiveInt_header hprev, hprev]
  simp

/-- Bytes too few to fill the open frame give nothing, whatever they are: a
header among them only makes the frame start over. -/
theorem gives_short (bs : List UInt8) :
    ∀ (s : Deframer) (n : ℕ), s.gsData + bs.length < gsDataLen → s.gives n bs = [] := by
  induction bs with
  | nil => intro s n _; rfl
  | cons b bs ih =>
      intro s n hroom
      simp only [List.length_cons] at hroom
      have hstep : (uartReceiveInt s (some b)).2 = false ∧
          (uartReceiveInt s (some b)).1.gsData ≤ s.gsData + 1 := by
        rcases uartReceiveInt_cases (s := s) b (by omega) with
          ⟨-, -, e⟩ | ⟨-, e⟩ | ⟨-, -, e⟩ | ⟨-, hlast, -⟩
        · simp [e]
        · simp [e]
        · simp [e]
        · omega
      simp only [Deframer.gives, hstep.1]
      simpa using ih _ (n + 1) (by omega)

/-- **Body run.**  Bytes received inside a frame, with no header among them
and not more than the frame still lacks, are appended to the buffer; the
semaphore is given by the byte that fills the frame and by no other. -/
theorem feed_body (bs : List UInt8) :
    ∀ (s : Deframer) (n : ℕ), s.frameFlag = true → Quiet s.prev bs →
      s.gsData + bs.length < gsDataLen →
      s.gives n bs = [] ∧ (s.feed bs).frameFlag = true ∧
      (s.feed bs).gsData = s.gsData + bs.length ∧
      (s.feed bs).prev = bs.foldl nextPrev s.prev ∧
      (s.feed bs).buffer = s.buffer.store (2 + s.gsData) bs := by
  induction bs with
  | nil => intro s n hopen _ _; simp [Deframer.gives, hopen]
  | cons b bs ih =>
      intro s n hopen hquiet hroom
      obtain ⟨hb, hquiet⟩ := hquiet
      simp only [List.length_cons] at hroom
      have hstep := uartReceiveInt_open hb hopen (by omega)
      obtain ⟨hg, hf, hd, hp, hbuf⟩ := ih (uartReceiveInt s (some b)).1 (n + 1)
        (by simp [hstep, hopen]) (by simpa [hstep] using hquiet)
        (by simp only [hstep]; omega)
      refine ⟨?_, hf, ?_, ?_, ?_⟩
      · simp only [Deframer.gives, hg]
        simp [hstep]
      · rw [Deframer.feed_cons, hd, hstep]
        simp only [List.length_cons]
        omega
      · rw [Deframer.feed_cons, hp, hstep]
        rfl
      · rw [Deframer.feed_cons, hbuf, hstep]
        simp only [Mem.update_eq_store]
        rw [show b :: bs = [b] ++ bs from rfl, Mem.store_append]
        rfl

end Lpc1768
