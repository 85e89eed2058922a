/-
Lpc1768/Framing.lean

Framing and deframing.  A sender puts the header pair in front of each 98-byte
payload; the deframer should hand every frame back, on its last byte, and
nothing else.

This holds exactly for payloads that do not begin with `0x55`
(`deframe_iff`).  A payload free of the header pair may still begin with
`0x55`: `prev` keeps the `0xAA` of the header it has just completed, so that
byte completes a second header, the frame starts over one byte late and is
never filled (`gives_frame_restart`).

What came before does not matter: a header puts the deframer at the start of a
frame from any state (`gives_payload_iff`).
-/
import Lpc1768.Deframer

namespace Lpc1768

/-! ### Frames -/

/-- A frame body: 98 bytes without the header pair among them. -/
structure Payload where
  bytes : List UInt8
  length_eq : bytes.length = gsDataLen
  headerFree : bytes.IsChain NotHeader

/-- The frame sent for a payload. -/
def frame (p : Payload) : List UInt8 :=
  gsHeaderI :: gsHeaderII :: p.bytes

/-- Every frame once, in order, each at the position of its last byte; `n` is
the position of the first byte. -/
def onLastByte (n : ℕ) : List Payload → List (ℕ × List UInt8)
  | [] => []
  | p :: ps => (n + gsPackLen - 1, frame p) :: onLastByte (n + gsPackLen) ps

theorem length_frame (p : Payload) : (frame p).length = gsPackLen := by
  simp [frame, p.length_eq, gsPackLen, gsHeaderLen, gsDataLen]

/-! ### One frame -/

/-- The buffer after a whole frame is the frame. -/
theorem load_frame {m : Mem} (p : Payload) (h0 : m 0 = gsHeaderI) (h1 : m 1 = gsHeaderII) :
    (m.store 2 p.bytes).load 0 gsPackLen = frame p := by
  have hframe : frame p = m.load 0 2 ++ p.bytes := by
    rw [load_header h0 h1]
    rfl
  have hm : m.store 2 p.bytes = m.store 0 (frame p) := by
    rw [hframe, Mem.store_append, Mem.store_load, Mem.length_load]
  rw [hm, Mem.load_store _ _ _ _ (Nat.le_of_eq (length_frame p).symm), ← length_frame p,
    List.take_length]

/-- The header of a frame received between frames gives nothing. -/
theorem gives_header {s : Deframer} (n : ℕ) (hs : s.frameFlag = false) :
    s.gives n [gsHeaderI, gsHeaderII] = [] := by
  have h1 := uartReceiveInt_closed (s := s) (b := gsHeaderI)
    (fun h => absurd h (by decide)) hs
  have h2 := uartReceiveInt_header (s := { s with prev := gsHeaderI }) rfl
  simp [Deframer.gives, h1, nextPrev, show gsHeaderI ≠ gsHeaderII by decide, h2]

/-- A body without a header in it, received at the start of a frame, is given
on its last byte and closes the frame. -/
theorem gives_body {s : Deframer} (n : ℕ) (p : Payload) (hopen : s.frameFlag = true)
    (hstart : s.gsData = 0) (h0 : s.buffer 0 = gsHeaderI) (h1 : s.buffer 1 = gsHeaderII)
    (hquiet : Quiet s.prev p.bytes) :
    s.gives n p.bytes = [(n + gsDataLen - 1, frame p)] ∧
      (s.feed p.bytes).frameFlag = false := by
  have hlen := p.length_eq
  obtain ⟨bs, b, hsplit⟩ : ∃ bs b, p.bytes = bs ++ [b] := by
    rcases List.eq_nil_or_concat p.bytes with h | ⟨bs, b, h⟩
    · simp [h, gsDataLen] at hlen
    · exact ⟨bs, b, by simpa using h⟩
  have hbs : bs.length + 1 = gsDataLen := by simpa [hsplit] using hlen
  rw [hsplit, quiet_append] at hquiet
  -- all bytes but the last are stored, the last one closes the frame
  obtain ⟨hg, hf, hd, hp, hbuf⟩ := feed_body bs s n hopen hquiet.1 (by omega)
  have hlast := uartReceiveInt_last (s := s.feed bs) (b := b)
    (by rw [hp]; exact hquiet.2.1) hf (by omega)
  have hpacket : ((s.feed bs).buffer.store (2 + (s.feed bs).gsData) [b]).load 0 gsPackLen
      = frame p := by
    rw [hbuf, hd, hstart, Nat.zero_add, Nat.add_zero, ← Mem.store_append, ← hsplit]
    exact load_frame p h0 h1
  rw [hsplit, Deframer.gives_append, Deframer.feed_append, hg]
  simp only [Deframer.gives, Deframer.feed_cons, Deframer.feed_nil, hlast,
    Mem.update_eq_store, Deframer.packet, hpacket]
  refine ⟨?_, trivial⟩
  simp only [if_true, List.nil_append, List.cons.injEq, Prod.mk.injEq, and_true]
  omega

/-- **One frame.**  A frame whose body never completes a header is given on
its last byte, and leaves the deframer between frames. -/
theorem gives_frame {s : Deframer} (n : ℕ) (p : Payload) (hs : s.frameFlag = false)
    (hquiet : Quiet gsHeaderI p.bytes) :
    s.gives n (frame p) = [(n + gsPackLen - 1, frame p)] ∧
      (s.feed (frame p)).frameFlag = false := by
  obtain ⟨hprev, hopen, hstart, h0, h1⟩ := feed_header s
  obtain ⟨hg, hclosed⟩ := gives_body (n + 2) p hopen hstart h0 h1 (by rwa [hprev])
  have hsplit : frame p = [gsHeaderI, gsHeaderII] ++ p.bytes := rfl
  refine ⟨?_, ?_⟩
  · rw [hsplit, Deframer.gives_append, gives_header n hs, ← hsplit]
    show [] ++ (s.feed [gsHeaderI, gsHeaderII]).gives (n + 2) p.bytes = _
    rw [hg]
    simp only [List.nil_append, gsPackLen, gsHeaderLen, gsDataLen]
  · rw [hsplit, Deframer.feed_append]
    exact hclosed

/-- A frame whose body begins with `0x55` is not given at all: that byte
completes a second header, after which 97 bytes are too few. -/
theorem gives_frame_restart {s : Deframer} (n : ℕ) (p : Payload) (hs : s.frameFlag = false)
    (hhead : p.bytes.head? = some gsHeaderII) : s.gives n (frame p) = [] := by
  have hlen := p.length_eq
  obtain ⟨bs, hsplit⟩ : ∃ bs, p.bytes = gsHeaderII :: bs := by
    rcases h : p.bytes with - | ⟨b, bs⟩
    · simp [h] at hhead
    · rw [h] at hhead
      exact ⟨bs, by simpa using hhead⟩
  obtain ⟨hprev, -, -, -, -⟩ := feed_header s
  have hagain := uartReceiveInt_header hprev
  have hframe : frame p = [gsHeaderI, gsHeaderII] ++ gsHeaderII :: bs := by
    rw [← hsplit]; rfl
  rw [hframe, Deframer.gives_append, gives_header n hs]
  simp only [Deframer.gives, hagain]
  simpa using gives_short bs _ _ (by simp [hsplit] at hlen; simp only; omega)

/-- A body that is free of the header pair and does not begin with `0x55`
never completes a header inside a frame. -/
theorem quiet_payload_iff (p : Payload) :
    Quiet gsHeaderI p.bytes ↔ p.bytes.head? ≠ some gsHeaderII := by
  rw [quiet_iff_isChain]
  have hfree := p.headerFree
  rcases h : p.bytes with - | ⟨b, bs⟩
  · simp
  · rw [h] at hfree
    simp [List.isChain_cons_cons, hfree, NotHeader]

/-! ### Resynchronisation -/

/-- Bytes that complete a header and are no more than the frame still lacks give
nothing: the header leaves too few of them behind it. -/
theorem gives_restarted (bs : List UInt8) :
    ∀ (s : Deframer) (n : ℕ), s.gsData + bs.length ≤ gsDataLen → ¬ Quiet s.prev bs →
      s.gives n bs = [] := by
  induction bs with
  | nil => intro s n _ hloud; exact absurd trivial hloud
  | cons b bs ih =>
      intro s n hroom hloud
      simp only [List.length_cons] at hroom
      by_cases hb : b = gsHeaderII → s.prev ≠ gsHeaderI
      · -- the header comes later, so `b` is not the last byte
        have hrest : ¬ Quiet (nextPrev s.prev b) bs := fun h => hloud ⟨hb, h⟩
        have hpos : 0 < bs.length := by
          rcases bs with - | ⟨c, cs⟩
          · exact absurd trivial hrest
          · simp
        have hstep : (uartReceiveInt s (some b)).2 = false ∧
            (uartReceiveInt s (some b)).1.gsData ≤ s.gsData + 1 ∧
            (uartReceiveInt s (some b)).1.prev = nextPrev s.prev b := by
          rcases Bool.eq_false_or_eq_true s.frameFlag with hf | hf
          · rw [uartReceiveInt_open hb hf (by omega)]
            exact ⟨rfl, Nat.le_refl _, rfl⟩
          · rw [uartReceiveInt_closed hb hf]
            exact ⟨rfl, Nat.le_succ _, rfl⟩
        obtain ⟨hgive, hdata, hprev⟩ := hstep
        simp only [Deframer.gives, hgive]
        exact ih _ _ (by omega) (by rw [hprev]; exact hrest)
      · obtain ⟨rfl, hp⟩ := not_forall_not.mp hb
        simp only [Deframer.gives, uartReceiveInt_header hp]
        exact gives_short bs _ _ (by simp only; omega)

/-- **Transparency and resynchronisation.**  Whatever the state, a header and 98
bytes after it are given on the last byte exactly if these bytes neither begin
with `0x55` nor contain the header pair. -/
theorem gives_payload_iff (s : Deframer) (p : List UInt8) (hp : p.length = gsDataLen) :
    (gsPackLen - 1, gsHeaderI :: gsHeaderII :: p) ∈ s.gives 0 (gsHeaderI :: gsHeaderII :: p) ↔
      p.head? ≠ some gsHeaderII ∧ p.IsChain NotHeader := by
  obtain ⟨hprev, hopen, hstart, h0, h1⟩ := feed_header s
  have hquiet : Quiet gsHeaderI p ↔ p.head? ≠ some gsHeaderII ∧ p.IsChain NotHeader := by
    rw [quiet_iff_isChain]
    rcases p with - | ⟨b, bs⟩
    · simp
    · simp [List.isChain_cons_cons, NotHeader]
  rw [← hquiet, show gsHeaderI :: gsHeaderII :: p = [gsHeaderI, gsHeaderII] ++ p from rfl,
    Deframer.gives_append, List.mem_append]
  constructor
  · rintro (hhead | hbody)
    · -- too early: the header has two bytes
      have hpos := (Deframer.gives_position _ _ _ _ hhead).2
      simp [gsPackLen, gsHeaderLen, gsDataLen] at hpos
    · by_contra hloud
      rw [gives_restarted p _ _ (by omega) (by rwa [hprev])] at hbody
      cases hbody
  · intro hq
    obtain ⟨-, hfree⟩ := hquiet.mp hq
    obtain ⟨hg, -⟩ := gives_body (0 + [gsHeaderI, gsHeaderII].length) ⟨p, hp, hfree⟩ hopen hstart
      h0 h1 (by rwa [hprev])
    right
    rw [hg]
    exact List.mem_singleton_self _

/-- A frame of zeros after a frame that was cut off. -/
theorem gives_payload_zeros :
    (gsPackLen - 1, gsHeaderI :: gsHeaderII :: List.replicate 98 0) ∈
      ((Deframer.reset fun _ => 0).feed [gsHeaderI, gsHeaderII, 1, 2, 3]).gives 0
        (gsHeaderI :: gsHeaderII :: List.replicate 98 0) :=
  (gives_payload_iff _ _ (by decide)).mpr ⟨by decide, by decide +kernel⟩

/-! ### A stream of frames -/

/-- **Deframing undoes framing, exactly when no payload begins with `0x55`.**
For every list of payloads free of the header pair, received byte by byte
from the reset state. -/
theorem deframe_iff (buffer : Mem) (ps : List Payload) :
    (Deframer.reset buffer).gives 0 (ps.flatMap frame) = onLastByte 0 ps ↔
      ∀ p ∈ ps, p.bytes.head? ≠ some gsHeaderII := by
  suffices h : ∀ (s : Deframer) (n : ℕ), s.frameFlag = false →
      (s.gives n (ps.flatMap frame) = onLastByte n ps ↔
        ∀ p ∈ ps, p.bytes.head? ≠ some gsHeaderII) from h _ 0 rfl
  induction ps with
  | nil => intro s n _; simp [Deframer.gives, onLastByte]
  | cons p ps ih =>
      intro s n hs
      rw [List.flatMap_cons, Deframer.gives_append, List.forall_mem_cons]
      by_cases hp : p.bytes.head? = some gsHeaderII
      · -- the frame of `p` gives nothing, and what follows comes too late
        rw [gives_frame_restart n p hs hp, List.nil_append]
        refine iff_of_false (fun heq => ?_) (fun hall => hall.1 hp)
        have hmem : (n + gsPackLen - 1, frame p) ∈
            (s.feed (frame p)).gives (n + (frame p).length) (ps.flatMap frame) := by
          rw [heq]
          exact List.mem_cons_self
        have hpos := (Deframer.gives_position _ _ _ _ hmem).1
        simp only [length_frame, gsPackLen, gsHeaderLen, gsDataLen] at hpos
        omega
      · obtain ⟨hg, hclosed⟩ := gives_frame n p hs ((quiet_payload_iff p).mpr hp)
        rw [hg, length_frame]
        simp only [onLastByte, List.singleton_append, List.cons.injEq, true_and]
        rw [ih _ _ hclosed]
        exact ⟨fun h => ⟨hp, h⟩, fun h => h.2⟩

/-- The payload `0x55, 0, …, 0`, which is free of the header pair. -/
def payload55 : Payload where
  bytes := gsHeaderII :: List.replicate 97 0
  length_eq := by decide
  headerFree := by decide +kernel

/-- Framing the payload `0x55, 0, …, 0` is not undone. -/
theorem deframe_payload55 :
    (Deframer.reset fun _ => 0).gives 0 ([payload55].flatMap frame) ≠
      onLastByte 0 [payload55] := by
  have hlost : (Deframer.reset fun _ => 0).gives 0 (frame payload55) = [] :=
    gives_frame_restart 0 payload55 rfl rfl
  rw [List.flatMap_singleton, hlost]
  simp [onLastByte]

end Lpc1768
