/-
Lpc1768/Deliveries.lean

What the deframer delivers, for any bytes received.  A frame is delivered when
98 bytes have come since its header without another header among them; at that
moment the buffer has the header pair and these bytes, and the next frame can
only be filled from bytes that come later.

The invariant `BodyStored` relates an open frame to the bytes received: the
buffer begins with the header pair and the last `gsData` of them.  A header in
the middle of a frame, even in place of its last byte, makes `gsData` 0 and
starts the relation anew.  `Deframer.written` has the indices that a call writes;
`deliveries_sound` is the statement for every byte string.
-/
import Mathlib.Data.List.DropRight
import Lpc1768.Deframer

namespace Lpc1768

/-! ### The writes of one call -/

/-- The indices of `net_gs_data.buffer` that `uart_receive_int` writes. -/
def Deframer.written (s : Deframer) (rx : Option UInt8) : List ℕ :=
  match rx with
  | none => []
  | some data =>
      if data = gsHeaderII ∧ s.prev = gsHeaderI then [0, 1]
      else if s.frameFlag then [2 + s.gsData]
      else []

/-- The buffer is as it was everywhere else. -/
theorem buffer_of_not_written {s : Deframer} {rx : Option UInt8} {i : ℕ}
    (h : i ∉ s.written rx) : (uartReceiveInt s rx).1.buffer i = s.buffer i := by
  cases rx with
  | none => rfl
  | some b =>
      rw [Deframer.written] at h
      by_cases hhead : b = gsHeaderII ∧ s.prev = gsHeaderI
      · obtain ⟨rfl, hp⟩ := hhead
        rw [if_pos ⟨rfl, hp⟩, List.mem_cons, List.mem_singleton, not_or] at h
        rw [uartReceiveInt_header hp]
        show Function.update (Function.update s.buffer 0 gsHeaderI) 1 gsHeaderII i = _
        rw [Function.update_of_ne h.2, Function.update_of_ne h.1]
      · rw [if_neg hhead] at h
        rw [uartReceiveInt_body fun hb hp => hhead ⟨hb, hp⟩]
        rcases hf : s.frameFlag with - | -
        · simp only [Deframer.storeBody]
          rfl
        · rw [if_pos hf, List.mem_singleton] at h
          simp only [Deframer.storeBody, if_true]
          split
          · exact Function.update_of_ne h _ _
          · exact Function.update_of_ne h _ _

/-- The writes stay inside the frame. -/
theorem Deframer.Ok.written_lt {s : Deframer} (h : s.Ok) (rx : Option UInt8) :
    ∀ i ∈ s.written rx, i < gsPackLen := by
  have hlt := h.lt
  have hpack : gsPackLen = 2 + gsDataLen := rfl
  intro i hi
  cases rx with
  | none => cases hi
  | some b =>
      rw [Deframer.written] at hi
      split_ifs at hi
      · rcases List.mem_pair.mp hi with rfl | rfl <;> decide
      · obtain rfl := List.mem_singleton.mp hi
        omega
      · cases hi

/-! ### The open frame -/

/-- The deframer has received these bytes, oldest first: in an open frame the
buffer begins with the header pair and the last `gsData` of them. -/
structure BodyStored (s : Deframer) (bs : List UInt8) : Prop where
  ok : s.Ok
  room : s.gsData ≤ bs.length
  body : s.frameFlag = true →
    s.buffer.load 0 (2 + s.gsData) = [gsHeaderI, gsHeaderII] ++ bs.rtake s.gsData

theorem bodyStored_reset (buffer : Mem) : BodyStored (.reset buffer) [] where
  ok := ok_reset buffer
  room := Nat.le_refl 0
  body := by rintro ⟨⟩

/-- A body byte is appended. -/
theorem load_store_succ (m : Mem) (n : ℕ) (b : UInt8) :
    (m.store n [b]).load 0 (n + 1) = m.load 0 n ++ [b] := by
  rw [Mem.load_add, Mem.load_store_disjoint _ _ _ _ _ (.inl (by omega)), Nat.zero_add]
  exact congrArg (m.load 0 n ++ ·) (m.load_store_self n [b])

/-- **One byte**: the relation is kept, and a frame that is delivered has the
last 98 bytes. -/
theorem BodyStored.byte {s : Deframer} {bs : List UInt8} (h : BodyStored s bs) (b : UInt8) :
    BodyStored (uartReceiveInt s (some b)).1 (bs ++ [b]) ∧
      ((uartReceiveInt s (some b)).2 = true → gsDataLen ≤ (bs ++ [b]).length ∧
        (uartReceiveInt s (some b)).1.packet =
          [gsHeaderI, gsHeaderII] ++ (bs ++ [b]).rtake gsDataLen) := by
  have hok := h.ok.step b
  have hroom := h.room
  have hlen : (bs ++ [b]).length = bs.length + 1 := List.length_append
  rcases uartReceiveInt_cases b h.ok.lt with
    ⟨-, -, e⟩ | ⟨hf, e⟩ | ⟨hf, -, e⟩ | ⟨hf, hlast, e⟩ <;> rw [e] at hok ⊢
  -- a header: nothing of the frame has come yet
  · refine ⟨⟨hok, Nat.zero_le _, fun _ => ?_⟩, by rintro ⟨⟩⟩
    rw [List.rtake_zero, List.append_nil]
    exact s.buffer.load_store_self 0 [gsHeaderI, gsHeaderII]
  -- between frames
  · refine ⟨⟨hok, ?_, fun ht => ?_⟩, by rintro ⟨⟩⟩
    · show s.gsData ≤ _
      omega
    · cases hf.symm.trans ht
  · refine ⟨⟨hok, ?_, fun _ => ?_⟩, by rintro ⟨⟩⟩
    · show s.gsData + 1 ≤ _
      omega
    · show (s.buffer.store (2 + s.gsData) [b]).load 0 (2 + s.gsData + 1) = _
      rw [load_store_succ, h.body hf, List.append_assoc, ← List.rtake_concat_succ]
  -- the last byte of the frame
  · refine ⟨⟨hok, Nat.zero_le _, by rintro ⟨⟩⟩, fun _ => ⟨by omega, ?_⟩⟩
    show (s.buffer.store (2 + s.gsData) [b]).load 0 gsPackLen = _
    rw [show gsPackLen = 2 + s.gsData + 1 by rw [Nat.add_assoc, hlast]; rfl, load_store_succ,
      h.body hf, List.append_assoc, ← List.rtake_concat_succ, hlast]

/-- The states reached. -/
theorem BodyStored.feed {s : Deframer} {rcv : List UInt8} (h : BodyStored s rcv)
    (bs : List UInt8) : BodyStored (s.feed bs) (rcv ++ bs) := by
  induction bs generalizing s rcv with
  | nil =>
      rw [List.append_nil]
      exact h
  | cons b bs ih =>
      rw [Deframer.feed_cons, List.append_cons]
      exact ih (h.byte b).1

/-! ### Deliveries -/

/-- The 98 bytes that end with byte number `n`. -/
def payloadAt (bs : List UInt8) (n : ℕ) : List UInt8 := (bs.take (n + 1)).rtake gsDataLen

/-- Every frame delivered has the header pair and the last 98 bytes. -/
theorem BodyStored.gives {s : Deframer} {rcv : List UInt8} (h : BodyStored s rcv)
    (bs : List UInt8) :
    ∀ g ∈ s.gives rcv.length bs, gsDataLen ≤ g.1 + 1 ∧
      g.2 = [gsHeaderI, gsHeaderII] ++ payloadAt (rcv ++ bs) g.1 := by
  induction bs generalizing s rcv with
  | nil => rintro g ⟨⟩
  | cons b bs ih =>
      obtain ⟨hnext, hgive⟩ := h.byte b
      have hlen : rcv.length + 1 = (rcv ++ [b]).length := by
        rw [List.length_append, List.length_singleton]
      have hrest := ih hnext
      rw [← List.append_cons, ← hlen] at hrest
      rw [Deframer.gives]
      rcases hg : (uartReceiveInt s (some b)).2 with - | -
      · exact hrest
      · intro g hmem
        rcases List.mem_cons.mp hmem with rfl | hmem
        · obtain ⟨hfull, hpacket⟩ := hgive hg
          refine ⟨hlen ▸ hfull, ?_⟩
          rw [payloadAt, List.append_cons, hlen, List.take_left]
          exact hpacket
        · exact hrest g hmem

/-- The count goes up by at most one, and a delivery is where it is full. -/
theorem uartReceiveInt_count {s : Deframer} (b : UInt8) (hlt : s.gsData < gsDataLen) :
    (uartReceiveInt s (some b)).1.gsData < gsDataLen ∧
      (uartReceiveInt s (some b)).1.gsData ≤ s.gsData + 1 ∧
      ((uartReceiveInt s (some b)).2 = true →
        s.gsData + 1 = gsDataLen ∧ (uartReceiveInt s (some b)).1.gsData = 0) := by
  have hpos : 0 < gsDataLen := by decide
  rcases uartReceiveInt_cases b hlt with ⟨-, -, e⟩ | ⟨-, e⟩ | ⟨-, hroom, e⟩ | ⟨-, hlast, e⟩ <;>
    rw [e]
  · exact ⟨hpos, Nat.zero_le _, by rintro ⟨⟩⟩
  · exact ⟨hlt, Nat.le_succ _, by rintro ⟨⟩⟩
  · exact ⟨hroom, Nat.le_refl _, by rintro ⟨⟩⟩
  · exact ⟨hpos, Nat.zero_le _, fun _ => ⟨hlast, rfl⟩⟩

/-- The bytes that the open frame lacks have to come first. -/
theorem gives_later (bs : List UInt8) :
    ∀ (s : Deframer) (n : ℕ), s.gsData < gsDataLen →
      ∀ g ∈ s.gives n bs, n + gsDataLen ≤ g.1 + 1 + s.gsData := by
  induction bs with
  | nil => rintro s n - g ⟨⟩
  | cons b bs ih =>
      intro s n hlt g hg
      obtain ⟨hnext, hle, hgive⟩ := uartReceiveInt_count b hlt
      have hrest := ih _ (n + 1) hnext
      rw [Deframer.gives] at hg
      rcases hr : (uartReceiveInt s (some b)).2 with - | -
      · rw [hr] at hg
        have := hrest g hg
        omega
      · obtain ⟨hfull, hzero⟩ := hgive hr
        rw [hr] at hg
        rcases List.mem_cons.mp hg with rfl | hg
        · show n + gsDataLen ≤ n + 1 + s.gsData
          omega
        · have := hrest g hg
          omega

/-- Two deliveries are at least 98 bytes apart. -/
theorem gives_apart (bs : List UInt8) :
    ∀ (s : Deframer) (n : ℕ), s.gsData < gsDataLen →
      (s.gives n bs).Pairwise fun g h => g.1 + gsDataLen ≤ h.1 := by
  induction bs with
  | nil => exact fun _ _ _ => .nil
  | cons b bs ih =>
      intro s n hlt
      obtain ⟨hnext, -, hgive⟩ := uartReceiveInt_count b hlt
      have hrest := ih _ (n + 1) hnext
      rw [Deframer.gives]
      rcases hr : (uartReceiveInt s (some b)).2 with - | -
      · exact hrest
      · refine .cons (fun g hg => ?_) hrest
        -- the frame has been closed, so all bytes of the next one are still to come
        have := gives_later bs _ (n + 1) hnext g hg
        rw [(hgive hr).2] at this
        show n + gsDataLen ≤ g.1
        omega

/-- **The deframer's buffer.**  Whatever is received, the count and the flag
agree and no write leaves the first 100 bytes of the buffer; every frame delivered
is the header pair and the last 98 bytes, and the bytes of two frames are disjoint
segments of the input. -/
theorem deliveries_sound (buffer : Mem) (bs : List UInt8) :
    (((Deframer.reset buffer).feed bs).gsData < gsDataLen ∧
      (((Deframer.reset buffer).feed bs).frameFlag = false →
        ((Deframer.reset buffer).feed bs).gsData = 0) ∧
      ∀ rx, ∀ i ∈ ((Deframer.reset buffer).feed bs).written rx, i < gsPackLen) ∧
    (∀ g ∈ (Deframer.reset buffer).gives 0 bs, gsDataLen ≤ g.1 + 1 ∧
      g.2 = [gsHeaderI, gsHeaderII] ++ payloadAt bs g.1) ∧
    ((Deframer.reset buffer).gives 0 bs).Pairwise fun g h => g.1 + gsDataLen ≤ h.1 := by
  have hstart := bodyStored_reset buffer
  have hok := (hstart.feed bs).ok
  exact ⟨⟨hok.lt, hok.closed, fun rx => hok.written_lt rx⟩, hstart.gives bs,
    gives_apart bs _ 0 hstart.ok.lt⟩

end Lpc1768
