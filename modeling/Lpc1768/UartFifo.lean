/-
Lpc1768/UartFifo.lean

UART0 as `UART0_IRQHandler` meets it: a receive FIFO of 16 characters, of which
each may have a parity error, a framing error or a break.  LSR shows the errors
of the oldest character until it has been read once; the character itself stays
until RBR is read.  Line status comes before received data in IIR, so a faulty
character costs one invocation that only reads LSR, and the next one takes it
like any other (`fault_taken_next`).

To say of a frame what its characters were, `RxDeframer` is the deframer with
characters in place of bytes; forgetting the errors gives back
`uartReceiveInt` (`receiveInt_bytes`).  The frames that the semaphore is given
for are then found in the sequence of the characters read
(`TracksChars.char`), which is the sequence that the FIFO took
(`read_in_order`), and `frames_clean_iff` says for which sequences they have no
errors.
-/
import Lpc1768.StartUp

namespace Lpc1768

/-! ### The registers -/

/-- A received character, with what the receiver found wrong with it. -/
structure RxChar where
  data : UInt8
  pe : Bool
  fe : Bool
  bi : Bool
  deriving DecidableEq, Repr

/-- The character has a line error. -/
def RxChar.err (c : RxChar) : Bool := c.pe || c.fe || c.bi

/-- `UART_LSR_RDR` and the other bits of LSR that receiving sets. -/
def uartLsrRdr : BitVec 8 := 1 <<< 0
def uartLsrOe : BitVec 8 := 1 <<< 1
def uartLsrPe : BitVec 8 := 1 <<< 2
def uartLsrFe : BitVec 8 := 1 <<< 3
def uartLsrBi : BitVec 8 := 1 <<< 4
def uartLsrRxfe : BitVec 8 := 1 <<< 7

/-- `UART_IIR_INTSTAT_PEND` (active low) and the interrupts in IIR. -/
def uartIirIntstatPend : BitVec 32 := 1 <<< 0
def uartIirIntidRls : BitVec 32 := 3 <<< 1
def uartIirIntidRda : BitVec 32 := 2 <<< 1
def uartIirIntidCti : BitVec 32 := 6 <<< 1
def uartIirIntidMask : BitVec 32 := 7 <<< 1
def uartIirFifoEn : BitVec 32 := 3 <<< 6

/-- The FIFO holds 16 characters. -/
def rxFifoSize : ℕ := 16

/-- The receiver of UART0.  `fifo` has the oldest character first; `reported`
says that LSR has been read since that one is at the head, `oe` that a character
was lost since LSR was read.  `level` is the trigger level. -/
structure Uart where
  level : ℕ
  fifo : List RxChar
  reported : Bool
  oe : Bool
  deriving DecidableEq, Repr

/-- The character whose errors LSR shows. -/
def Uart.shown (u : Uart) : Option RxChar :=
  if u.reported then none else u.fifo.head?

/-- LSR with these bits. -/
def lsrBits (rdr oe pe fe bi rxfe : Bool) : BitVec 8 :=
  (if rdr then uartLsrRdr else 0) ||| (if oe then uartLsrOe else 0) |||
    (if pe then uartLsrPe else 0) ||| (if fe then uartLsrFe else 0) |||
    (if bi then uartLsrBi else 0) ||| (if rxfe then uartLsrRxfe else 0)

/-- LSR without the bits of the transmitter, which its readers mask out. -/
def Uart.lsr (u : Uart) : BitVec 8 :=
  lsrBits (!u.fifo.isEmpty) u.oe (u.shown.any (·.pe)) (u.shown.any (·.fe))
    (u.shown.any (·.bi)) ((if u.reported then u.fifo.tail else u.fifo).any (·.err))

/-- LSR is read. -/
def Uart.readLsr (u : Uart) : BitVec 8 × Uart :=
  (u.lsr, { u with reported := !u.fifo.isEmpty, oe := false })

/-- RBR is read: the oldest character leaves. -/
def Uart.readRbr (u : Uart) : Option RxChar × Uart :=
  (u.fifo.head?, { u with fifo := u.fifo.tail, reported := false })

/-- IIR with the two interrupts that `vUartInit` enables; `timeout` says that
the character time-out has run down. -/
def Uart.iir (u : Uart) (timeout : Bool) : BitVec 32 :=
  uartIirFifoEn |||
    if u.lsr &&& (uartLsrOe ||| uartLsrPe ||| uartLsrFe ||| uartLsrBi) ≠ 0 then uartIirIntidRls
    else if u.level ≤ u.fifo.length then uartIirIntidRda
    else if timeout && !u.fifo.isEmpty then uartIirIntidCti
    else uartIirIntstatPend

/-- The receiver has a character; it is lost when the FIFO is full. -/
def Uart.char (u : Uart) (c : RxChar) : Uart :=
  if u.fifo.length < rxFifoSize then { u with fifo := u.fifo ++ [c] } else { u with oe := true }

/-! ### The driver -/

/-- `UART_GetIntId`. -/
def uartGetIntId (u : Uart) (timeout : Bool) : BitVec 32 := u.iir timeout &&& 0x03CF

/-- `UART_Receive` with `NONE_BLOCKING`, for `n` bytes.  It yields the characters
whose `data` it writes to `rxbuf`. -/
def uartReceive (u : Uart) : ℕ → List RxChar × Uart
  | 0 => ([], u)
  | n + 1 =>
      let lsr := u.readLsr
      if lsr.1 &&& uartLsrRdr = 0 then ([], lsr.2)
      else
        let rbr := lsr.2.readRbr
        let rest := uartReceive rbr.2 n
        (rbr.1.toList ++ rest.1, rest.2)

/-! ### The deframer on characters -/

/-- The statics of `uart_receive_int` and `net_gs_data.buffer`, with the
characters that their bytes are from. -/
structure RxDeframer where
  prev : RxChar
  frameFlag : Bool
  gsData : ℕ
  buffer : ℕ → RxChar

def RxDeframer.storeBody (s : RxDeframer) (c : RxChar) : RxDeframer × Bool :=
  if s.frameFlag then
    let buffer := Function.update s.buffer (2 + s.gsData) c
    let gsData := u8 (s.gsData + 1)
    if gsData ≥ gsDataLen then
      ({ s with buffer := buffer, gsData := 0, frameFlag := false }, true)
    else
      ({ s with buffer := buffer, gsData := gsData }, false)
  else (s, false)

/-- `uart_receive_int` after `UART_Receive`. -/
def RxDeframer.receiveInt (s : RxDeframer) (rx : Option RxChar) : RxDeframer × Bool :=
  match rx with
  | none => (s, false)
  | some c =>
      if c.data = gsHeaderII then
        if s.prev.data = gsHeaderI then
          let buffer := Function.update (Function.update s.buffer 0 s.prev) 1 c
          ({ s with buffer := buffer, frameFlag := true, gsData := 0 }, false)
        else s.storeBody c
      else { s with prev := c }.storeBody c

/-- The state before the first character; what is in the buffer has no errors. -/
def RxDeframer.reset (buffer : Mem) : RxDeframer where
  prev := ⟨0, false, false, false⟩
  frameFlag := false
  gsData := 0
  buffer i := ⟨buffer i, false, false, false⟩

/-- The bytes only. -/
def RxDeframer.bytes (s : RxDeframer) : Deframer where
  prev := s.prev.data
  frameFlag := s.frameFlag
  gsData := s.gsData
  buffer i := (s.buffer i).data

/-- The first `n` characters of the buffer. -/
def RxDeframer.load (s : RxDeframer) (n : ℕ) : List RxChar := (List.range n).map s.buffer

/-- A frame is sent with the bytes of its characters. -/
theorem load_packet (s : RxDeframer) :
    (s.load gsPackLen).map RxChar.data = s.bytes.packet := by
  rw [RxDeframer.load, List.map_map, Deframer.packet, Mem.load]
  apply List.map_congr_left
  intro i _
  rw [Nat.zero_add]
  rfl

theorem update_data (m : ℕ → RxChar) (i : ℕ) (c : RxChar) :
    (fun j => (Function.update m i c j).data) = Function.update (fun j => (m j).data) i c.data := by
  funext j
  exact Function.apply_update (fun _ => RxChar.data) m i c j

theorem storeBody_bytes (s : RxDeframer) (c : RxChar) :
    (s.storeBody c).1.bytes = (s.bytes.storeBody c.data).1 ∧
      (s.storeBody c).2 = (s.bytes.storeBody c.data).2 := by
  rw [RxDeframer.storeBody, Deframer.storeBody]
  by_cases hopen : s.frameFlag = true
  · rw [if_pos hopen, if_pos (show s.bytes.frameFlag = true from hopen)]
    by_cases hfull : u8 (s.gsData + 1) ≥ gsDataLen
    · rw [if_pos hfull, if_pos (show u8 (s.bytes.gsData + 1) ≥ gsDataLen from hfull)]
      exact ⟨by simp only [RxDeframer.bytes, update_data], rfl⟩
    · rw [if_neg hfull, if_neg (show ¬ u8 (s.bytes.gsData + 1) ≥ gsDataLen from hfull)]
      exact ⟨by simp only [RxDeframer.bytes, update_data], rfl⟩
  · rw [if_neg hopen, if_neg (show s.bytes.frameFlag ≠ true from hopen)]
    exact ⟨rfl, rfl⟩

/-- **The deframer does not see the errors.** -/
theorem receiveInt_bytes (s : RxDeframer) (rx : Option RxChar) :
    (s.receiveInt rx).1.bytes = (uartReceiveInt s.bytes (rx.map RxChar.data)).1 ∧
      (s.receiveInt rx).2 = (uartReceiveInt s.bytes (rx.map RxChar.data)).2 := by
  cases rx with
  | none => exact ⟨rfl, rfl⟩
  | some c =>
      simp only [RxDeframer.receiveInt, Option.map_some, uartReceiveInt]
      by_cases hd : c.data = gsHeaderII
      · rw [if_pos hd, if_pos hd]
        by_cases hp : s.prev.data = gsHeaderI
        · rw [if_pos hp, if_pos (show s.bytes.prev = gsHeaderI from hp)]
          exact ⟨by simp only [RxDeframer.bytes, update_data], rfl⟩
        · rw [if_neg hp, if_neg (show s.bytes.prev ≠ gsHeaderI from hp)]
          exact storeBody_bytes s c
      · rw [if_neg hd, if_neg hd]
        exact storeBody_bytes _ c

/-- The character in `prev` after one that completes no header. -/
def nextChar (prev c : RxChar) : RxChar := if c.data = gsHeaderII then prev else c

theorem receiveInt_body {s : RxDeframer} {c : RxChar}
    (h : c.data = gsHeaderII → s.prev.data ≠ gsHeaderI) :
    s.receiveInt (some c) = { s with prev := nextChar s.prev c }.storeBody c := by
  by_cases hd : c.data = gsHeaderII
  · simp [RxDeframer.receiveInt, nextChar, hd, h hd]
  · simp [RxDeframer.receiveInt, nextChar, hd]

/-- **What one character does**, as `uartReceiveInt_cases` has it for bytes. -/
theorem receiveInt_cases {s : RxDeframer} (c : RxChar) (hlt : s.gsData < gsDataLen) :
    (s.prev.data = gsHeaderI ∧ c.data = gsHeaderII ∧
      s.receiveInt (some c) =
        ({ s with
            buffer := Function.update (Function.update s.buffer 0 s.prev) 1 c
            frameFlag := true
            gsData := 0 }, false)) ∨
    (s.frameFlag = false ∧
      s.receiveInt (some c) = ({ s with prev := nextChar s.prev c }, false)) ∨
    (s.frameFlag = true ∧ s.gsData + 1 < gsDataLen ∧
      s.receiveInt (some c) =
        ({ s with
            prev := nextChar s.prev c
            buffer := Function.update s.buffer (2 + s.gsData) c
            gsData := s.gsData + 1 }, false)) ∨
    (s.frameFlag = true ∧ s.gsData + 1 = gsDataLen ∧
      s.receiveInt (some c) =
        ({ s with
            prev := nextChar s.prev c
            buffer := Function.update s.buffer (2 + s.gsData) c
            gsData := 0
            frameFlag := false }, true)) := by
  by_cases hb : c.data = gsHeaderII → s.prev.data ≠ gsHeaderI
  · right
    rw [receiveInt_body hb]
    have hu : u8 ((s.gsData : ℤ) + 1) = s.gsData + 1 :=
      u8_of_lt (n := s.gsData + 1) (by simp only [gsDataLen] at hlt; omega)
    rcases hf : s.frameFlag with - | -
    · exact .inl ⟨rfl, by simp [RxDeframer.storeBody]⟩
    rcases Nat.lt_or_ge (s.gsData + 1) gsDataLen with hroom | hfull
    · exact .inr (.inl ⟨rfl, hroom, by simp [RxDeframer.storeBody, hu, hroom]⟩)
    · exact .inr (.inr ⟨rfl, by omega, by simp [RxDeframer.storeBody, hu, hfull]⟩)
  · obtain ⟨hd, hp⟩ := not_forall_not.mp hb
    exact .inl ⟨hp, hd, by simp [RxDeframer.receiveInt, hd, hp]⟩

/-! ### Frames among the characters taken -/

/-- Of the characters, latest first, the last `n` ones, the one before, and the
last one before that which is not `0x55`: a frame with `n` body characters, if
that is where its header was. -/
def frameOf (n : ℕ) (cs : List RxChar) : List RxChar :=
  ((cs.drop (n + 1)).dropWhile (·.data = gsHeaderII)).head?.toList ++ (cs.take (n + 1)).reverse

theorem frameOf_succ (n : ℕ) (c : RxChar) (cs : List RxChar) :
    frameOf (n + 1) (c :: cs) = frameOf n cs ++ [c] := by
  rw [frameOf, frameOf, List.drop_succ_cons, List.take_succ_cons, List.reverse_cons,
    List.append_assoc]

/-- The deframer has taken these characters, latest first. -/
structure TracksChars (d : RxDeframer) (cs : List RxChar) : Prop where
  tracks : Tracks d.bytes (cs.map RxChar.data)
  prev : d.prev.data = gsHeaderI →
    (cs.dropWhile (·.data = gsHeaderII)).head? = some d.prev
  body : d.frameFlag = true → d.load (2 + d.gsData) = frameOf d.gsData cs

theorem tracksChars_reset (buffer : Mem) : TracksChars (.reset buffer) [] where
  tracks := tracks_reset buffer
  prev := by rintro ⟨⟩
  body := by rintro ⟨⟩

/-- `prev` is the last character other than `0x55`. -/
theorem TracksChars.nextChar {d : RxDeframer} {cs : List RxChar} (h : TracksChars d cs)
    (c : RxChar) (hp : (nextChar d.prev c).data = gsHeaderI) :
    ((c :: cs).dropWhile (·.data = gsHeaderII)).head? = some (nextChar d.prev c) := by
  unfold Lpc1768.nextChar at hp ⊢
  by_cases hc : c.data = gsHeaderII
  · rw [if_pos hc] at hp ⊢
    rw [List.dropWhile_cons_of_pos (by simpa using hc)]
    exact h.prev hp
  · rw [if_neg hc, List.dropWhile_cons_of_neg (by simpa using hc), List.head?_cons]

/-- A body character is appended to what the buffer holds of the frame. -/
theorem load_update (m : ℕ → RxChar) (n : ℕ) (c : RxChar) :
    (List.range (n + 1)).map (Function.update m n c) = (List.range n).map m ++ [c] := by
  rw [List.range_succ, List.map_append, List.map_singleton, Function.update_self]
  congr 1
  apply List.map_congr_left
  intro i hi
  exact Function.update_of_ne (Nat.ne_of_lt (List.mem_range.mp hi)) _ _

/-- **One character**: the deframer stays in step, and where the semaphore is
given, the buffer has the frame that these characters end in. -/
theorem TracksChars.char {d : RxDeframer} {cs : List RxChar} (h : TracksChars d cs) (c : RxChar) :
    TracksChars (d.receiveInt (some c)).1 (c :: cs) ∧
      ((d.receiveInt (some c)).2 = true →
        (d.receiveInt (some c)).1.load gsPackLen = frameOf gsDataLen (c :: cs)) := by
  have htracks : Tracks (d.receiveInt (some c)).1.bytes ((c :: cs).map RxChar.data) := by
    rw [(receiveInt_bytes d (some c)).1]
    exact (h.tracks.byte c.data).1
  rcases receiveInt_cases c h.tracks.lt with
    ⟨hp, hc, e⟩ | ⟨hf, e⟩ | ⟨hf, -, e⟩ | ⟨hf, hlast, e⟩ <;> rw [e] at htracks ⊢
  -- a header: the character in `prev` and this one
  · have hprev := h.prev hp
    refine ⟨⟨htracks, fun _ => ?_, fun _ => ?_⟩, by rintro ⟨⟩⟩
    · rw [List.dropWhile_cons_of_pos (by simpa using hc)]
      exact hprev
    · rw [frameOf, List.drop_succ_cons, List.drop_zero, hprev]
      rfl
  -- between frames
  · refine ⟨⟨htracks, h.nextChar c, fun ht => ?_⟩, by rintro ⟨⟩⟩
    cases hf.symm.trans ht
  · refine ⟨⟨htracks, h.nextChar c, fun _ => ?_⟩, by rintro ⟨⟩⟩
    rw [frameOf_succ, ← h.body hf]
    exact load_update d.buffer (2 + d.gsData) c
  -- the last character of the frame
  · refine ⟨⟨htracks, h.nextChar c, by rintro ⟨⟩⟩, fun _ => ?_⟩
    rw [show gsPackLen = 2 + d.gsData + 1 by rw [Nat.add_assoc, hlast]; rfl, ← hlast,
      frameOf_succ, ← h.body hf]
    exact load_update d.buffer (2 + d.gsData) c

/-! ### The handler -/

/-- The receiver and the handler.  The ghosts are `taken`, the characters that
the FIFO took, and `read`, those that were read from RBR, both latest first, and
`given`, what was in `net_gs_data.buffer` each time `xSemaphore` was given. -/
structure UartSys where
  uart : Uart
  deframer : RxDeframer
  taken : List RxChar
  read : List RxChar
  given : List (List RxChar)

/-- After `vUartInit`, which resets the FIFO. -/
def UartSys.start (level : ℕ) (buffer : Mem) : UartSys where
  uart := ⟨level, [], false, false⟩
  deframer := .reset buffer
  taken := []
  read := []
  given := []

/-- `uart_receive_int`. -/
def UartSys.receiveInt (s : UartSys) : UartSys :=
  let rx := uartReceive s.uart 1
  let r := s.deframer.receiveInt rx.1.head?
  { s with
    uart := rx.2
    deframer := r.1
    read := rx.1.head?.toList ++ s.read
    given := if r.2 then r.1.load gsPackLen :: s.given else s.given }

/-- `UART0_IRQHandler`. -/
def UartSys.uart0IRQHandler (s : UartSys) (timeout : Bool) : UartSys :=
  let tmp := uartGetIntId s.uart timeout &&& uartIirIntidMask
  let lsr := s.uart.readLsr
  let tmp1 := lsr.1 &&& (uartLsrOe ||| uartLsrPe ||| uartLsrFe ||| uartLsrBi ||| uartLsrRxfe)
  if tmp = uartIirIntidRls ∧ tmp1 ≠ 0 then { s with uart := lsr.2 }
  else
    let s := if tmp = uartIirIntidRls then { s with uart := lsr.2 } else s
    if tmp = uartIirIntidRda ∨ tmp = uartIirIntidCti then s.receiveInt else s

inductive UartAct
  /-- the receiver has a character -/
  | char (c : RxChar)
  /-- `UART0_IRQHandler` is invoked, with or without a character time-out -/
  | irq (timeout : Bool)
  deriving DecidableEq, Repr

/-- Everything can happen at any time.  The handler is one step: it looks at the
head of the FIFO only, and a character that comes meanwhile goes to the end. -/
def uartStep (s : UartSys) : UartAct → Option UartSys
  | .char c => some { s with
      uart := s.uart.char c
      taken := if s.uart.fifo.length < rxFifoSize then c :: s.taken else s.taken }
  | .irq timeout => some (s.uart0IRQHandler timeout)

/-! ### What an invocation does -/

/-- LSR shows an overrun, or an error of the oldest character. -/
def Uart.lineStatus (u : Uart) : Bool := u.oe || u.shown.any (·.err)

/-- The character that the handler is due to take: none while the line status
has to be read first. -/
def Uart.due (u : Uart) (timeout : Bool) : Option RxChar :=
  if u.lineStatus then none
  else if u.level ≤ u.fifo.length ∨ timeout = true then u.fifo.head?
  else none

theorem lsrBits_rdr (rdr oe pe fe bi rxfe : Bool) :
    lsrBits rdr oe pe fe bi rxfe &&& uartLsrRdr = 0 ↔ rdr = false := by
  revert rdr oe pe fe bi rxfe
  decide

theorem lsrBits_rls (rdr oe pe fe bi rxfe : Bool) :
    lsrBits rdr oe pe fe bi rxfe &&& (uartLsrOe ||| uartLsrPe ||| uartLsrFe ||| uartLsrBi) ≠ 0 ↔
      (oe || (pe || fe || bi)) = true := by
  revert rdr oe pe fe bi rxfe
  decide

theorem lsrBits_error (rdr oe pe fe bi rxfe : Bool) (h : (oe || (pe || fe || bi)) = true) :
    lsrBits rdr oe pe fe bi rxfe &&&
      (uartLsrOe ||| uartLsrPe ||| uartLsrFe ||| uartLsrBi ||| uartLsrRxfe) ≠ 0 := by
  revert rdr oe pe fe bi rxfe
  decide

theorem lineStatus_eq (u : Uart) :
    u.lineStatus = (u.oe || (u.shown.any (·.pe) || u.shown.any (·.fe) || u.shown.any (·.bi))) := by
  rw [Uart.lineStatus]
  cases u.shown <;> rfl

/-- **The interrupt**: line status before received data before time-out. -/
theorem intId_eq (u : Uart) (timeout : Bool) :
    uartGetIntId u timeout &&& uartIirIntidMask =
      if u.lineStatus = true then uartIirIntidRls
      else if u.level ≤ u.fifo.length then uartIirIntidRda
      else if (timeout && !u.fifo.isEmpty) = true then uartIirIntidCti
      else 0 := by
  rw [uartGetIntId, Uart.iir, Uart.lsr, if_congr (lsrBits_rls _ _ _ _ _ _) rfl rfl,
    ← lineStatus_eq]
  split_ifs <;> rfl

/-- One character is asked for: the oldest one, if there is one. -/
theorem uartReceive_one (u : Uart) :
    uartReceive u 1 =
      if u.fifo = [] then ([], u.readLsr.2)
      else
        (u.fifo.head?.toList,
          { u with fifo := u.fifo.tail, reported := false, oe := false }) := by
  rw [uartReceive]
  simp only [Uart.readLsr, Uart.lsr, lsrBits_rdr, uartReceive, Uart.readRbr]
  rcases u.fifo with - | ⟨c, cs⟩ <;> rfl

/-- `uart_receive_int` takes the oldest character, whatever its errors. -/
theorem receiveInt_fifo (s : UartSys) :
    (s.uart.fifo = [] ∧ s.receiveInt = { s with uart := s.uart.readLsr.2 }) ∨
    ∃ c cs, s.uart.fifo = c :: cs ∧
      s.receiveInt =
        { s with
          uart := { s.uart with fifo := cs, reported := false, oe := false }
          deframer := (s.deframer.receiveInt (some c)).1
          read := c :: s.read
          given :=
            if (s.deframer.receiveInt (some c)).2 then
              (s.deframer.receiveInt (some c)).1.load gsPackLen :: s.given
            else s.given } := by
  rcases hfifo : s.uart.fifo with - | ⟨c, cs⟩
  · refine .inl ⟨rfl, ?_⟩
    rw [UartSys.receiveInt, uartReceive_one, if_pos hfifo]
    rfl
  · refine .inr ⟨c, cs, rfl, ?_⟩
    rw [UartSys.receiveInt, uartReceive_one, if_neg (by simp [hfifo]), hfifo]
    rfl

/-- The error branch only reads LSR. -/
theorem irq_lineStatus {s : UartSys} (timeout : Bool) (h : s.uart.lineStatus = true) :
    s.uart0IRQHandler timeout = { s with uart := s.uart.readLsr.2 } := by
  have htmp := intId_eq s.uart timeout
  rw [if_pos h] at htmp
  rw [UartSys.uart0IRQHandler, if_pos]
  exact ⟨htmp, lsrBits_error _ _ _ _ _ _ (lineStatus_eq s.uart ▸ h)⟩

/-- Otherwise data are taken when there are enough of them, or on a time-out. -/
theorem irq_data {s : UartSys} {timeout : Bool} (h : s.uart.lineStatus = false) :
    s.uart0IRQHandler timeout =
      if s.uart.level ≤ s.uart.fifo.length ∨ (timeout && !s.uart.fifo.isEmpty) = true then
        s.receiveInt
      else s := by
  have htmp := intId_eq s.uart timeout
  rw [if_neg (Bool.not_eq_true _ ▸ h)] at htmp
  by_cases hlevel : s.uart.level ≤ s.uart.fifo.length
  · rw [if_pos hlevel] at htmp
    rw [if_pos (.inl hlevel), UartSys.uart0IRQHandler, htmp]
    rfl
  · rw [if_neg hlevel] at htmp
    by_cases hcti : (timeout && !s.uart.fifo.isEmpty) = true
    · rw [if_pos hcti] at htmp
      rw [if_pos (.inr hcti), UartSys.uart0IRQHandler, htmp]
      rfl
    · rw [if_neg hcti] at htmp
      rw [if_neg (not_or.mpr ⟨hlevel, hcti⟩), UartSys.uart0IRQHandler, htmp]
      rfl

/-- **What an invocation does**: no character is due and none leaves the FIFO, or
the one that is due goes to the deframer. -/
theorem irq_cases (s : UartSys) (timeout : Bool) :
    (s.uart.due timeout = none ∧ ∃ u : Uart, u.fifo = s.uart.fifo ∧
      s.uart0IRQHandler timeout = { s with uart := u }) ∨
    ∃ (c : RxChar) (u : Uart), s.uart.due timeout = some c ∧ s.uart.fifo = c :: u.fifo ∧
      s.uart0IRQHandler timeout =
        { s with
          uart := u
          deframer := (s.deframer.receiveInt (some c)).1
          read := c :: s.read
          given :=
            if (s.deframer.receiveInt (some c)).2 then
              (s.deframer.receiveInt (some c)).1.load gsPackLen :: s.given
            else s.given } := by
  rcases hls : s.uart.lineStatus with - | -
  swap
  · exact .inl ⟨by rw [Uart.due, if_pos hls], s.uart.readLsr.2, rfl, irq_lineStatus timeout hls⟩
  have hdue : s.uart.due timeout =
      if s.uart.level ≤ s.uart.fifo.length ∨ timeout = true then s.uart.fifo.head? else none := by
    rw [Uart.due, if_neg (Bool.not_eq_true _ ▸ hls)]
  rw [hdue, irq_data hls]
  rcases receiveInt_fifo s with ⟨hfifo, hrec⟩ | ⟨c, cs, hfifo, hrec⟩
  -- nothing to take, though the interrupt may be for data
  · refine .inl ⟨by rw [hfifo, List.head?_nil, ite_self], ?_⟩
    split
    · exact ⟨s.uart.readLsr.2, rfl, hrec⟩
    · exact ⟨s.uart, rfl, rfl⟩
  · rw [hfifo, List.head?_cons, show (!(c :: cs).isEmpty) = true from rfl, Bool.and_true]
    split
    · exact .inr ⟨c, _, rfl, rfl, hrec⟩
    · exact .inl ⟨rfl, s.uart, hfifo, rfl⟩

/-- **The error branch drops nothing**: the character whose error was reported is
the one that the next invocation takes. -/
theorem fault_taken_next {s : UartSys} {c : RxChar} {cs : List RxChar} (timeout : Bool)
    (hfifo : s.uart.fifo = c :: cs) (hls : s.uart.lineStatus = true)
    (hlevel : s.uart.level ≤ s.uart.fifo.length) :
    (s.uart0IRQHandler timeout).uart.fifo = s.uart.fifo ∧
      (s.uart0IRQHandler timeout).uart.due false = some c := by
  rw [irq_lineStatus timeout hls]
  refine ⟨rfl, ?_⟩
  have hread : s.uart.readLsr.2.lineStatus = false := by
    simp [Uart.lineStatus, Uart.shown, Uart.readLsr, hfifo]
  rw [Uart.due, if_neg (Bool.not_eq_true _ ▸ hread), if_pos (.inl hlevel)]
  exact congrArg List.head? hfifo

/-! ### The property and the condition -/

/-- No frame that `xSemaphore` was given for has a character with an error. -/
def FramesClean (_ : UartSys) (_ : UartAct) (t : UartSys) : Prop :=
  ∀ f ∈ t.given, ∀ c ∈ f, c.err = false

/-- When the 98th character after a header is due, that header and the
characters since then came without errors. -/
def FaultsOutside (s : UartSys) (a : UartAct) (_ : UartSys) : Prop :=
  match a with
  | .char _ => True
  | .irq timeout =>
      ∀ c, s.uart.due timeout = some c →
        sinceHeader ((c :: s.read).map RxChar.data) = some gsDataLen →
          ∀ x ∈ frameOf gsDataLen (c :: s.read), x.err = false

instance (s : UartSys) (a : UartAct) (t : UartSys) : Decidable (FramesClean s a t) := by
  unfold FramesClean; infer_instance

/-! ### Runs -/

/-- The FIFO is first in, first out. -/
def InOrder (s : UartSys) : Prop := s.uart.fifo.reverse ++ s.read = s.taken

theorem InOrder.step {s t : UartSys} {a : UartAct} (h : InOrder s)
    (hstep : uartStep s a = some t) : InOrder t := by
  cases a with
  | char c =>
      obtain rfl := Option.some.inj hstep
      show (s.uart.char c).fifo.reverse ++ s.read = _
      rw [Uart.char]
      split
      · rw [List.reverse_append, List.append_assoc, h]
        rfl
      · exact h
  | irq timeout =>
      obtain rfl := Option.some.inj hstep
      rcases irq_cases s timeout with ⟨-, u, hu, e⟩ | ⟨c, u, -, hfifo, e⟩ <;> rw [e]
      · show u.fifo.reverse ++ s.read = s.taken
        rw [hu]
        exact h
      · show u.fifo.reverse ++ c :: s.read = s.taken
        rw [← h, hfifo, List.reverse_cons, List.append_assoc]
        rfl

/-- **The handler reads the characters that the FIFO took, in their order and
without leaving one out**, those with errors as well. -/
theorem read_in_order (level : ℕ) (buffer : Mem) {acts : List UartAct} {t : UartSys}
    (hrun : Run uartStep (.start level buffer) acts t) :
    t.taken.reverse = t.read.reverse ++ t.uart.fifo := by
  have h : InOrder t := hrun.invariant (fun s a t h hstep => h.step hstep) rfl
  rw [← h, List.reverse_append, List.reverse_reverse]

/-- The deframer has taken what was read, and no frame so far has an error. -/
structure UartInv (s : UartSys) : Prop where
  deframer : TracksChars s.deframer s.read
  clean : ∀ f ∈ s.given, ∀ c ∈ f, c.err = false

/-- **One step**: where the condition holds, and only there, the frames stay
without errors. -/
theorem UartInv.step {s t : UartSys} {a : UartAct} (h : UartInv s)
    (hstep : uartStep s a = some t) :
    TracksChars t.deframer t.read ∧ (FramesClean s a t ↔ FaultsOutside s a t) := by
  cases a with
  | char c =>
      obtain rfl := Option.some.inj hstep
      exact ⟨h.deframer, iff_of_true h.clean trivial⟩
  | irq timeout =>
      obtain rfl := Option.some.inj hstep
      rcases irq_cases s timeout with ⟨hdue, u, -, e⟩ | ⟨c, u, hdue, -, e⟩ <;> rw [e]
      · refine ⟨h.deframer, iff_of_true h.clean fun c hc => ?_⟩
        cases hdue.symm.trans hc
      · obtain ⟨htracks, hload⟩ := h.deframer.char c
        have hgive := (receiveInt_bytes s.deframer (some c)).2 ▸
          (h.deframer.tracks.byte c.data).2
        refine ⟨htracks, ?_⟩
        simp only [FramesClean, FaultsOutside, hdue, Option.some_inj, forall_eq']
        rcases hg : (s.deframer.receiveInt (some c)).2 with - | -
        · refine iff_of_true h.clean fun hsince => ?_
          cases hg.symm.trans (hgive.mpr hsince)
        · rw [if_pos rfl, List.forall_mem_cons, hload hg]
          exact ⟨fun hclean _ => hclean.1, fun hclean => ⟨hclean (hgive.mp hg), h.clean⟩⟩

/-- **The frames that `xSemaphore` is given for have no character with a line
error iff no such character is in the header or the body of a frame that is
read to its end.** -/
theorem frames_clean_iff (level : ℕ) (buffer : Mem) (acts : List UartAct) :
    Along uartStep FramesClean (.start level buffer) acts ↔
      Along uartStep FaultsOutside (.start level buffer) acts := by
  refine along_iff (I := UartInv) (fun s a t h hstep => (h.step hstep).2)
    (fun s a t h hstep hC => ?_) ⟨tracksChars_reset buffer, by rintro f ⟨⟩⟩
  obtain ⟨htracks, hiff⟩ := h.step hstep
  exact ⟨htracks, hiff.mpr hC⟩

/-- A frame whose first body character has a parity error, each character being
handled when it arrives. -/
def faultyFrame : List UartAct :=
  [.char ⟨gsHeaderI, false, false, false⟩, .irq false,
    .char ⟨gsHeaderII, false, false, false⟩, .irq false,
    .char ⟨0, true, false, false⟩, .irq false, .irq false] ++
    (List.replicate 97 [.char ⟨0, false, false, false⟩, .irq false]).flatten

theorem faulty_frame_given :
    ¬ Along uartStep FramesClean (.start 1 fun _ => 0) faultyFrame := by
  decide +kernel

end Lpc1768
