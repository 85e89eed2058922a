/-
Lpc1768/Checksum.lean

The Internet checksum (inet_chksum.c).  `lwip_standard_chksum` adds the bytes two by
two in network order, folds the carries and swaps the result, which is then in the
order in which it is stored.  For a chain the sums of the pbufs are added up; behind
a pbuf of odd length the bytes of the sum are swapped, and swapped back at the end.

What comes out depends only on the bytes, not on how they are cut into pbufs
(`inetChksumPbuf_eq`, `inetChksumPseudo_eq`).
-/
import Lpc1768.OnesComplement
import Lpc1768.TxWire

namespace Lpc1768

/-! ### The functions -/

/-- `lwip_htons`, which is also `lwip_ntohs`. -/
def lwipHtons (n : ℕ) : ℕ := swapBytes n

/-- The loop of `lwip_standard_chksum`, and the remaining octet. -/
def chksumLoop (m : Mem) : ℕ → ℕ → ℕ → ℕ
  | acc, octetptr, len + 2 =>
      chksumLoop m (u32 (acc + ((m octetptr).toNat * 256 + (m (octetptr + 1)).toNat) : ℕ))
        (octetptr + 2) len
  | acc, octetptr, 1 => u32 (acc + (m octetptr).toNat * 256 : ℕ)
  | acc, _, 0 => acc

/-- `lwip_standard_chksum`. -/
def lwipStandardChksum (m : Mem) (dataptr len : ℕ) : ℕ :=
  let acc := chksumLoop m 0 dataptr len
  -- the deferred carries
  let acc := carry acc
  let acc := if acc / 65536 ≠ 0 then carry acc else acc
  lwipHtons (u16 acc)

/-- `inet_chksum`. -/
def inetChksum (m : Mem) (dataptr len : ℕ) : ℕ := u16 (-1 - lwipStandardChksum m dataptr len)

/-- The loop over a chain: `acc` and `swapped` at its end. -/
def chksumPbufs (m : Mem) : List Pbuf → ℕ → Bool → ℕ × Bool
  | [], acc, swapped => (acc, swapped)
  | q :: next, acc, swapped =>
      let acc := carry (u32 (acc + lwipStandardChksum m q.payload q.len : ℕ))
      if q.len % 2 ≠ 0 then chksumPbufs m next (swapBytes acc) (!swapped)
      else chksumPbufs m next acc swapped

/-- The sum of a chain, swapped back. -/
def chksumChain (m : Mem) (p : List Pbuf) (acc : ℕ) : ℕ :=
  let r := chksumPbufs m p acc false
  if r.2 then swapBytes r.1 else r.1

/-- `inet_chksum_pbuf`. -/
def inetChksumPbuf (m : Mem) (p : List Pbuf) : ℕ := u16 (-1 - chksumChain m p 0)

/-- `inet_cksum_pseudo_base`. -/
def inetCksumPseudoBase (m : Mem) (p : List Pbuf) (proto protoLen acc : ℕ) : ℕ :=
  let acc := chksumChain m p acc
  let acc := u32 (acc + lwipHtons proto : ℕ)
  let acc := u32 (acc + lwipHtons protoLen : ℕ)
  let acc := carry acc
  let acc := carry acc
  u16 (-1 - acc)

/-- `inet_chksum_pseudo`, and `ip_chksum_pseudo` with it. -/
def inetChksumPseudo (m : Mem) (p : List Pbuf) (proto protoLen : ℕ) (src dest : UInt32) : ℕ :=
  let addr := src.toNat
  let acc := addr % 65536
  let acc := u32 (acc + addr / 65536 % 65536 : ℕ)
  let addr := dest.toNat
  let acc := u32 (acc + addr % 65536 : ℕ)
  let acc := u32 (acc + addr / 65536 % 65536 : ℕ)
  let acc := carry acc
  let acc := carry acc
  inetCksumPseudoBase m p proto protoLen acc

/-! ### The bytes of a buffer -/

/-- The complement of a word. -/
theorem u16_not {n : ℕ} (h : n ≤ 65535) : u16 (-1 - n) = 65535 - n := by
  unfold u16
  omega

/-- The loop adds up the words, as long as the sum fits. -/
theorem chksumLoop_eq (m : Mem) {acc octetptr len : ℕ}
    (h : acc + 65535 * ((len + 1) / 2) < 4294967296) :
    chksumLoop m acc octetptr len = acc + wordSum (m.load octetptr len) := by
  induction len using Nat.twoStepInduction generalizing acc octetptr with
  | zero => rfl
  | one =>
      have hb := (m octetptr).toNat_lt
      rw [chksumLoop, u32_of_lt (by omega), m.load_cons]
      rfl
  | more len ih _ =>
      have hb := (m octetptr).toNat_lt
      have hc := (m (octetptr + 1)).toNat_lt
      have hload : m.load octetptr (len + 2) =
          m octetptr :: m (octetptr + 1) :: m.load (octetptr + 2) len := by
        rw [m.load_cons, m.load_cons]
      rw [chksumLoop, u32_of_lt (by omega), ih (by omega), hload, wordSum]
      omega

/-- **The sum of a buffer**, with its bytes swapped. -/
theorem lwipStandardChksum_eq (m : Mem) {dataptr len : ℕ} (h : len < 65536) :
    lwipStandardChksum m dataptr len = swapBytes (ones (wordSum (m.load dataptr len))) := by
  have hle := wordSum_le (m.load dataptr len)
  rw [Mem.length_load] at hle
  rw [lwipStandardChksum, chksumLoop_eq m (by omega), Nat.zero_add]
  set n := wordSum (m.load dataptr len)
  have hn : n < 4294967296 := by omega
  have hfold : (if carry n / 65536 ≠ 0 then carry (carry n) else carry n) = ones n := by
    split
    · exact carry_carry hn
    · next hlow =>
      refine ((sameSum_carry n).trans (sameSum_ones n).symm).eq ?_ (ones_le n)
      omega
  show lwipHtons (u16 (if carry n / 65536 ≠ 0 then carry (carry n) else carry n : ℕ)) = _
  rw [hfold, u16_of_lt (Nat.lt_succ_of_le (ones_le n)), lwipHtons]

theorem lwipStandardChksum_le (m : Mem) {dataptr len : ℕ} (h : len < 65536) :
    lwipStandardChksum m dataptr len ≤ 65535 := by
  rw [lwipStandardChksum_eq m h]
  exact Nat.le_of_lt_succ (swapBytes_lt _)

/-- As a sum it is the one of the buffer, shifted by one byte. -/
theorem sameSum_lwipStandardChksum (m : Mem) {dataptr len : ℕ} (h : len < 65536) :
    SameSum (lwipStandardChksum m dataptr len) (256 * wordSum (m.load dataptr len)) := by
  rw [lwipStandardChksum_eq m h, swapBytes_ones]
  exact sameSum_ones _

/-! ### The bytes of a chain -/

/-- What the loop over a chain has added up: `n` counts the bytes in their places, and the
sum is shifted as long as an odd number of bytes has gone by. -/
theorem chksumPbufs_spec (m : Mem) {p : List Pbuf} (hp : ∀ q ∈ p, q.len < 65536) {acc n : ℕ}
    {swapped : Bool} (hacc : acc ≤ 65535) (hsum : SameSum acc (shiftIf swapped n)) :
    (chksumPbufs m p acc swapped).1 ≤ 65535 ∧ ∃ n',
      SameSum (chksumPbufs m p acc swapped).1 (shiftIf (chksumPbufs m p acc swapped).2 n') ∧
      SameSum n' (n + 256 * shiftIf swapped (wordSum (chainBytes m p))) := by
  induction p generalizing acc n swapped with
  | nil =>
      refine ⟨hacc, n, hsum, ?_⟩
      cases swapped <;> exact .refl n
  | cons q p ih =>
      obtain ⟨hq, hp⟩ := List.forall_mem_cons.mp hp
      have hle : lwipStandardChksum m q.payload q.len ≤ 65535 := lwipStandardChksum_le m hq
      set odd := decide (q.len % 2 ≠ 0) with hodd
      set k := wordSum (m.load q.payload q.len) with hk
      set acc' := carry (u32 (acc + lwipStandardChksum m q.payload q.len : ℕ)) with hacc'
      have hsame : SameSum acc' (acc + 256 * k) := by
        rw [hacc', u32_of_lt (by omega)]
        exact (sameSum_carry _).trans ((SameSum.refl acc).add (sameSum_lwipStandardChksum m hq))
      have hacc'le : acc' ≤ 65535 := by
        rw [hacc', u32_of_lt (by omega), carry_of_le (by omega)]
        exact ones_le _
      set n₁ := n + 256 * shiftIf swapped k with hn₁
      have hnew : SameSum acc' (shiftIf swapped n₁) := by
        refine hsame.trans ((hsum.add (.refl _)).trans ?_)
        rw [hn₁, shiftIf_add]
        refine (SameSum.refl _).add ?_
        cases swapped
        · exact .refl _
        · exact (sameSum_shift _).symm
      -- the bytes behind this pbuf
      set w := wordSum (chainBytes m p)
      have hjoin : SameSum (n₁ + 256 * shiftIf (swapped != odd) w)
          (n + 256 * shiftIf swapped (wordSum (chainBytes m (q :: p)))) := by
        have happ := sameSum_append (m.load q.payload q.len) (chainBytes m p)
        rw [Mem.length_load] at happ
        have hw := (happ.shiftIf swapped).mul_left 256
        rw [shiftIf_add, Nat.mul_add] at hw
        rw [hn₁, Nat.add_assoc]
        exact (SameSum.refl n).add (((SameSum.refl _).add
          ((sameSum_shiftIf_shiftIf swapped odd w).symm.mul_left 256)).trans hw.symm)
      have hstep : chksumPbufs m (q :: p) acc swapped =
          chksumPbufs m p (if odd then swapBytes acc' else acc') (swapped != odd) := by
        rw [chksumPbufs]
        by_cases h : q.len % 2 ≠ 0
        · have hodd' : odd = true := decide_eq_true h
          rw [if_pos h, hodd', Bool.bne_true]
          rfl
        · have hodd' : odd = false := decide_eq_false h
          rw [if_neg h, hodd', Bool.bne_false]
          rfl
      have hacc'' : (if odd then swapBytes acc' else acc') ≤ 65535 ∧
          SameSum (if odd then swapBytes acc' else acc') (shiftIf (swapped != odd) n₁) := by
        cases hcase : odd
        · rw [Bool.bne_false]
          exact ⟨hacc'le, hnew⟩
        · refine ⟨Nat.le_of_lt_succ (swapBytes_lt _), ?_⟩
          refine (sameSum_swapBytes (Nat.lt_succ_of_le hacc'le)).trans
            ((hnew.mul_left 256).trans ?_)
          have hcomm : (swapped != true) = (true != swapped) := by cases swapped <;> rfl
          rw [hcomm]
          exact sameSum_shiftIf_shiftIf true swapped n₁
      rw [hstep]
      obtain ⟨hle', n', hn', hsum'⟩ := ih hp hacc''.1 hacc''.2
      exact ⟨hle', n', hn', hsum'.trans hjoin⟩

/-- The sum over a chain is that of its bytes, shifted by one byte, and what there was. -/
theorem chksumChain_spec (m : Mem) {p : List Pbuf} (hp : ∀ q ∈ p, q.len < 65536) {acc : ℕ}
    (hacc : acc ≤ 65535) :
    chksumChain m p acc ≤ 65535 ∧
      SameSum (chksumChain m p acc) (acc + 256 * wordSum (chainBytes m p)) := by
  have hstart : SameSum acc (shiftIf false acc) := .refl acc
  obtain ⟨hle, n', hn', hsum⟩ := chksumPbufs_spec m hp hacc hstart
  have hchain : chksumChain m p acc = if (chksumPbufs m p acc false).2 then
      swapBytes (chksumPbufs m p acc false).1 else (chksumPbufs m p acc false).1 := rfl
  rw [hchain]
  cases hs : (chksumPbufs m p acc false).2 <;> rw [hs] at hn'
  · exact ⟨hle, hn'.trans hsum⟩
  · refine ⟨Nat.le_of_lt_succ (swapBytes_lt _), ?_⟩
    exact (sameSum_swapBytes (Nat.lt_succ_of_le hle)).trans
      ((hn'.mul_left 256).trans ((sameSum_shift n').trans hsum))

/-- The bits of a 16-bit sum are turned over. -/
def complement (n : ℕ) : ℕ := 65535 - swapBytes (ones n)

/-- **The checksum of a buffer.** -/
theorem inetChksum_eq (m : Mem) {dataptr len : ℕ} (h : len < 65536) :
    inetChksum m dataptr len = complement (wordSum (m.load dataptr len)) := by
  rw [inetChksum, u16_not (lwipStandardChksum_le m h), lwipStandardChksum_eq m h, complement]

/-- **The checksum of a chain** is that of its bytes, however they are cut. -/
theorem inetChksumPbuf_eq (m : Mem) {p : List Pbuf} (hp : ∀ q ∈ p, q.len < 65536) :
    inetChksumPbuf m p = complement (wordSum (chainBytes m p)) := by
  obtain ⟨hle, hsum⟩ := chksumChain_spec m hp (Nat.zero_le 65535)
  rw [Nat.zero_add] at hsum
  rw [inetChksumPbuf, u16_not hle, complement, swapBytes_ones,
    (hsum.trans (sameSum_ones _).symm).eq hle (ones_le _)]

/-! ### The pseudo header -/

/-- An address as it is stored. -/
def addrBytes (addr : UInt32) : List UInt8 :=
  [UInt8.ofNat addr.toNat, UInt8.ofNat (addr.toNat / 256), UInt8.ofNat (addr.toNat / 65536),
    UInt8.ofNat (addr.toNat / 16777216)]

/-- The pseudo header that is summed up with a datagram. -/
def pseudoHeader (src dest : UInt32) (proto protoLen : ℕ) : List UInt8 :=
  addrBytes src ++ addrBytes dest ++
    [0, UInt8.ofNat proto, UInt8.ofNat (protoLen / 256), UInt8.ofNat protoLen]

theorem length_pseudoHeader (src dest : UInt32) (proto protoLen : ℕ) :
    (pseudoHeader src dest proto protoLen).length = 12 := rfl

/-- The halves of an address, shifted by one byte, are its words. -/
theorem sameSum_addr (addr : UInt32) :
    SameSum (addr.toNat % 65536 + addr.toNat / 65536 % 65536) (256 * wordSum (addrBytes addr)) := by
  have hlt := addr.toNat_lt
  have hwords : wordSum (addrBytes addr) = swapBytes (addr.toNat % 65536) +
      swapBytes (addr.toNat / 65536 % 65536) := by
    simp only [addrBytes, wordSum, swapBytes, UInt8.toNat_ofNat']
    omega
  rw [hwords, Nat.mul_add]
  refine SameSum.add ?_ ?_
  · exact sameSum_of_shift ((sameSum_swapBytes (Nat.mod_lt _ (by decide))).symm.trans
      (sameSum_shift _).symm)
  · exact sameSum_of_shift ((sameSum_swapBytes (Nat.mod_lt _ (by decide))).symm.trans
      (sameSum_shift _).symm)

/-- **The checksum with the pseudo header.** -/
theorem inetChksumPseudo_eq (m : Mem) {p : List Pbuf} (hp : ∀ q ∈ p, q.len < 65536)
    {proto protoLen : ℕ} (hproto : proto < 256) (hlen : protoLen < 65536) (src dest : UInt32) :
    inetChksumPseudo m p proto protoLen src dest =
      complement (wordSum (pseudoHeader src dest proto protoLen ++ chainBytes m p)) := by
  have hsrc := src.toNat_lt
  have hdest := dest.toNat_lt
  -- the addresses
  set a := src.toNat % 65536 + src.toNat / 65536 % 65536 with ha
  set d := dest.toNat % 65536 + dest.toNat / 65536 % 65536 with hd
  have hads : a + d < 4294967296 := by omega
  have hacc : inetChksumPseudo m p proto protoLen src dest =
      inetCksumPseudoBase m p proto protoLen (ones (a + d)) := by
    have h1 : u32 a = a := u32_of_lt (by omega)
    have h2 : u32 (a + dest.toNat % 65536 : ℕ) = a + dest.toNat % 65536 := u32_of_lt (by omega)
    have h3 : u32 (a + dest.toNat % 65536 + dest.toNat / 65536 % 65536 : ℕ) = a + d := by
      rw [Nat.add_assoc, ← hd]
      exact u32_of_lt hads
    simp only [inetChksumPseudo]
    rw [← ha, h1, h2, h3, carry_carry hads]
  obtain ⟨hle, hchain⟩ := chksumChain_spec m hp (ones_le (a + d))
  set c := chksumChain m p (ones (a + d)) with hc
  have hp16 := swapBytes_lt proto
  have hl16 := swapBytes_lt protoLen
  have hbase : inetCksumPseudoBase m p proto protoLen (ones (a + d)) =
      65535 - ones (c + swapBytes proto + swapBytes protoLen) := by
    have h1 : u32 (c + swapBytes proto : ℕ) = c + swapBytes proto := u32_of_lt (by omega)
    have h2 : u32 (c + swapBytes proto + swapBytes protoLen : ℕ) =
        c + swapBytes proto + swapBytes protoLen := u32_of_lt (by omega)
    simp only [inetCksumPseudoBase, lwipHtons]
    rw [← hc, h1, h2, carry_carry (by omega), u16_not (ones_le _)]
  rw [hacc, hbase, complement, swapBytes_ones]
  refine congrArg (65535 - ·) (SameSum.ones_eq ?_)
  have hhead : wordSum (pseudoHeader src dest proto protoLen ++ chainBytes m p) =
      wordSum (addrBytes src) + wordSum (addrBytes dest) + (proto + protoLen) +
        wordSum (chainBytes m p) := by
    have hfields : wordSum [0, UInt8.ofNat proto, UInt8.ofNat (protoLen / 256),
        UInt8.ofNat protoLen] = proto + protoLen := by
      simp only [wordSum, UInt8.toNat_ofNat', UInt8.toNat_zero]
      omega
    rw [wordSum_append_even (by rw [length_pseudoHeader]), pseudoHeader,
      wordSum_append_even (by simp [addrBytes]), wordSum_append_even (by simp [addrBytes]), hfields]
  have hproto' := sameSum_swapBytes (w := proto) (by omega)
  have hlen' := sameSum_swapBytes hlen
  have hsplit (x y z w : ℕ) : 256 * (x + y + (z + w) + wordSum (chainBytes m p)) =
      256 * x + 256 * y + 256 * wordSum (chainBytes m p) + 256 * z + 256 * w := by ring
  have haddrs : SameSum (a + d) (256 * wordSum (addrBytes src) + 256 * wordSum (addrBytes dest)) :=
    (sameSum_addr src).add (sameSum_addr dest)
  rw [hhead, hsplit]
  refine SameSum.add (SameSum.add ?_ hproto') hlen'
  exact hchain.trans (((sameSum_ones _).trans haddrs).add (.refl _))

/-! ### Where the bytes are -/

end Lpc1768
