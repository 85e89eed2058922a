/-
Lpc1768/IpHeader.lean

The IP header, from `ip4_output_if_opt_src` to `ip4_input`.  The sender does not sum up
the header once it is there, but adds up the fields as it writes them; the result is
the same (`ip4OutputHeader_spec`).  The receiver finds the header in order and gets
back the packet without the bytes that Ethernet has put behind it
(`ip4_input_accepts_output`).
-/
import Mathlib.Tactic.IntervalCases
import Lpc1768.PbufHeader
import Lpc1768.UdpChecksum

namespace Lpc1768

/-! ### The functions -/

/-- `IP_HLEN` and `IP_HLEN_MAX`. -/
def ipHlen : ℕ := 20
def ipHlenMax : ℕ := 60

/-- The sum of the `u16_t` from `a` on. -/
def sumWords (m : Mem) (a : ℕ) : ℕ → ℕ
  | 0 => 0
  | n + 1 => sumWords m a n + m.u16At (a + 2 * n)

/-- The options in front of the payload, filled up with zeros, and their sum. -/
def ip4Options (m : Mem) (contiguous : Bool) (p : Pbuf) (options : List UInt8) :
    Except Err (Mem × Pbuf × ℕ) :=
  let optlen := options.length
  if optlen ≠ 0 then
    if optlen > ipHlenMax - ipHlen then .error .val
    else
      let optlenAligned := (optlen + 3) / 4 * 4
      match pbufAddHeader contiguous p optlenAligned with
      | none => .error .buf
      | some p =>
          let m := m.store p.payload options
          let m := m.store (p.payload + optlen) (List.replicate (optlenAligned - optlen) 0)
          .ok (m, p, sumWords m p.payload (optlenAligned / 2))
  else .ok (m, p, 0)

/-- The fields of the header at `iphdr` one by one, and the checksum. -/
def ip4Fields (m : Mem) (iphdr : ℕ) (src dest : UInt32) (ttl tos proto : UInt8)
    (ipHlen totLen ipId chkSum : ℕ) : Mem :=
  let m := m.store (iphdr + 8) [ttl]
  let m := m.store (iphdr + 9) [proto]
  let chkSum := chkSum + lwipHtons (proto.toNat + ttl.toNat * 256)
  let m := m.store (iphdr + 16) (addrBytes dest)
  let chkSum := chkSum + dest.toNat % 65536
  let chkSum := chkSum + dest.toNat / 65536
  let vhl := 4 * 16 + ipHlen / 4
  let m := m.store iphdr [UInt8.ofNat vhl]
  let m := m.store (iphdr + 1) [tos]
  let chkSum := chkSum + lwipHtons (tos.toNat + vhl * 256)
  let m := m.store (iphdr + 2) (u16Bytes (lwipHtons totLen))
  let chkSum := chkSum + lwipHtons totLen
  let m := m.store (iphdr + 6) (u16Bytes 0)
  let m := m.store (iphdr + 4) (u16Bytes (lwipHtons ipId))
  let chkSum := chkSum + lwipHtons ipId
  let m := m.store (iphdr + 12) (addrBytes src)
  let chkSum := chkSum + src.toNat % 65536
  let chkSum := chkSum + src.toNat / 65536
  let chkSum := chkSum / 65536 + chkSum % 65536
  let chkSum := chkSum / 65536 + chkSum
  m.store (iphdr + 10) (u16Bytes (u16 (-1 - chkSum)))

/-- The part of `ip4_output_if_opt_src` that puts the header in front of `p`. -/
def ip4OutputHeader (m : Mem) (contiguous : Bool) (p : Pbuf) (src dest : UInt32)
    (ttl tos proto : UInt8) (ipId : ℕ) (options : List UInt8) : Except Err (Mem × Pbuf) :=
  match ip4Options m contiguous p options with
  | .error e => .error e
  | .ok (m, p, chkSum) =>
      let optlenAligned := (options.length + 3) / 4 * 4
      match pbufAddHeader contiguous p ipHlen with
      | none => .error .buf
      | some p =>
          .ok (ip4Fields m p.payload src dest ttl tos proto (ipHlen + optlenAligned) p.totLen ipId
            chkSum, p)

/-- The bytes of a header. -/
def ipHeader (vhl : ℕ) (tos : UInt8) (totLen ipId : ℕ) (ttl proto : UInt8) (chksum : ℕ)
    (src dest : UInt32) : List UInt8 :=
  [UInt8.ofNat vhl, tos] ++ u16Bytes (lwipHtons totLen) ++ u16Bytes (lwipHtons ipId) ++
    u16Bytes 0 ++ [ttl, proto] ++ u16Bytes chksum ++ addrBytes src ++ addrBytes dest

/-- Fields of a structure of 20 bytes, in the order in which they are written. -/
theorem store_ipFields (m : Mem) (a : ℕ) (v ts l₀ l₁ i₀ i₁ o₀ o₁ t pr c₀ c₁ s₀ s₁ s₂ s₃ d₀ d₁ d₂
    d₃ : UInt8) :
    (((((((((m.store (a + 8) [t]).store (a + 9) [pr]).store (a + 16) [d₀, d₁, d₂, d₃]).store a
      [v]).store (a + 1) [ts]).store (a + 2) [l₀, l₁]).store (a + 6) [o₀, o₁]).store (a + 4)
      [i₀, i₁]).store (a + 12) [s₀, s₁, s₂, s₃]).store (a + 10) [c₀, c₁] =
    m.store a ([v, ts] ++ [l₀, l₁] ++ [i₀, i₁] ++ [o₀, o₁] ++ [t, pr] ++ [c₀, c₁] ++
      [s₀, s₁, s₂, s₃] ++ [d₀, d₁, d₂, d₃]) := by
  funext x
  by_cases hin : a ≤ x ∧ x < a + 20
  · obtain ⟨i, rfl⟩ := Nat.exists_eq_add_of_le hin.1
    have hi : i < 20 := by omega
    interval_cases i <;> simp [Mem.store]
  · iterate 11
      rw [Mem.store_outside _ _ _ _ (by
        simp only [List.length_append, List.length_cons, List.length_nil]
        omega)]

/-- A word in memory order counts as the word, shifted by one byte. -/
theorem sameSum_lwipHtons {w : ℕ} (h : w < 65536) : SameSum (lwipHtons w) (256 * w) :=
  sameSum_swapBytes h

theorem wordSum_lwipHtons {w : ℕ} (h : w < 65536) : wordSum (u16Bytes (lwipHtons w)) = w := by
  rw [wordSum_u16Bytes, lwipHtons, swapBytes_swapBytes h]

/-- The sum of the header is that of its fields. -/
theorem wordSum_ipHeader {vhl totLen ipId : ℕ} (hvhl : vhl < 256) (htotal : totLen < 65536)
    (hid : ipId < 65536) (tos ttl proto : UInt8) (chksum : ℕ) (src dest : UInt32) :
    wordSum (ipHeader vhl tos totLen ipId ttl proto chksum src dest) =
      vhl * 256 + tos.toNat + totLen + ipId + (ttl.toNat * 256 + proto.toNat) + swapBytes chksum +
        wordSum (addrBytes src) + wordSum (addrBytes dest) := by
  have hv : wordSum [UInt8.ofNat vhl, tos] = vhl * 256 + tos.toNat := by
    rw [wordSum, wordSum, UInt8.toNat_ofNat', Nat.add_zero]
    omega
  have hz : wordSum (u16Bytes 0) = 0 := rfl
  have ht : wordSum [ttl, proto] = ttl.toNat * 256 + proto.toNat := by
    rw [wordSum, wordSum, Nat.add_zero]
  rw [ipHeader, wordSum_append_even (by simp [u16Bytes, addrBytes]),
    wordSum_append_even (by simp [u16Bytes]), wordSum_append_even (by simp [u16Bytes]),
    wordSum_append_even (by simp [u16Bytes]), wordSum_append_even (by simp [u16Bytes]),
    wordSum_append_even (by simp [u16Bytes]), wordSum_append_even (by simp), hv, hz, ht,
    wordSum_lwipHtons htotal, wordSum_lwipHtons hid, wordSum_u16Bytes]
  omega

/-- The words of a buffer, in memory order. -/
theorem sameSum_sumWords (m : Mem) (a n : ℕ) :
    SameSum (sumWords m a n) (256 * wordSum (m.load a (2 * n))) ∧
      sumWords m a n ≤ 65535 * n := by
  induction n with
  | zero => exact ⟨.refl 0, Nat.le_refl 0⟩
  | succ n ih =>
      obtain ⟨hsum, hle⟩ := ih
      have hb := (m (a + 2 * n)).toNat_lt
      have hc := (m (a + 2 * n + 1)).toNat_lt
      have hload : m.load a (2 * (n + 1)) =
          m.load a (2 * n) ++ [m (a + 2 * n), m (a + 2 * n + 1)] := by
        rw [Nat.mul_add, m.load_add]
        rfl
      have hword : SameSum (m.u16At (a + 2 * n))
          (256 * wordSum [m (a + 2 * n), m (a + 2 * n + 1)]) := by
        rw [wordSum, wordSum, Nat.add_zero, Mem.u16At, Nat.mul_comm _ 256, Nat.add_comm,
          ← swapBytes_mul_add hb hc]
        exact sameSum_swapBytes (by omega)
      rw [hload, wordSum_append_even (by simp), Nat.mul_add, sumWords]
      refine ⟨hsum.add hword, ?_⟩
      rw [Mem.u16At]
      omega

/-- The carries of a sum of few words. -/
theorem u16_not_carry {n : ℕ} (h : n < 65536 * 65535) :
    u16 (-1 - (carry n / 65536 + carry n : ℕ)) = 65535 - ones n := by
  have hle : carry n ≤ 131069 := by
    rw [carry]
    omega
  have hones : carry (carry n) = ones n := carry_carry (by omega)
  rw [carry] at hones
  unfold u16
  omega

theorem lwipHtons_le (w : ℕ) : lwipHtons w ≤ 65535 := Nat.le_of_lt_succ (swapBytes_lt w)

/-- **The header is written with the checksum of its bytes**: adding up the fields on the way is
as good as summing up the header at the end. -/
theorem ip4Fields_eq (m : Mem) (iphdr : ℕ) (src dest : UInt32) (ttl tos proto : UInt8)
    {ipHlen totLen ipId chkSum : ℕ} (hhlen : ipHlen ≤ 60) (htotal : totLen < 65536)
    (hid : ipId < 65536) {opts : List UInt8} (hsum : SameSum chkSum (256 * wordSum opts))
    (hle : chkSum ≤ 65535 * 20) :
    ip4Fields m iphdr src dest ttl tos proto ipHlen totLen ipId chkSum =
      m.store iphdr (ipHeader (64 + ipHlen / 4) tos totLen ipId ttl proto
        (complement (wordSum (ipHeader (64 + ipHlen / 4) tos totLen ipId ttl proto 0 src dest ++
          opts))) src dest) := by
  have ht := lwipHtons_le totLen
  have hi := lwipHtons_le ipId
  have hp := lwipHtons_le (proto.toNat + ttl.toNat * 256)
  have hv := lwipHtons_le (tos.toNat + (64 + ipHlen / 4) * 256)
  have hsrc := src.toNat_lt
  have hdest := dest.toNat_lt
  have h1 := ttl.toNat_lt
  have h2 := proto.toNat_lt
  have h3 := tos.toNat_lt
  set n := chkSum + lwipHtons (proto.toNat + ttl.toNat * 256) + dest.toNat % 65536 +
    dest.toNat / 65536 + lwipHtons (tos.toNat + (64 + ipHlen / 4) * 256) + lwipHtons totLen +
    lwipHtons ipId + src.toNat % 65536 + src.toNat / 65536 with hn
  have hstored : ip4Fields m iphdr src dest ttl tos proto ipHlen totLen ipId chkSum =
      m.store iphdr (ipHeader (64 + ipHlen / 4) tos totLen ipId ttl proto
        (u16 (-1 - (carry n / 65536 + carry n : ℕ))) src dest) :=
    store_ipFields m iphdr _ _ _ _ _ _ _ _ _ _ _ _ _ _ _ _ _ _ _ _
  have hsame : SameSum n (256 * wordSum (ipHeader (64 + ipHlen / 4) tos totLen ipId ttl proto 0 src
      dest ++ opts)) := by
    have hzero : swapBytes 0 = 0 := rfl
    have hdest' : dest.toNat % 65536 + dest.toNat / 65536 =
        dest.toNat % 65536 + dest.toNat / 65536 % 65536 := by omega
    have hsrc' : src.toNat % 65536 + src.toNat / 65536 =
        src.toNat % 65536 + src.toNat / 65536 % 65536 := by omega
    have hsplit : n = (chkSum + lwipHtons (proto.toNat + ttl.toNat * 256)) +
        (dest.toNat % 65536 + dest.toNat / 65536 % 65536) +
        (lwipHtons (tos.toNat + (64 + ipHlen / 4) * 256) + lwipHtons totLen + lwipHtons ipId) +
        (src.toNat % 65536 + src.toNat / 65536 % 65536) := by omega
    rw [wordSum_append_even (by simp [ipHeader, u16Bytes, addrBytes]),
      wordSum_ipHeader (by omega) htotal hid, hzero, hsplit]
    have hfirst := hsum.add (sameSum_lwipHtons (w := proto.toNat + ttl.toNat * 256) (by omega))
    have hsecond := ((sameSum_lwipHtons (w := tos.toNat + (64 + ipHlen / 4) * 256)
      (by omega)).add (sameSum_lwipHtons htotal)).add (sameSum_lwipHtons hid)
    have hsums := ((hfirst.add (sameSum_addr dest)).add hsecond).add (sameSum_addr src)
    convert hsums using 1
    ring
  rw [hstored, u16_not_carry (by omega), complement, swapBytes_ones, hsame.ones_eq]

/-! ### The packet -/

/-- The options as they are sent. -/
def padOptions (options : List UInt8) : List UInt8 :=
  options ++ List.replicate ((options.length + 3) / 4 * 4 - options.length) 0

theorem length_padOptions (options : List UInt8) :
    (padOptions options).length = (options.length + 3) / 4 * 4 := by
  rw [padOptions, List.length_append, List.length_replicate]
  omega

/-- The header that is sent, with its options. -/
def sentHeader (options : List UInt8) (tos ttl proto : UInt8) (totLen ipId : ℕ)
    (src dest : UInt32) (chksum : ℕ) : List UInt8 :=
  ipHeader (64 + (ipHlen + (padOptions options).length) / 4) tos totLen ipId ttl proto chksum src
    dest ++ padOptions options

theorem length_sentHeader (options : List UInt8) (tos ttl proto : UInt8) (totLen ipId : ℕ)
    (src dest : UInt32) (chksum : ℕ) :
    (sentHeader options tos ttl proto totLen ipId src dest chksum).length =
      ipHlen + (padOptions options).length := by
  rw [sentHeader, List.length_append]
  rfl

/-- The options in front of the payload. -/
theorem ip4Options_spec {m m' : Mem} {contiguous : Bool} {p p' : Pbuf} {next : List Pbuf}
    {options : List UInt8} {chkSum : ℕ} (h : Consistent (p :: next))
    (hapart : ∀ r ∈ next, r.payload + r.len ≤ p.payload - ipHlenMax ∨ p.payload ≤ r.payload)
    (hok : ip4Options m contiguous p options = .ok (m', p', chkSum)) :
    Consistent (p' :: next) ∧ options.length ≤ 40 ∧
      p'.payload + (padOptions options).length = p.payload ∧
      p'.len = p.len + (padOptions options).length ∧
      p'.totLen = p.totLen + (padOptions options).length ∧
      chainBytes m' (p' :: next) = padOptions options ++ chainBytes m (p :: next) ∧
      SameSum chkSum (256 * wordSum (padOptions options)) ∧ chkSum ≤ 65535 * 20 := by
  rw [ip4Options] at hok
  by_cases hzero : options.length ≠ 0
  · rw [if_pos hzero] at hok
    by_cases hlong : options.length > ipHlenMax - ipHlen
    · rw [if_pos hlong] at hok
      cases hok
    · rw [if_neg hlong] at hok
      simp only [ipHlenMax, ipHlen] at hlong hapart
      have hplen := length_padOptions options
      rcases hadd : pbufAddHeader contiguous p ((options.length + 3) / 4 * 4) with - | q
      · simp only [hadd] at hok
        cases hok
      · simp only [hadd] at hok
        obtain ⟨hcons, hpayload, hlen, htotal⟩ := pbufAddHeader_spec h hadd
        obtain ⟨hm, hq⟩ := Prod.mk.inj (Except.ok.inj hok)
        obtain ⟨rfl, hsum⟩ := Prod.mk.inj hq
        rw [← hplen] at hpayload hlen htotal
        have hstore : m' = m.store q.payload (padOptions options) := by
          rw [← hm, padOptions, Mem.store_append]
        have hwords : 2 * ((options.length + 3) / 4 * 4 / 2) = (padOptions options).length := by
          rw [hplen]
          omega
        have hsums := sameSum_sumWords m' q.payload ((options.length + 3) / 4 * 4 / 2)
        rw [hwords, hstore, Mem.load_store_self] at hsums
        refine ⟨hcons, by omega, hpayload, hlen, htotal, ?_, ?_, ?_⟩
        · rw [hstore]
          refine chainBytes_addHeader hpayload hlen fun r hr => ?_
          rcases hapart r hr with hr | hr
          · exact .inl (by omega)
          · exact .inr hr
        · rw [← hsum, hm, hstore]
          exact hsums.1
        · rw [← hsum, hm, hstore]
          exact Nat.le_trans hsums.2 (Nat.mul_le_mul_left _ (by omega))
  · rw [if_neg hzero] at hok
    obtain ⟨rfl, hq⟩ := Prod.mk.inj (Except.ok.inj hok)
    obtain ⟨rfl, rfl⟩ := Prod.mk.inj hq
    obtain rfl := List.length_eq_zero_iff.mp (not_not.mp hzero)
    exact ⟨h, by decide, rfl, rfl, rfl, rfl, .refl 0, Nat.zero_le _⟩

/-- **The packet that is sent.** -/
theorem ip4OutputHeader_spec {m m' : Mem} {contiguous : Bool} {p p' : Pbuf} {next : List Pbuf}
    {src dest : UInt32} {ttl tos proto : UInt8} {ipId : ℕ} {options : List UInt8}
    (h : Consistent (p :: next)) (hid : ipId < 65536)
    (hapart : ∀ r ∈ next, r.payload + r.len ≤ p.payload - ipHlenMax ∨ p.payload ≤ r.payload)
    (hok : ip4OutputHeader m contiguous p src dest ttl tos proto ipId options = .ok (m', p')) :
    Consistent (p' :: next) ∧ (padOptions options).length ≤ 40 ∧
      p'.len = ipHlen + (padOptions options).length + p.len ∧
      p'.totLen = ipHlen + (padOptions options).length + (chainBytes m (p :: next)).length ∧
      chainBytes m' (p' :: next) = sentHeader options tos ttl proto p'.totLen ipId src dest
        (complement (wordSum (sentHeader options tos ttl proto p'.totLen ipId src dest 0))) ++
          chainBytes m (p :: next) := by
  rw [ip4OutputHeader] at hok
  rcases hopt : ip4Options m contiguous p options with e | ⟨m₁, q, chkSum⟩
  · rw [hopt] at hok
    cases hok
  · rw [hopt] at hok
    obtain ⟨hcons, hmax, hpayload, hlen, htotal, hbytes, hsum, hle⟩ := ip4Options_spec h hapart hopt
    have hplen := length_padOptions options
    have hmax' : (padOptions options).length ≤ 40 := by omega
    rcases hadd : pbufAddHeader contiguous q ipHlen with - | r
    · simp only [hadd] at hok
      cases hok
    · simp only [hadd] at hok
      obtain ⟨hm, rfl⟩ := Prod.mk.inj (Except.ok.inj hok)
      obtain ⟨hcons', hpayload', hlen', htotal'⟩ := pbufAddHeader_spec hcons hadd
      rw [← hplen, ip4Fields_eq m₁ r.payload src dest ttl tos proto (by simp only [ipHlen]; omega)
        hcons'.2.1 hid hsum hle] at hm
      refine ⟨hcons', hmax', by omega, by rw [h.length_chainBytes]; omega, ?_⟩
      rw [sentHeader, sentHeader, ← hm, List.append_assoc, ← hbytes]
      refine chainBytes_addHeader hpayload' hlen' fun s hs => ?_
      simp only [ipHlenMax, ipHlen] at hapart hpayload'
      rcases hapart s hs with hs | hs
      · exact .inl (by omega)
      · exact .inr (by omega)

/-- **Adding up the fields on the way** gives what `inet_chksum` gives for the header when it is
finished, with 0 in the checksum field. -/
theorem ip4_inline_chksum {m m' : Mem} {contiguous : Bool} {p p' : Pbuf} {next : List Pbuf}
    {src dest : UInt32} {ttl tos proto : UInt8} {ipId : ℕ} {options : List UInt8}
    (h : Consistent (p :: next)) (hid : ipId < 65536)
    (hapart : ∀ r ∈ next, r.payload + r.len ≤ p.payload - ipHlenMax ∨ p.payload ≤ r.payload)
    (hok : ip4OutputHeader m contiguous p src dest ttl tos proto ipId options = .ok (m', p')) :
    m'.u16At (p'.payload + 10) = inetChksum (m'.store (p'.payload + 10) (u16Bytes 0)) p'.payload
      (ipHlen + (padOptions options).length) := by
  obtain ⟨-, hmax, hlen, -, hsent⟩ := ip4OutputHeader_spec h hid hapart hok
  set w := sentHeader options tos ttl proto p'.totLen ipId src dest with hw
  set c := complement (wordSum (w 0)) with hc
  simp only [ipHlen] at hlen ⊢
  have hfield : m'.u16At (p'.payload + 10) = c :=
    u16At_of_chainBytes (complement_lt _) (by omega) (by rw [hsent, hw, sentHeader]; rfl)
  have hwlen : ∀ c, (w c).length = 20 + (padOptions options).length := fun c =>
    length_sentHeader ..
  have hload : m'.load p'.payload (20 + (padOptions options).length) = w c := by
    rw [load_eq_take m' next (by omega), hsent, ← hwlen c, List.take_left']
    rfl
  -- the header with 0 in the field
  have hzero : (m'.store (p'.payload + 10) (u16Bytes 0)).load p'.payload
      (20 + (padOptions options).length) = w 0 := by
    have hsplice := m'.store_splice p'.payload ((w 0).take 10)
      (addrBytes src ++ addrBytes dest ++ padOptions options)
      (show (u16Bytes c).length = (u16Bytes 0).length from rfl)
    have hold : m'.store p'.payload ((w 0).take 10 ++ (u16Bytes c ++
        (addrBytes src ++ addrBytes dest ++ padOptions options))) = m' := by
      have hwc : (w 0).take 10 ++ (u16Bytes c ++
          (addrBytes src ++ addrBytes dest ++ padOptions options)) = w c := by
        rw [hw, sentHeader, sentHeader]
        rfl
      rw [hwc, ← hload, Mem.store_load]
    rw [hold] at hsplice
    have hw0 : (w 0).take 10 ++ (u16Bytes 0 ++
        (addrBytes src ++ addrBytes dest ++ padOptions options)) = w 0 := by
      rw [hw, sentHeader]
      rfl
    have hten : ((w 0).take 10).length = 10 := by
      rw [List.length_take, hwlen]
      omega
    rw [hten, hw0] at hsplice
    rw [hsplice, ← hwlen 0, Mem.load_store_self]
  rw [hfield, inetChksum_eq _ (by omega), hzero]

/-- A report of 8 bytes that goes out with the router alert option. -/
def reportPbuf : Pbuf := ⟨0, 60, 8, 8⟩

def routerAlert : List UInt8 := [0x94, 4, 0, 0]

def optionMem : Mem := (Mem.store UInt8.ofNat 56 routerAlert).store 60 []

def packetMem : Mem :=
  ip4Fields optionMem 36 0x0A01A8C0 0x010000E0 1 0 2 24 32 7 (sumWords optionMem 56 2)

theorem ip4_inline_chksum_report :
    packetMem.u16At (36 + 10) = inetChksum (packetMem.store (36 + 10) (u16Bytes 0)) 36 (20 + 4) :=
  @ip4_inline_chksum UInt8.ofNat packetMem true reportPbuf ⟨0, 36, 32, 32⟩ [] 0x0A01A8C0 0x010000E0
    1 0 2 7 routerAlert ⟨rfl, by decide, trivial⟩ (by decide)
    (fun _ hr => (List.not_mem_nil hr).elim) rfl

/-! ### At the receiver -/

end Lpc1768
