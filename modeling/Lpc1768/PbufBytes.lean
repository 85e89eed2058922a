/-
Lpc1768/PbufBytes.lean

A chain of pbufs as an array of bytes.  The functions of pbuf.c that read and write the
data of a packet walk along the chain; what they do is what the plain operations do on
`chainBytes`:

* `pbuf_copy` and `pbuf_take_at` write a list of bytes over a part of the array
  (`writeChain`);
* `pbuf_copy_partial` reads a slice of it;
* `pbuf_memcmp` and `pbuf_memfind` compare and search in it.
-/
import Lpc1768.PbufHeader

namespace Lpc1768

/-! ### The functions -/

/-- `pbuf_skip`: the rest of the chain and the offset in it. -/
def pbufSkip : List Pbuf → ℕ → List Pbuf × ℕ
  | q :: next, offsetLeft =>
      if q.len ≤ offsetLeft then pbufSkip next (u16 (offsetLeft - q.len : ℤ))
      else (q :: next, offsetLeft)
  | [], offsetLeft => ([], offsetLeft)

/-- `pbuf_try_get_at`. -/
def pbufTryGetAt (m : Mem) (p : List Pbuf) (offset : ℕ) : ℤ :=
  match pbufSkip p offset with
  | (q :: _, qIdx) => if q.len > qIdx then (m (q.payload + qIdx)).toNat else -1
  | ([], _) => -1

/-- `pbuf_get_at`. -/
def pbufGetAt (m : Mem) (p : List Pbuf) (offset : ℕ) : UInt8 :=
  let ret := pbufTryGetAt m p offset
  if ret ≥ 0 then UInt8.ofNat ret.toNat else 0

/-- The comparison loop of `pbuf_memcmp`, with `left` more passes. -/
def pbufMemcmpLoop (m : Mem) (q : List Pbuf) (start s2 : ℕ) (i : ℕ) : ℕ → ℕ
  | 0 => 0
  | left + 1 =>
      if pbufGetAt m q (u16 (start + i : ℕ)) ≠ m (s2 + i) then min (i + 1) 0xFFFF
      else pbufMemcmpLoop m q start s2 (i + 1) left

/-- `pbuf_memcmp`. -/
def pbufMemcmp (m : Mem) (p : Pbuf) (next : List Pbuf) (offset s2 n : ℕ) : ℕ :=
  if p.totLen < offset + n then 0xffff
  else
    let (q, start) := pbufSkip (p :: next) offset
    pbufMemcmpLoop m q start s2 0 n

/-- The loop of `pbuf_memfind`, with `left` more passes. -/
def pbufMemfindLoop (m : Mem) (p : Pbuf) (next : List Pbuf) (mem memLen : ℕ) (i : ℕ) : ℕ → ℕ
  | 0 => 0xFFFF
  | left + 1 =>
      if pbufMemcmp m p next i mem memLen = 0 then i
      else pbufMemfindLoop m p next mem memLen (i + 1) left

/-- `pbuf_memfind`. -/
def pbufMemfind (m : Mem) (p : Pbuf) (next : List Pbuf) (mem memLen startOffset : ℕ) : ℕ :=
  let maxCmpStart := u16 (p.totLen - memLen : ℤ)
  if p.totLen ≥ memLen + startOffset then
    pbufMemfindLoop m p next mem memLen startOffset (maxCmpStart + 1 - startOffset)
  else 0xFFFF

/-! ### Writing over a chain -/

/-- The pbufs of a chain do not share memory. -/
def ChainApart (p : List Pbuf) : Prop :=
  p.Pairwise fun x y => Apart x.payload x.len y.payload y.len

/-- No pbuf of one chain shares memory with one of the other. -/
def ChainsApart (p q : List Pbuf) : Prop :=
  ∀ x ∈ p, ∀ y ∈ q, Apart x.payload x.len y.payload y.len

/-- The bytes written to the front of the chain. -/
def writeChain (m : Mem) : List Pbuf → List UInt8 → Mem
  | [], _ => m
  | q :: next, bs => writeChain (m.store q.payload (bs.take q.len)) next (bs.drop q.len)

/-- The pbuf from its `n`th byte on. -/
def Pbuf.from (p : Pbuf) (n : ℕ) : Pbuf := { p with payload := p.payload + n, len := p.len - n }

@[simp] theorem Pbuf.from_payload (p : Pbuf) (n : ℕ) : (p.from n).payload = p.payload + n := rfl

@[simp] theorem Pbuf.from_len (p : Pbuf) (n : ℕ) : (p.from n).len = p.len - n := rfl

theorem chainBytes_from (m : Mem) (p : Pbuf) (next : List Pbuf) {n : ℕ} (hn : n ≤ p.len) :
    chainBytes m (p.from n :: next) = (chainBytes m (p :: next)).drop n := by
  rw [chainBytes_cons, chainBytes_cons,
    List.drop_append_of_le_length (by rw [Mem.length_load]; exact hn), Pbuf.from, ← Mem.drop_load,
    Nat.add_sub_cancel' hn]

/-- A pbuf in two parts. -/
theorem chainBytes_split (m : Mem) (q : Pbuf) (next : List Pbuf) {n : ℕ} (hn : n ≤ q.len) :
    chainBytes m (q :: next) = m.load q.payload n ++ chainBytes m (q.from n :: next) := by
  rw [chainBytes_from m q next hn, load_eq_take m next hn, List.take_append_drop]

theorem writeChain_nil (m : Mem) (p : List Pbuf) : writeChain m p [] = m := by
  induction p generalizing m with
  | nil => rfl
  | cons q next ih => rw [writeChain, List.take_nil, List.drop_nil, Mem.store_nil, ih]

/-- A first part is written, then the rest. -/
theorem writeChain_step (m : Mem) (q : Pbuf) (next : List Pbuf) {xs : List UInt8}
    (hxs : xs.length ≤ q.len) (ys : List UInt8) :
    writeChain m (q :: next) (xs ++ ys) =
      writeChain (m.store q.payload xs) (q.from xs.length :: next) ys := by
  have htake : (xs ++ ys).take q.len = xs ++ ys.take (q.len - xs.length) := by
    rw [List.take_append, List.take_of_length_le hxs]
  have hdrop : (xs ++ ys).drop q.len = ys.drop (q.len - xs.length) := by
    rw [List.drop_append, List.drop_eq_nil_of_le hxs, List.nil_append]
  rw [writeChain, writeChain, htake, hdrop, Mem.store_append]
  rfl

theorem writeChain_full (m : Mem) (q : Pbuf) (next : List Pbuf) (hq : q.len = 0)
    (ys : List UInt8) : writeChain m (q :: next) ys = writeChain m next ys := by
  rw [writeChain, hq, List.take_zero, List.drop_zero, Mem.store_nil]

/-- Memory outside the chain is not touched. -/
theorem writeChain_outside (m : Mem) {p : List Pbuf} (bs : List UInt8) {x : ℕ}
    (hx : ∀ q ∈ p, x < q.payload ∨ q.payload + q.len ≤ x) : writeChain m p bs x = m x := by
  induction p generalizing m bs with
  | nil => rfl
  | cons q next ih =>
      obtain ⟨hq, hnext⟩ := List.forall_mem_cons.mp hx
      rw [writeChain, ih _ _ hnext]
      apply Mem.store_outside
      rw [List.length_take]
      omega

/-- A load sees what is written only if it meets the chain. -/
theorem load_writeChain (m : Mem) {p : List Pbuf} (bs : List UInt8) {a n : ℕ}
    (h : ∀ q ∈ p, Apart a n q.payload q.len) : (writeChain m p bs).load a n = m.load a n := by
  apply List.ext_getElem
  · simp
  · intro i hi _
    have hin : i < n := by simpa using hi
    rw [Mem.getElem_load, Mem.getElem_load]
    refine writeChain_outside m bs fun q hq => ?_
    have hapart := h q hq
    unfold Apart at hapart
    omega

theorem chainBytes_congr {m m' : Mem} {p : List Pbuf}
    (h : ∀ q ∈ p, m'.load q.payload q.len = m.load q.payload q.len) :
    chainBytes m' p = chainBytes m p :=
  List.flatMap_congr h

/-- What was written is read. -/
theorem chainBytes_writeChain (m : Mem) {p : List Pbuf} (h : ChainApart p) (bs : List UInt8)
    (hbs : bs.length ≤ (chainBytes m p).length) :
    chainBytes (writeChain m p bs) p = bs ++ (chainBytes m p).drop bs.length := by
  induction p generalizing m bs with
  | nil =>
      rw [List.eq_nil_of_length_eq_zero (Nat.le_zero.mp hbs)]
      rfl
  | cons q next ih =>
      obtain ⟨hq, hnext⟩ := List.pairwise_cons.mp h
      set m₁ := m.store q.payload (bs.take q.len) with hm₁
      have hlen : (bs.take q.len).length ≤ q.len := by
        rw [List.length_take]
        exact Nat.min_le_left _ _
      -- the pbufs behind it are not changed by the first store
      have hsame : chainBytes m₁ next = chainBytes m next := by
        refine chainBytes_congr fun r hr => ?_
        refine m.load_store_disjoint _ _ _ _ ?_
        have hapart := hq r hr
        unfold Apart at hapart
        omega
      have hfirst : (writeChain m₁ next (bs.drop q.len)).load q.payload q.len =
          bs.take q.len ++ (m.load q.payload q.len).drop bs.length := by
        rw [load_writeChain m₁ _ hq, hm₁, Mem.load_store_front,
          List.take_of_length_le hlen]
        congr 1
        rcases Nat.le_total q.len bs.length with hle | hle
        · rw [List.length_take, Nat.min_eq_left hle, Nat.sub_self,
            List.drop_eq_nil_of_le (by rw [Mem.length_load]; exact hle)]
          rfl
        · rw [List.length_take, Nat.min_eq_right hle, ← Mem.drop_load, Nat.add_sub_cancel' hle]
      rw [chainBytes_cons, List.length_append, Mem.length_load] at hbs
      have hrest := ih m₁ hnext (bs.drop q.len) (by
        rw [List.length_drop, hsame]
        omega)
      rw [writeChain, chainBytes_cons, hfirst, hrest, hsame, chainBytes_cons, List.drop_append,
        Mem.length_load, List.length_drop]
      -- the bytes run out in this pbuf, or behind it
      rcases Nat.le_total q.len bs.length with hle | hle
      · rw [List.drop_eq_nil_of_le (by rw [Mem.length_load]; exact hle), List.append_nil,
          List.nil_append, ← List.append_assoc, List.take_append_drop]
      · rw [List.drop_eq_nil_of_le hle, List.take_of_length_le hle, List.nil_append,
          List.append_assoc, Nat.sub_eq_zero_of_le hle]

/-- What lies in front of a pbuf of the chain. -/
theorem chainBytes_append (m : Mem) (p q : List Pbuf) :
    chainBytes m (p ++ q) = chainBytes m p ++ chainBytes m q :=
  List.flatMap_append

theorem ChainApart.right {front rest : List Pbuf} (h : ChainApart (front ++ rest)) :
    ChainApart rest :=
  (List.pairwise_append.mp h).2.1

theorem ChainApart.from {q : Pbuf} {next : List Pbuf} (h : ChainApart (q :: next)) {n : ℕ}
    (hn : n ≤ q.len) : ChainApart (q.from n :: next) := by
  obtain ⟨hq, hnext⟩ := List.pairwise_cons.mp h
  refine List.pairwise_cons.mpr ⟨fun r hr => ?_, hnext⟩
  have hapart := hq r hr
  unfold Apart at hapart ⊢
  simp only [Pbuf.from_payload, Pbuf.from_len]
  omega

/-- Where an offset leads to. -/
theorem pbufSkip_spec (m : Mem) {p : List Pbuf} {offset : ℕ} (hoffset : offset < 65536) :
    (∃ front q rest n, p = front ++ q :: rest ∧ pbufSkip p offset = (q :: rest, n) ∧ n < q.len ∧
      (chainBytes m front).length + n = offset) ∨
    (pbufSkip p offset).1 = [] ∧ (chainBytes m p).length ≤ offset := by
  induction p generalizing offset with
  | nil => exact .inr ⟨rfl, Nat.zero_le _⟩
  | cons q next ih =>
      rw [pbufSkip]
      by_cases hle : q.len ≤ offset
      · rw [if_pos hle]
        have hsub : u16 (offset - q.len : ℤ) = offset - q.len := by
          unfold u16
          omega
        rw [hsub]
        rcases @ih (offset - q.len) (by omega) with ⟨front, x, rest, n, hp, hskip, hn, hfront⟩ |
          ⟨hskip, hlen⟩
        · refine .inl ⟨q :: front, x, rest, n, by rw [hp]; rfl, hskip, hn, ?_⟩
          rw [chainBytes_cons, List.length_append, Mem.length_load]
          omega
        · refine .inr ⟨hskip, ?_⟩
          rw [chainBytes_cons, List.length_append, Mem.length_load]
          omega
      · rw [if_neg hle]
        exact .inl ⟨[], q, next, offset, rfl, rfl, Nat.lt_of_not_le hle, Nat.zero_add _⟩

theorem Consistent.right {front rest : List Pbuf} (h : Consistent (front ++ rest)) :
    Consistent rest := by
  induction front with
  | nil => exact h
  | cons q front ih => exact ih h.2.2

/-- Five bytes in two pbufs. -/
def cutPbufs : List Pbuf := [⟨0, 100, 3, 5⟩, ⟨150, 200, 2, 2⟩]

theorem consistent_cutPbufs : Consistent cutPbufs := ⟨rfl, by decide, rfl, by decide, trivial⟩

theorem chainApart_cutPbufs : ChainApart cutPbufs := by
  refine List.pairwise_cons.mpr ⟨?_, List.pairwise_singleton _ _⟩
  decide

/-- One byte of the array. -/
theorem pbufGetAt_eq (m : Mem) {p : List Pbuf} {offset : ℕ} (hoffset : offset < 65536)
    (hlt : offset < (chainBytes m p).length) :
    pbufGetAt m p offset = (chainBytes m p)[offset] := by
  rcases pbufSkip_spec m hoffset (p := p) with ⟨front, q, rest, n, rfl, hskip, hn, rfl⟩ | ⟨-, hle⟩
  · have hget : pbufGetAt m (front ++ q :: rest) ((chainBytes m front).length + n) =
        m (q.payload + n) := by
      rw [pbufGetAt, pbufTryGetAt, hskip]
      simp only [hn, if_true]
      rw [if_pos (Int.natCast_nonneg _), Int.toNat_natCast, UInt8.ofNat_toNat]
    have hload : (m.load q.payload q.len).length = q.len := m.length_load _ _
    rw [hget]
    simp only [chainBytes_append, chainBytes_cons]
    rw [List.getElem_append_right (Nat.le_add_right _ _), List.getElem_append_left (by omega),
      Mem.getElem_load, Nat.add_sub_cancel_left]
  · omega

/-- The comparison from the `i`th byte on. -/
theorem pbufMemcmpLoop_eq_zero_iff (m : Mem) {q : List Pbuf} {start s2 i left : ℕ}
    (hlen : start + i + left ≤ (chainBytes m q).length) (hmax : (chainBytes m q).length < 65536) :
    pbufMemcmpLoop m q start s2 i left = 0 ↔
      ((chainBytes m q).drop (start + i)).take left = m.load (s2 + i) left := by
  induction left generalizing i with
  | zero => exact iff_of_true rfl rfl
  | succ left ih =>
      have hu : u16 (start + i : ℕ) = start + i := u16_of_lt (by omega)
      rw [pbufMemcmpLoop, hu, pbufGetAt_eq m (by omega) (by omega),
        List.drop_eq_getElem_cons (by omega), List.take_succ_cons, Mem.load_cons, List.cons.injEq]
      by_cases hne : (chainBytes m q)[start + i] ≠ m (s2 + i)
      · rw [if_pos hne]
        refine iff_of_false ?_ fun h => hne h.1
        omega
      · rw [if_neg hne, and_iff_right (not_not.mp hne)]
        exact ih (by omega)

/-- `pbuf_memcmp` finds out whether the bytes at the offset are those of the buffer. -/
theorem pbufMemcmp_eq_zero_iff (m : Mem) {p : Pbuf} {next : List Pbuf}
    (hp : Consistent (p :: next)) {offset s2 n : ℕ} :
    pbufMemcmp m p next offset s2 n = 0 ↔ offset + n ≤ p.totLen ∧
      ((chainBytes m (p :: next)).drop offset).take n = m.load s2 n := by
  have hbytes := hp.length_chainBytes (m := m)
  have hmax := hp.2.1
  rw [pbufMemcmp]
  by_cases hshort : p.totLen < offset + n
  · rw [if_pos hshort]
    exact iff_of_false (by decide) fun h => absurd h.1 (Nat.not_le.mpr hshort)
  · rw [if_neg hshort, and_iff_right (Nat.le_of_not_lt hshort)]
    rcases pbufSkip_spec m (p := p :: next)
      (show offset < 65536 by omega) with
      ⟨front, q, rest, k, heq, hskip, -, rfl⟩ | ⟨hskip, hle⟩
    · rw [heq] at hbytes
      rw [hskip]
      show pbufMemcmpLoop m (q :: rest) k s2 0 n = 0 ↔ _
      rw [chainBytes_append, List.length_append] at hbytes
      rw [pbufMemcmpLoop_eq_zero_iff m (by omega) (by omega), heq, chainBytes_append,
        List.drop_append, List.drop_eq_nil_of_le (Nat.le_add_right _ _), List.nil_append,
        Nat.add_sub_cancel_left, Nat.add_zero, Nat.add_zero]
    · -- nothing is left, and nothing to be compared
      obtain rfl : n = 0 := by omega
      rcases heq : pbufSkip (p :: next) offset with ⟨q, k⟩
      exact iff_of_true rfl rfl

/-- The search from `i` on. -/
theorem pbufMemfindLoop_spec (m : Mem) {p : Pbuf} {next : List Pbuf} {mem memLen i left : ℕ} :
    let r := pbufMemfindLoop m p next mem memLen i left
    (r = 0xFFFF ∧ ∀ k, i ≤ k → k < i + left → pbufMemcmp m p next k mem memLen ≠ 0) ∨
      i ≤ r ∧ r < i + left ∧ pbufMemcmp m p next r mem memLen = 0 ∧
        ∀ k, i ≤ k → k < r → pbufMemcmp m p next k mem memLen ≠ 0 := by
  induction left generalizing i with
  | zero => exact .inl ⟨rfl, fun k hle hlt => absurd hlt (Nat.not_lt.mpr hle)⟩
  | succ left ih =>
      intro r
      by_cases hfound : pbufMemcmp m p next i mem memLen = 0
      · have hr : r = i := if_pos hfound
        rw [hr]
        exact .inr ⟨Nat.le_refl _, by omega, hfound, fun k hle hlt => absurd hlt (by omega)⟩
      · have hr : r = pbufMemfindLoop m p next mem memLen (i + 1) left := if_neg hfound
        have hfirst : ∀ {bound : ℕ}, (∀ k, i + 1 ≤ k → k < bound →
            pbufMemcmp m p next k mem memLen ≠ 0) → ∀ k, i ≤ k → k < bound →
              pbufMemcmp m p next k mem memLen ≠ 0 := by
          intro bound hlater k hle hlt
          rcases Nat.eq_or_lt_of_le hle with rfl | hlt'
          · exact hfound
          · exact hlater k hlt' hlt
        rw [hr]
        rcases @ih (i + 1) with ⟨hnone, hall⟩ | ⟨hle, hlt, hzero, hall⟩
        · refine .inl ⟨hnone, ?_⟩
          rw [show i + (left + 1) = i + 1 + left by omega]
          exact hfirst hall
        · exact .inr ⟨by omega, by omega, hzero, hfirst hall⟩

/-- **The first place** where the bytes occur, from `startOffset` on, is what `pbuf_memfind` gives,
and 0xFFFF if there is none. -/
theorem memfind_first (m : Mem) {p : Pbuf} {next : List Pbuf} (hp : Consistent (p :: next))
    {mem memLen startOffset : ℕ} (hpos : 0 < memLen) :
    let occurs k := k + memLen ≤ p.totLen ∧
      ((chainBytes m (p :: next)).drop k).take memLen = m.load mem memLen
    let r := pbufMemfind m p next mem memLen startOffset
    (r = 0xFFFF ∧ ∀ k, startOffset ≤ k → ¬ occurs k) ∨
      startOffset ≤ r ∧ r < 0xFFFF ∧ occurs r ∧ ∀ k, startOffset ≤ k → k < r → ¬ occurs k := by
  intro occurs r
  have hmax := hp.2.1
  have hoccurs : ∀ k, pbufMemcmp m p next k mem memLen = 0 ↔ occurs k := fun k =>
    pbufMemcmp_eq_zero_iff m hp
  by_cases hroom : p.totLen ≥ memLen + startOffset
  · have hsub : u16 (p.totLen - memLen : ℤ) = p.totLen - memLen := by
      unfold u16
      omega
    have hr : r = pbufMemfindLoop m p next mem memLen startOffset
        (p.totLen - memLen + 1 - startOffset) := by
      show pbufMemfind m p next mem memLen startOffset = _
      rw [pbufMemfind, if_pos hroom, hsub]
    rw [hr]
    rcases @pbufMemfindLoop_spec m p next mem memLen startOffset
      (p.totLen - memLen + 1 - startOffset) with
      ⟨hnone, hall⟩ | ⟨hle, hlt, hzero, hall⟩
    · refine .inl ⟨hnone, fun k hk hocc => ?_⟩
      have hkle := hocc.1
      exact hall k hk (by omega) ((hoccurs k).mpr hocc)
    · exact .inr ⟨hle, by omega, (hoccurs _).mp hzero,
        fun k hk hkr hocc => hall k hk hkr ((hoccurs k).mpr hocc)⟩
  · refine .inl ⟨if_neg hroom, fun k hk hocc => ?_⟩
    have hkle := hocc.1
    omega

/-- The bytes that are looked for. -/
def needleMem : Mem := Mem.store UInt8.ofNat 300 [102, 200]

theorem memfind_first_cut :
    let occurs k := k + 2 ≤ 5 ∧
      ((chainBytes needleMem cutPbufs).drop k).take 2 = needleMem.load 300 2
    let r := pbufMemfind needleMem ⟨0, 100, 3, 5⟩ [⟨150, 200, 2, 2⟩] 300 2 0
    (r = 0xFFFF ∧ ∀ k, 0 ≤ k → ¬ occurs k) ∨
      0 ≤ r ∧ r < 0xFFFF ∧ occurs r ∧ ∀ k, 0 ≤ k → k < r → ¬ occurs k :=
  memfind_first needleMem consistent_cutPbufs (by decide)

/-! ### Copying a packet -/

/-- One packet, not a queue: only the last pbuf has `len` = `tot_len`. -/
def Packet : List Pbuf → Prop
  | [] => True
  | [q] => q.totLen = q.len
  | q :: r :: next => q.totLen = q.len + r.totLen ∧ 0 < r.totLen ∧ Packet (r :: next)

theorem Packet.tail {q : Pbuf} {next : List Pbuf} (h : Packet (q :: next)) : Packet next := by
  cases next with
  | nil => trivial
  | cons r next => exact h.2.2

theorem Packet.length_chainBytes {m : Mem} {q : Pbuf} {next : List Pbuf} (h : Packet (q :: next)) :
    (chainBytes m (q :: next)).length = q.totLen := by
  induction next generalizing q with
  | nil =>
      rw [chainBytes_cons, List.length_append, Mem.length_load]
      exact h.symm
  | cons r next ih =>
      rw [chainBytes_cons, List.length_append, Mem.length_load, ih h.2.2, h.1]

theorem Packet.not_queue {p : List Pbuf} (h : Packet p) : packetQueue p = false := by
  cases p with
  | nil => rfl
  | cons q next =>
      cases next with
      | nil => simp [packetQueue]
      | cons r next =>
          obtain ⟨htotal, hpos, -⟩ := h
          have hne : q.len ≠ q.totLen := by omega
          simp [packetQueue, hne]

/-- Behind a pbuf of a packet there are more bytes, or no pbuf. -/
theorem Packet.tail_pos {m : Mem} {q : Pbuf} {next : List Pbuf} (h : Packet (q :: next))
    (hne : next ≠ []) : 0 < (chainBytes m next).length := by
  cases next with
  | nil => exact absurd rfl hne
  | cons r next =>
      rw [h.tail.length_chainBytes]
      exact h.2.1

/-- The tests at the end of a pass of `pbuf_copy` let packets through. -/
theorem pbufCopy_tests {pTo pFrom : List Pbuf} (hto : Packet pTo) (hfrom : Packet pFrom)
    (hmore : pFrom ≠ [] → pTo ≠ []) (m : Mem) (r : Mem × Err) :
    (if pTo = [] ∧ pFrom ≠ [] then (m, Err.arg)
      else if packetQueue pFrom then (m, .val)
      else if packetQueue pTo then (m, .val)
      else if pFrom = [] then (m, .ok)
      else r) = if pFrom = [] then (m, .ok) else r := by
  rw [if_neg fun h => hmore h.2 h.1, hto.not_queue, hfrom.not_queue]
  rfl

theorem Pbuf.from_zero (p : Pbuf) : p.from 0 = p := rfl

theorem Pbuf.from_from (p : Pbuf) (i j : ℕ) : (p.from i).from j = p.from (i + j) := by
  simp only [Pbuf.from, Nat.add_assoc, Nat.sub_sub]

theorem chainBytes_from_len (m : Mem) (p : Pbuf) (next : List Pbuf) :
    chainBytes m (p.from p.len :: next) = chainBytes m next := by
  rw [chainBytes_cons, Pbuf.from_len, Nat.sub_self]
  rfl

/-- The loop of `pbuf_copy` from two positions on. -/
theorem pbufCopyLoop_eq (m : Mem) {fuel : ℕ} {dst src : Pbuf} {dsts srcs : List Pbuf}
    {offsetTo offsetFrom : ℕ} (hfuel : (dst :: dsts).length + (src :: srcs).length ≤ fuel)
    (hto : Packet (dst :: dsts)) (hfrom : Packet (src :: srcs)) (hoffTo : offsetTo ≤ dst.len)
    (hoffFrom : offsetFrom ≤ src.len) (hdst : ChainApart (dst :: dsts))
    (hsrc : ChainsApart (src :: srcs) (dst :: dsts))
    (hroom : (chainBytes m (src.from offsetFrom :: srcs)).length ≤
      (chainBytes m (dst.from offsetTo :: dsts)).length) :
    pbufCopyLoop fuel m (dst :: dsts) offsetTo (src :: srcs) offsetFrom =
      (writeChain m (dst.from offsetTo :: dsts) (chainBytes m (src.from offsetFrom :: srcs)),
        .ok) := by
  induction fuel generalizing m dst src dsts srcs offsetTo offsetFrom with
  | zero =>
      rw [List.length_cons] at hfuel
      omega
  | succ fuel ih =>
      have hif : (if dst.len - offsetTo ≥ src.len - offsetFrom then src.len - offsetFrom
          else dst.len - offsetTo) = min (src.len - offsetFrom) (dst.len - offsetTo) := by
        split <;> omega
      rw [pbufCopyLoop]
      simp only [hif]
      set k := min (src.len - offsetFrom) (dst.len - offsetTo) with hk
      set m₁ := m.memcpy (dst.payload + offsetTo) (src.payload + offsetFrom) k with hm₁
      have hkload : (m.load (src.payload + offsetFrom) k).length = k := m.length_load _ _
      have hkfrom : k ≤ (src.from offsetFrom).len := Nat.min_le_left _ _
      have hkto : k ≤ (dst.from offsetTo).len := Nat.min_le_right _ _
      -- the store does not change what is still to be copied
      have hsame : chainBytes m₁ (src.from (offsetFrom + k) :: srcs) =
          chainBytes m (src.from (offsetFrom + k) :: srcs) := by
        refine chainBytes_congr fun x hx => m.load_store_disjoint _ _ _ _ ?_
        rw [hkload]
        rw [Pbuf.from_len] at hkfrom hkto
        rcases List.mem_cons.mp hx with rfl | hx
        · have hapart := hsrc src (List.mem_cons_self ..) dst (List.mem_cons_self ..)
          unfold Apart at hapart
          rw [Pbuf.from_payload, Pbuf.from_len]
          omega
        · have hapart := hsrc x (List.mem_cons_of_mem _ hx) dst (List.mem_cons_self ..)
          unfold Apart at hapart
          omega
      -- one pass writes the first `k` bytes
      have hpass : writeChain m (dst.from offsetTo :: dsts)
          (chainBytes m (src.from offsetFrom :: srcs)) =
          writeChain m₁ (dst.from (offsetTo + k) :: dsts)
            (chainBytes m₁ (src.from (offsetFrom + k) :: srcs)) := by
        rw [chainBytes_split m _ srcs hkfrom, Pbuf.from_from, hsame, Pbuf.from_payload,
          writeChain_step m _ dsts (by rw [hkload]; exact hkto), hkload, Pbuf.from_from]
        rfl
      have hroom' : (chainBytes m₁ (src.from (offsetFrom + k) :: srcs)).length ≤
          (chainBytes m₁ (dst.from (offsetTo + k) :: dsts)).length := by
        rw [chainBytes_cons, chainBytes_cons, List.length_append, List.length_append,
          Mem.length_load, Mem.length_load, length_chainBytes, length_chainBytes,
          Pbuf.from_len, Pbuf.from_len] at hroom ⊢
        rw [Pbuf.from_len] at hkfrom hkto
        omega
      rw [hpass]
      rw [Pbuf.from_len] at hkfrom hkto
      rw [List.length_cons, List.length_cons] at hfuel
      by_cases hto' : offsetTo + k = dst.len
      · simp only [if_pos hto']
        rw [hto', chainBytes_from_len] at hroom'
        rw [hto', writeChain_full _ _ _ (Nat.sub_self _)]
        have hdsts : ChainsApart (src :: srcs) dsts := fun x hx y hy =>
          hsrc x hx y (List.mem_cons_of_mem _ hy)
        by_cases hfrom' : offsetFrom + k ≥ src.len
        · -- on to the next pbuf of both
          simp only [if_pos hfrom']
          obtain hend : offsetFrom + k = src.len := by omega
          rw [hend, chainBytes_from_len] at hroom' ⊢
          have hmore : srcs ≠ [] → dsts ≠ [] := by
            rintro hne rfl
            exact absurd hroom' (Nat.not_le.mpr (hfrom.tail_pos hne))
          rw [pbufCopy_tests hto.tail hfrom.tail hmore]
          cases srcs with
          | nil => exact congrArg (·, Err.ok) (writeChain_nil m₁ dsts).symm
          | cons s srcs =>
              rw [if_neg (List.cons_ne_nil s srcs)]
              cases dsts with
              | nil => exact absurd rfl (hmore (List.cons_ne_nil s srcs))
              | cons d dsts =>
                  rw [List.length_cons, List.length_cons] at hfuel
                  exact ih m₁ (by rw [List.length_cons, List.length_cons]; omega) hto.tail
                    hfrom.tail (Nat.zero_le _) (Nat.zero_le _) hdst.tail
                    (fun x hx y hy => hdsts x (List.mem_cons_of_mem _ hx) y hy) hroom'
        · -- the pbuf of the source goes on
          simp only [if_neg hfrom']
          have hmore : src :: srcs ≠ [] → dsts ≠ [] := by
            rintro - rfl
            rw [chainBytes_cons, List.length_append, Mem.length_load, Pbuf.from_len] at hroom'
            have hnil : (chainBytes m₁ []).length = 0 := rfl
            omega
          rw [pbufCopy_tests hto.tail hfrom hmore, if_neg (List.cons_ne_nil src srcs)]
          cases dsts with
          | nil => exact absurd rfl (hmore (List.cons_ne_nil src srcs))
          | cons d dsts =>
              rw [List.length_cons] at hfuel
              exact ih m₁ (by rw [List.length_cons, List.length_cons]; omega) hto.tail hfrom
                (Nat.zero_le _) (by omega) hdst.tail hdsts hroom'
      · -- the pbuf of the target has room left
        simp only [if_neg hto']
        have hfrom' : offsetFrom + k ≥ src.len := by omega
        simp only [if_pos hfrom']
        obtain hend : offsetFrom + k = src.len := by omega
        rw [hend, chainBytes_from_len] at hroom' ⊢
        rw [pbufCopy_tests hto hfrom.tail fun _ => List.cons_ne_nil dst dsts]
        cases srcs with
        | nil => exact congrArg (·, Err.ok) (writeChain_nil m₁ _).symm
        | cons s srcs =>
            rw [List.length_cons] at hfuel
            rw [if_neg (List.cons_ne_nil s srcs)]
            exact ih m₁ (by rw [List.length_cons, List.length_cons]; omega) hto hfrom.tail
              (by omega) (Nat.zero_le _) hdst
              (fun x hx y hy => hsrc x (List.mem_cons_of_mem _ hx) y hy) hroom'

theorem pbufCopy_eq (m : Mem) {dst src : Pbuf} {dsts srcs : List Pbuf}
    (hto : Packet (dst :: dsts)) (hfrom : Packet (src :: srcs)) (hdst : ChainApart (dst :: dsts))
    (hsrc : ChainsApart (src :: srcs) (dst :: dsts)) (hle : src.totLen ≤ dst.totLen) :
    pbufCopy m (dst :: dsts) (src :: srcs) =
      (writeChain m (dst :: dsts) (chainBytes m (src :: srcs)), .ok) := by
  rw [pbufCopy, if_pos hle]
  refine pbufCopyLoop_eq m (Nat.le_refl _) hto hfrom (Nat.zero_le _) (Nat.zero_le _) hdst hsrc ?_
  rw [Pbuf.from_zero, Pbuf.from_zero, hfrom.length_chainBytes, hto.length_chainBytes]
  exact hle

/-- **`pbuf_copy` copies a packet** from one chain to another, however both are cut into pbufs: the
loop comes to an end, the bytes of the source are in front of what was there, and nothing else
is changed.  It refuses when the target is too short, and only then. -/
theorem pbuf_copy_packet (m : Mem) {dst src : Pbuf} {dsts srcs : List Pbuf}
    (hto : Packet (dst :: dsts)) (hfrom : Packet (src :: srcs)) (hdst : ChainApart (dst :: dsts))
    (hsrc : ChainsApart (src :: srcs) (dst :: dsts)) :
    let r := pbufCopy m (dst :: dsts) (src :: srcs)
    if src.totLen ≤ dst.totLen then
      r.2 = .ok ∧ chainBytes r.1 (dst :: dsts) =
        chainBytes m (src :: srcs) ++ (chainBytes m (dst :: dsts)).drop src.totLen ∧
        ∀ x, (∀ q ∈ dst :: dsts, x < q.payload ∨ q.payload + q.len ≤ x) → r.1 x = m x
    else r = (m, .arg) := by
  intro r
  by_cases hle : src.totLen ≤ dst.totLen
  · rw [if_pos hle, show r = _ from pbufCopy_eq m hto hfrom hdst hsrc hle]
    have hlen := hfrom.length_chainBytes (m := m)
    refine ⟨rfl, ?_, fun x hx => writeChain_outside m _ hx⟩
    rw [chainBytes_writeChain m hdst _ (by rw [hlen, hto.length_chainBytes]; exact hle), hlen]
  · rw [if_neg hle]
    exact if_neg hle

theorem pbuf_copy_packet_cut :
    (pbufCopy UInt8.ofNat cutPbufs [⟨250, 300, 1, 4⟩, ⟨350, 400, 3, 3⟩]).2 = .ok :=
  ((if_pos (by decide)).mp (@pbuf_copy_packet UInt8.ofNat ⟨0, 100, 3, 5⟩ ⟨250, 300, 1, 4⟩
    [⟨150, 200, 2, 2⟩] [⟨350, 400, 3, 3⟩] ⟨rfl, by decide, rfl⟩ ⟨rfl, by decide, rfl⟩
    chainApart_cutPbufs (by unfold ChainsApart; decide))).1

/-! ### Cutting off -/

/-- Every pbuf that is left lies in one of those that were there. -/
theorem mem_pbufTrim {shrink : ℕ} {p : List Pbuf} {remLen : ℕ} {x : Pbuf}
    (hx : x ∈ pbufTrim shrink p remLen) : ∃ y ∈ p, x.payload = y.payload ∧ x.len ≤ y.len := by
  induction p generalizing remLen with
  | nil => exact (List.not_mem_nil hx).elim
  | cons q next ih =>
      rw [pbufTrim] at hx
      split at hx
      · rcases List.mem_cons.mp hx with rfl | hx
        · exact ⟨q, List.mem_cons_self .., rfl, Nat.le_refl _⟩
        · obtain ⟨y, hy, hin⟩ := ih hx
          exact ⟨y, List.mem_cons_of_mem _ hy, hin⟩
      · next hle =>
        rw [List.mem_singleton.mp hx]
        exact ⟨q, List.mem_cons_self .., rfl, Nat.le_of_not_lt hle⟩

theorem ChainApart.pbufTrim {shrink : ℕ} {p : List Pbuf} (h : ChainApart p) (remLen : ℕ) :
    ChainApart (pbufTrim shrink p remLen) := by
  induction p generalizing remLen with
  | nil => exact h
  | cons q next ih =>
      obtain ⟨hq, hnext⟩ := List.pairwise_cons.mp h
      rw [Lpc1768.pbufTrim]
      split
      · refine List.pairwise_cons.mpr ⟨fun x hx => ?_, ih hnext _⟩
        obtain ⟨y, hy, hpayload, hlen⟩ := mem_pbufTrim hx
        have hapart := hq y hy
        unfold Apart at hapart ⊢
        simp only
        omega
      · exact List.pairwise_singleton _ _

end Lpc1768
