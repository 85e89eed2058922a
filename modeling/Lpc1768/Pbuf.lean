/-
Lpc1768/Pbuf.lean

Packet buffers.  A pbuf is the record of the fields that the driver reads; a
chain is the list of the pbufs reached through `next`, head first, and `[]` is
`NULL`.  What `pbuf_alloc` gets from the heap is left open: `pbufAlloc` takes
it as an argument.

`pbufCopy` walks two chains at a time.  One pbuf is copied to another of the
same length by one `memcpy` (`pbufCopy_single`).
-/
import Lpc1768.Machine

namespace Lpc1768

/-- `struct pbuf`: its own address and the fields `payload`, `len` and
`tot_len`. -/
structure Pbuf where
  addr : ℕ
  payload : ℕ
  len : ℕ
  totLen : ℕ
  deriving DecidableEq, Repr

/-- The values of `err_t` that are returned. -/
inductive Err
  | ok | buf | val | arg
  deriving DecidableEq, Repr

/-- `pbuf_alloc(PBUF_RAW, length, PBUF_RAM)`; `heap` is the pbuf and the
payload address that the heap yields, if it has room. -/
def pbufAlloc (heap : Option (ℕ × ℕ)) (length : ℕ) : Option Pbuf :=
  heap.map fun a =>
    { addr := a.1, payload := a.2, len := u16 length, totLen := u16 length }

/-- `pbuf_clen`, which counts in a `u16_t`. -/
def pbufClen (p : List Pbuf) : ℕ :=
  p.foldl (fun len _ => u16 (len + 1)) 0

theorem pbufClen_eq (p : List Pbuf) : pbufClen p = p.length % 65536 := by
  suffices h : ∀ n : ℕ, n < 65536 →
      p.foldl (fun len _ => u16 (len + 1)) n = (n + p.length) % 65536 by
    simpa [pbufClen] using h 0 (by decide)
  induction p with
  | nil =>
      intro n hn
      exact (Nat.mod_eq_of_lt hn).symm
  | cons q qs ih =>
      intro n _
      have hu : u16 ((n : ℤ) + 1) = (n + 1) % 65536 := by
        unfold u16; omega
      rw [List.foldl_cons, hu, ih _ (Nat.mod_lt _ (by decide)), List.length_cons, Nat.mod_add_mod]
      congr 1
      omega

theorem pbufClen_le (p : List Pbuf) : pbufClen p ≤ p.length := by
  rw [pbufClen_eq]
  exact Nat.mod_le _ _

theorem pbufClen_of_lt {p : List Pbuf} (h : p.length < 65536) : pbufClen p = p.length := by
  rw [pbufClen_eq, Nat.mod_eq_of_lt h]

/-! ### Copying -/

/-- The head of the chain is the last pbuf of its packet, and another packet
follows. -/
def packetQueue : List Pbuf → Bool
  | p :: next => p.len = p.totLen && next ≠ []
  | [] => false

/-- The loop of `pbuf_copy`, at most `fuel` passes of it. -/
def pbufCopyLoop : ℕ → Mem → List Pbuf → ℕ → List Pbuf → ℕ → Mem × Err
  | fuel + 1, m, dst :: dsts, offsetTo, src :: srcs, offsetFrom =>
      let len :=
        if dst.len - offsetTo ≥ src.len - offsetFrom then src.len - offsetFrom
        else dst.len - offsetTo
      let m := m.memcpy (dst.payload + offsetTo) (src.payload + offsetFrom) len
      let offsetTo := offsetTo + len
      let offsetFrom := offsetFrom + len
      let pFrom := if offsetFrom ≥ src.len then srcs else src :: srcs
      let offsetFrom := if offsetFrom ≥ src.len then 0 else offsetFrom
      let pTo := if offsetTo = dst.len then dsts else dst :: dsts
      let offsetTo := if offsetTo = dst.len then 0 else offsetTo
      if pTo = [] ∧ pFrom ≠ [] then (m, .arg)
      else if packetQueue pFrom then (m, .val)
      else if packetQueue pTo then (m, .val)
      else if pFrom = [] then (m, .ok)
      else pbufCopyLoop fuel m pTo offsetTo pFrom offsetFrom
  | _, m, _, _, _, _ => (m, .arg)

/-- `pbuf_copy`; every pass of its loop finishes a pbuf of one of the chains. -/
def pbufCopy (m : Mem) (pTo pFrom : List Pbuf) : Mem × Err :=
  match pTo, pFrom with
  | dst :: dsts, src :: srcs =>
      if dst.totLen ≥ src.totLen then
        pbufCopyLoop ((dst :: dsts).length + (src :: srcs).length) m (dst :: dsts) 0 (src :: srcs) 0
      else (m, .arg)
  | _, _ => (m, .arg)

theorem pbufCopy_single (m : Mem) {dst src : Pbuf} (hlen : dst.len = src.len)
    (htot : dst.totLen = src.totLen) :
    pbufCopy m [dst] [src] = (m.memcpy dst.payload src.payload src.len, .ok) := by
  simp [pbufCopy, pbufCopyLoop, hlen, htot, packetQueue]

end Lpc1768
