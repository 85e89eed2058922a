/-
Lpc1768/HeapRuns.lean

The heap over whole runs.  `HeapRep p h free used` says what the links and the
counter mean: the free blocks, in order and with gaps, and the blocks of the tasks
share out the heap between them.  `prvHeapInit`, `pvPortMalloc` and `vPortFree` keep
it (`heapRep_init`, `HeapRep.malloc`, `HeapRep.free`).

The tasks allocate, free what they hold, and write to their own buffers, in any
order (`heapStep`).  Whatever they do, the loops of heap_4.c end, no two buffers
meet, and a request is only refused when no gap between the blocks of the tasks is
long enough for it.
-/
import Mathlib.Data.Nat.Bitwise
import Lpc1768.Heap4
import Lpc1768.Transition

namespace Lpc1768

/-! ### Where the heap is -/

section Place

variable (p : HeapPlace)

theorem HeapPlace.base_spec :
    p.ucHeap ≤ p.base ∧ p.base < p.ucHeap + 8 ∧ 8 ∣ p.base := by
  rw [HeapPlace.base, portByteAlignment]
  split <;> omega

theorem HeapPlace.pxEnd_spec :
    8 ∣ p.pxEnd ∧ p.pxEnd + xHeapStructSize ≤ p.ucHeap + configTotalHeapSize ∧
      p.base + heapMinimumBlockSize < p.pxEnd := by
  obtain ⟨hle, hlt, hdvd⟩ := p.base_spec
  have he : p.pxEnd = (p.base + (configTotalHeapSize - (p.base - p.ucHeap)) - 8) / 8 * 8 := rfl
  rw [he]
  simp only [configTotalHeapSize, heapMinimumBlockSize, xHeapStructSize]
  omega

theorem HeapPlace.base_pos : 0 < p.base :=
  Nat.lt_of_lt_of_le p.pos p.base_spec.1

theorem HeapPlace.base_lt_pxEnd : p.base < p.pxEnd :=
  Nat.lt_of_le_of_lt (Nat.le_add_right _ _) p.pxEnd_spec.2.2

theorem HeapPlace.pxEnd_pos : 0 < p.pxEnd :=
  Nat.lt_trans p.base_pos p.base_lt_pxEnd

/-- `xStart` is not in the heap. -/
theorem HeapPlace.xStart_ne {a : ℕ} (hlo : p.base ≤ a) (hhi : a ≤ p.pxEnd) : p.xStart ≠ a := by
  have h1 := p.base_spec.1
  have h2 := p.pxEnd_spec.2.1
  have h3 := p.apart
  simp only [xHeapStructSize] at h2 h3
  omega

theorem HeapPlace.ne_xStart {b : Span} (hin : p.base ≤ b.start ∧ b.stop ≤ p.pxEnd) :
    b.start ≠ p.xStart :=
  (p.xStart_ne hin.1 (Nat.le_trans (Nat.le_add_right _ _) hin.2)).symm

theorem HeapPlace.ne_pxEnd {b : Span} (hb : 0 < b.size)
    (hin : p.base ≤ b.start ∧ b.stop ≤ p.pxEnd) : b.start ≠ p.pxEnd := by
  rw [Span.stop] at hin
  omega

/-- The heap is much smaller than the bit that marks the blocks of the tasks. -/
theorem HeapPlace.size_lt : p.pxEnd - p.base < configTotalHeapSize := by
  have h1 := p.base_spec.1
  have h2 := p.pxEnd_spec.2.1
  simp only [xHeapStructSize, configTotalHeapSize] at h2 ⊢
  omega

end Place

/-! ### The marked size -/

theorem or_allocatedBit {n : ℕ} (h : n < xBlockAllocatedBit) :
    n ||| xBlockAllocatedBit = xBlockAllocatedBit + n := by
  have hadd := Nat.two_pow_add_eq_or_of_lt h 1
  rw [Nat.mul_one] at hadd
  rw [Nat.or_comm]
  exact hadd.symm

theorem or_allocatedBit_and (n : ℕ) :
    (n ||| xBlockAllocatedBit) &&& xBlockAllocatedBit ≠ 0 := by
  intro h
  have htest := congrArg (Nat.testBit · 31) h
  rw [xBlockAllocatedBit, Nat.testBit_and, Nat.testBit_or, Nat.testBit_two_pow_self,
    Bool.or_true, Bool.and_true, Nat.zero_testBit] at htest
  exact Bool.true_eq_false.mp htest

theorem or_allocatedBit_clear {n : ℕ} (h : n < xBlockAllocatedBit) :
    (n ||| xBlockAllocatedBit) &&& (xBlockAllocatedBit - 1) = n := by
  rw [or_allocatedBit h, xBlockAllocatedBit, Nat.and_two_pow_sub_one_eq_mod, Nat.add_mod_left]
  exact Nat.mod_eq_of_lt h

/-- A `size_t` without the bit. -/
theorem and_allocatedBit_eq_zero {n : ℕ} (h : n < 2 ^ 32) :
    n &&& xBlockAllocatedBit = 0 ↔ n < xBlockAllocatedBit := by
  have htest : n.testBit 31 = decide (2 ^ 31 ≤ n) := by
    rw [Nat.testBit_eq_decide_div_mod_eq, decide_eq_decide]
    omega
  rw [xBlockAllocatedBit, Nat.and_two_pow, htest, Nat.mul_eq_zero, Bool.toNat_eq_zero,
    decide_eq_false_iff_not, Nat.not_le]
  exact or_iff_left (Nat.ne_of_gt (Nat.two_pow_pos 31))

/-! ### The free list -/

/-- From `xStart` to `pxEnd` the links lead through the free blocks. -/
structure FreeList (p : HeapPlace) (mem : ℕ → BlockLink) (free : List Span) : Prop where
  links : LinksTo mem p.xStart free p.pxEnd
  first : (mem p.xStart).xBlockSize = 0
  last : mem p.pxEnd = ⟨0, 0⟩
  separated : Separated free
  within : Within p.base p.pxEnd free

namespace FreeList

variable {p : HeapPlace} {mem mem' : ℕ → BlockLink} {free pre post : List Span} {b : Span}

theorem ne_xStart (hf : FreeList p mem free) (hb : b ∈ free) : b.start ≠ p.xStart :=
  p.ne_xStart (hf.within b hb)

theorem ne_pxEnd (hf : FreeList p mem free) (hb : b ∈ free) : b.start ≠ p.pxEnd :=
  p.ne_pxEnd (hf.separated.pos b hb) (hf.within b hb)

theorem length_lt (hf : FreeList p mem free) : free.length < configTotalHeapSize := by
  have hlt := p.base_lt_pxEnd
  have hle := hf.separated.total_add_length_le hf.within (Nat.le_of_lt (Nat.lt_succ_of_lt hlt))
  have hroom := p.pxEnd_spec.2.1
  have hbase := p.base_spec.1
  simp only [xHeapStructSize] at hroom
  omega

/-- Writes elsewhere leave the list alone. -/
theorem congr (hf : FreeList p mem free) (hfirst : mem' p.xStart = mem p.xStart)
    (hlast : mem' p.pxEnd = mem p.pxEnd) (hfree : ∀ b ∈ free, mem' b.start = mem b.start) :
    FreeList p mem' free where
  links := hf.links.congr (by rw [hfirst]) hfree
  first := by rw [hfirst, hf.first]
  last := by rw [hlast, hf.last]
  separated := hf.separated
  within := hf.within

/-- A block is put into the list. -/
theorem insert (hf : FreeList p mem free) (hsize : (mem b.start).xBlockSize = b.size)
    (hb : 0 < b.size) (hapart : ∀ c ∈ free, b.Apart c)
    (hin : p.base ≤ b.start ∧ b.stop ≤ p.pxEnd) :
    ∃ mem', prvInsertBlockIntoFreeList p mem p.pxEnd b.start = some mem' ∧
      FreeList p mem' (insertSpan b free) ∧
      ∀ a, a ≠ p.xStart → a ≠ b.start → (∀ c ∈ free, a ≠ c.start) → mem' a = mem a := by
  obtain ⟨hlo, hhi⟩ := hin
  have hlt : b.start < p.pxEnd := by
    rw [Span.stop] at hhi
    omega
  have hxe : p.pxEnd ≠ p.xStart :=
    (p.xStart_ne (Nat.le_of_lt p.base_lt_pxEnd) (Nat.le_refl _)).symm
  obtain ⟨mem', hins, hlinks, hfirst, hfar⟩ := hf.links.insert hf.first hsize hf.separated hb
    hapart hhi (p.xStart_ne hlo (Nat.le_of_lt hlt)) (fun c hc => hf.ne_xStart hc)
    (fun c hc => hf.ne_pxEnd hc) hf.length_lt
  refine ⟨mem', hins, ⟨hlinks, hfirst, ?_, hf.separated.insertSpan hb hapart,
    hf.within.insertSpan ⟨hlo, hhi⟩⟩, hfar⟩
  rw [hfar _ hxe (Nat.ne_of_gt hlt) fun c hc => (hf.ne_pxEnd hc).symm]
  exact hf.last

/-- The block that is found is taken out of the list. -/
theorem remove (hf : FreeList p mem (pre ++ b :: post)) :
    FreeList p (Function.update mem (lastLink p.xStart pre)
      { mem (lastLink p.xStart pre) with pxNextFreeBlock := (mem b.start).pxNextFreeBlock })
      (pre ++ post) := by
  have hsub : (pre ++ post).Sublist (pre ++ b :: post) :=
    List.Sublist.append_left (List.sublist_cons_self _ _) _
  have hstarts : ((pre ++ post).map Span.start).Nodup := by
    refine List.pairwise_map.mpr ((hf.separated.gaps.sublist hsub).imp fun hlt => ?_)
    rw [Span.stop] at hlt
    omega
  have hx : p.xStart ∉ (pre ++ post).map Span.start := fun hmem => by
    obtain ⟨c, hc, heq⟩ := List.mem_map.mp hmem
    exact hf.ne_xStart (hsub.subset hc) heq
  have hlast : p.pxEnd ≠ lastLink p.xStart pre := by
    rcases lastLink_mem p.xStart pre with hl | ⟨c, hc, hl⟩ <;> rw [hl]
    · exact (p.xStart_ne (Nat.le_of_lt p.base_lt_pxEnd) (Nat.le_refl _)).symm
    · exact (hf.ne_pxEnd (List.mem_append_left _ hc)).symm
  refine
    { links := hf.links.remove (List.nodup_cons.mpr ⟨hx, hstarts⟩)
      first := ?_
      last := ?_
      separated := ⟨fun c hc => hf.separated.pos c (hsub.subset hc), hf.separated.gaps.sublist hsub⟩
      within := fun c hc => hf.within c (hsub.subset hc) }
  · by_cases heq : p.xStart = lastLink p.xStart pre
    · rw [← heq, Function.update_self]
      exact hf.first
    · rw [Function.update_of_ne heq]
      exact hf.first
  · rw [Function.update_of_ne hlast]
    exact hf.last

end FreeList

/-! ### The representation -/

/-- The free blocks are linked, the used ones are marked, and together they share out
the heap. -/
structure HeapRep (p : HeapPlace) (h : Heap4) (free used : List Span) : Prop where
  pxEnd : h.pxEnd = p.pxEnd
  list : FreeList p h.mem free
  heads : ∀ b ∈ used, h.mem b.start = ⟨0, b.size ||| xBlockAllocatedBit⟩
  shares : Shares portByteAlignment p.base p.pxEnd free used
  remaining : h.xFreeBytesRemaining = total free

/-- At first the whole heap is one free block. -/
theorem heapRep_init (p : HeapPlace) (h : Heap4) :
    HeapRep p (prvHeapInit p h) [⟨p.base, p.pxEnd - p.base⟩] [] := by
  have hlt := p.base_lt_pxEnd
  have hxb : p.xStart ≠ p.base := p.xStart_ne (Nat.le_refl _) (Nat.le_of_lt hlt)
  have hxe : p.xStart ≠ p.pxEnd := p.xStart_ne (Nat.le_of_lt hlt) (Nat.le_refl _)
  have hshares := Shares.whole hlt p.base_spec.2.2 p.pxEnd_spec.1
  have hlist : FreeList p (prvHeapInit p h).mem [⟨p.base, p.pxEnd - p.base⟩] := by
    refine
      { links := ⟨?_, ?_, ?_⟩
        first := ?_
        last := ?_
        separated := hshares.separated
        within := fun b hb => hshares.within b (List.mem_append_left _ hb) }
    · simp [prvHeapInit, hxb, hxe]
    · simp [prvHeapInit]
    · simp [prvHeapInit, LinksTo]
    · simp [prvHeapInit, hxb, hxe]
    · simp [prvHeapInit, Nat.ne_of_gt hlt]
  exact
    { pxEnd := rfl
      list := hlist
      heads := fun b hb => (List.not_mem_nil hb).elim
      shares := hshares
      remaining := rfl }

namespace HeapRep

variable {p : HeapPlace} {h : Heap4} {free used used' pre post : List Span} {b c : Span}

theorem perm (hr : HeapRep p h free used) (hp : used.Perm used') : HeapRep p h free used' where
  pxEnd := hr.pxEnd
  list := hr.list
  heads := fun c hc => hr.heads c (hp.mem_iff.mpr hc)
  shares := hr.shares.perm hp
  remaining := hr.remaining

/-- A used block is smaller than the mark. -/
theorem size_lt (hr : HeapRep p h free used) (hb : b ∈ used) : b.size < xBlockAllocatedBit := by
  obtain ⟨hlo, hhi⟩ := hr.shares.usedWithin hb
  have hlt := p.size_lt
  simp only [Span.stop, configTotalHeapSize, xBlockAllocatedBit] at hhi hlt ⊢
  omega

/-- **Freeing** a used block puts its span back among the free ones. -/
theorem free_spec (hr : HeapRep p h free (b :: used)) :
    ∃ h', vPortFree p h (b.start + xHeapStructSize) = some h' ∧
      HeapRep p h' (insertSpan b free) used ∧
      h'.xMinimumEverFreeBytesRemaining = h.xMinimumEverFreeBytesRemaining := by
  have hb : b ∈ b :: used := List.mem_cons_self
  have hs := hr.shares
  have hpos := hs.pos b hb
  have hin := hs.usedWithin hb
  have hhead := hr.heads b hb
  -- the mark is taken off
  set mem := Function.update h.mem b.start ⟨0, b.size⟩ with hmem
  have hother : ∀ {a}, a ≠ b.start → mem a = h.mem a := fun ha => Function.update_of_ne ha _ _
  have hlist : FreeList p mem free := hr.list.congr (hother (p.ne_xStart hin).symm)
    (hother (p.ne_pxEnd hpos hin).symm) fun c hc => hother (hs.ne_free hb hc).symm
  obtain ⟨mem', hins, hlist', hfar⟩ := hlist.insert (by rw [hmem, Function.update_self]) hpos
    (hs.freeApart b hb) hin
  refine ⟨{ h with mem := mem', xFreeBytesRemaining := h.xFreeBytesRemaining + b.size }, ?_, ?_,
    rfl⟩
  · have hpv : b.start + xHeapStructSize ≠ 0 := Nat.ne_of_gt (Nat.succ_pos _)
    rw [vPortFree, if_pos hpv]
    simp only [Nat.add_sub_cancel, hhead, ne_eq, or_allocatedBit_and, not_false_eq_true, if_true,
      or_allocatedBit_clear (hr.size_lt hb), hr.pxEnd]
    rw [← hmem, hins]
    rfl
  · refine
      { pxEnd := hr.pxEnd
        list := hlist'
        heads := fun c hc => ?_
        shares := hs.giveBack
        remaining := ?_ }
    · have hc' := List.mem_cons_of_mem b hc
      show mem' c.start = _
      rw [hfar _ (p.ne_xStart (hs.usedWithin hc')) (hs.ne_used hc) fun d hd => hs.ne_free hc' hd,
        hother (hs.ne_used hc)]
      exact hr.heads c hc'
    · show h.xFreeBytesRemaining + b.size = _
      rw [total_insertSpan, Nat.add_comm, hr.remaining]

end HeapRep

/-- The block of a request. -/
theorem blockSize_spec {n : ℕ} (hn : 0 < n) :
    n + xHeapStructSize ≤ blockSize n ∧ blockSize n < n + xHeapStructSize + portByteAlignment ∧
      portByteAlignment ∣ blockSize n := by
  have hsize : blockSize n = if (n + 8) % 8 ≠ 0 then n + 8 + (8 - (n + 8) % 8) else n + 8 :=
    if_pos hn
  rw [hsize, xHeapStructSize, portByteAlignment]
  split <;> omega

namespace HeapRep

variable {p : HeapPlace} {h : Heap4} {free used pre post : List Span} {b c : Span}

/-- What is left over is a block of its own, if it is large enough for one. -/
theorem splitBlock_spec {mem : ℕ → BlockLink} {w : ℕ} (hlist : FreeList p mem free)
    (hs : Shares portByteAlignment p.base p.pxEnd free (b :: used))
    (hsize : (mem b.start).xBlockSize = b.size) (hw : 0 < w) (hle : w ≤ b.size)
    (hgrid : portByteAlignment ∣ w) :
    ∃ k free' mem', splitBlock p mem p.pxEnd b.start w = some mem' ∧ FreeList p mem' free' ∧
      Shares portByteAlignment p.base p.pxEnd free' (⟨b.start, k⟩ :: used) ∧
      (mem' b.start).xBlockSize = k ∧ w ≤ k ∧ k ≤ w + heapMinimumBlockSize ∧
      ∀ c ∈ used, mem' c.start = mem c.start := by
  rw [splitBlock, hsize]
  by_cases hsplit : b.size - w > heapMinimumBlockSize
  · rw [if_pos hsplit]
    have hcut := hs.cut hw (Nat.lt_of_sub_pos (Nat.lt_of_le_of_lt (Nat.zero_le _) hsplit)) hgrid
    set rest : Span := ⟨b.start + w, b.size - w⟩ with hrest
    set front : Span := ⟨b.start, w⟩ with hfront
    have hrmem : rest ∈ rest :: front :: used := List.mem_cons_self
    have hfmem : front ∈ rest :: front :: used := List.mem_cons_of_mem _ List.mem_cons_self
    have hrf : front.start ≠ rest.start := hcut.ne_used List.mem_cons_self
    have hback := hcut.giveBack
    set mem₁ := Function.update mem rest.start { mem rest.start with xBlockSize := rest.size }
      with hmem₁
    set mem₂ := Function.update mem₁ front.start { mem₁ front.start with xBlockSize := w }
      with hmem₂
    have hfront₂ : (mem₂ front.start).xBlockSize = w := by rw [hmem₂, Function.update_self]
    have hrest₂ : (mem₂ rest.start).xBlockSize = rest.size := by
      rw [hmem₂, Function.update_of_ne hrf.symm, hmem₁, Function.update_self]
    have hother : ∀ {a}, a ≠ front.start → a ≠ rest.start → mem₂ a = mem a := fun h1 h2 =>
      (Function.update_of_ne h1 _ _).trans (Function.update_of_ne h2 _ _)
    have hlist₂ : FreeList p mem₂ free := hlist.congr
      (hother (p.ne_xStart (hcut.usedWithin hfmem)).symm
        (p.ne_xStart (hcut.usedWithin hrmem)).symm)
      (hother (p.ne_pxEnd (hcut.pos _ hfmem) (hcut.usedWithin hfmem)).symm
        (p.ne_pxEnd (hcut.pos _ hrmem) (hcut.usedWithin hrmem)).symm)
      fun c hc => hother (hcut.ne_free hfmem hc).symm (hcut.ne_free hrmem hc).symm
    obtain ⟨mem', hins, hlist', hfar⟩ := hlist₂.insert hrest₂ (hcut.pos _ hrmem)
      (hcut.freeApart _ hrmem) (hcut.usedWithin hrmem)
    have hkeep : ∀ c ∈ front :: used, mem' c.start = mem₂ c.start := fun c hc =>
      hfar _ (p.ne_xStart (hcut.usedWithin (List.mem_cons_of_mem _ hc))) (hcut.ne_used hc)
        fun d hd => hcut.ne_free (List.mem_cons_of_mem _ hc) hd
    refine ⟨w, _, mem', hins, hlist', hback, ?_, Nat.le_refl _, Nat.le_add_right _ _,
      fun c hc => ?_⟩
    · rw [← hfront₂]
      exact congrArg BlockLink.xBlockSize (hkeep front List.mem_cons_self)
    · rw [hkeep c (List.mem_cons_of_mem _ hc)]
      exact hother (hback.ne_used hc) (hcut.ne_used (List.mem_cons_of_mem _ hc))
  · rw [if_neg hsplit]
    exact ⟨b.size, free, mem, rfl, hlist, hs, hsize, hle, by omega, fun c hc => rfl⟩

/-- The block that is found is handed out, without what is left over if that is a block
of its own. -/
theorem takeBlock_spec {w : ℕ} (hr : HeapRep p h (pre ++ b :: post) used) (hw : 0 < w)
    (hle : w ≤ b.size) (hgrid : portByteAlignment ∣ w) :
    ∃ k free' h', takeBlock p h (lastLink p.xStart pre) b.start w =
        some (b.start + xHeapStructSize, h') ∧
      HeapRep p h' free' (⟨b.start, k⟩ :: used) ∧ w ≤ k ∧ k ≤ w + heapMinimumBlockSize ∧
      h'.xMinimumEverFreeBytesRemaining =
        min h.xMinimumEverFreeBytesRemaining h'.xFreeBytesRemaining := by
  have hs := hr.shares.take
  obtain ⟨hprelinks, hnext, hsize, hpostlinks⟩ := linksTo_append.mp hr.list.links
  have hb : b ∈ b :: used := List.mem_cons_self
  -- the block before it is not used, and not the block itself
  have hprev : ∀ c ∈ b :: used, c.start ≠ lastLink p.xStart pre := fun c hc => by
    rcases lastLink_mem p.xStart pre with hl | ⟨d, hd, hl⟩ <;> rw [hl]
    · exact p.ne_xStart (hs.usedWithin hc)
    · exact hs.ne_free hc (List.mem_append_left _ hd)
  have hlist := hr.list.remove
  set mem₁ := Function.update h.mem (lastLink p.xStart pre)
    { h.mem (lastLink p.xStart pre) with pxNextFreeBlock := (h.mem b.start).pxNextFreeBlock }
    with hmem₁
  have hsame : ∀ c ∈ b :: used, mem₁ c.start = h.mem c.start := fun c hc =>
    Function.update_of_ne (hprev c hc) _ _
  obtain ⟨k, free', mem', hsplit, hlist', hs', hsize', hlo, hhi, hkeep⟩ :=
    splitBlock_spec hlist hs (by rw [hsame b hb, hsize]) hw hle hgrid
  set front : Span := ⟨b.start, k⟩ with hfront
  have hf : front ∈ front :: used := List.mem_cons_self
  have hfree : h.xFreeBytesRemaining - k = total free' := by
    have h1 := hr.shares.sizes
    have h2 := hs'.sizes
    have hk : front.size = k := rfl
    rw [total_cons, hk] at h2
    rw [hr.remaining]
    omega
  refine ⟨k, free',
    { mem := Function.update mem' front.start ⟨0, k ||| xBlockAllocatedBit⟩
      pxEnd := h.pxEnd
      xFreeBytesRemaining := total free'
      xMinimumEverFreeBytesRemaining :=
        if total free' < h.xMinimumEverFreeBytesRemaining then total free'
        else h.xMinimumEverFreeBytesRemaining },
    ?_, ⟨hr.pxEnd, ?_, fun c hc => ?_, hs', rfl⟩, hlo, hhi, ?_⟩
  · rw [takeBlock, hr.pxEnd, ← hmem₁, hsplit, hnext, Option.map_some, ← hfree, hsize']
  · exact hlist'.congr (Function.update_of_ne (p.ne_xStart (hs'.usedWithin hf)).symm _ _)
      (Function.update_of_ne (p.ne_pxEnd (hs'.pos _ hf) (hs'.usedWithin hf)).symm _ _)
      fun c hc => Function.update_of_ne (hs'.ne_free hf hc).symm _ _
  · rcases List.mem_cons.mp hc with rfl | hc
    · exact Function.update_self _ _ _
    · show Function.update mem' front.start _ c.start = _
      rw [Function.update_of_ne (hs'.ne_used hc), hkeep c hc,
        hsame c (List.mem_cons_of_mem _ hc)]
      exact hr.heads c hc
  · show (if total free' < _ then _ else _) = min _ (total free')
    rw [Nat.min_comm, Nat.min_def]
    split <;> split <;> omega

/-- A request that no free block is large enough for is refused, and nothing changes. -/
theorem malloc_refused {n : ℕ} (hr : HeapRep p h free used) (hn : n < 2 ^ 32)
    (hno : ¬ (0 < n ∧ n < xBlockAllocatedBit ∧ ∃ b ∈ free, blockSize n ≤ b.size)) :
    pvPortMalloc p h n = some (0, h) := by
  have hend : h.pxEnd ≠ 0 := Nat.ne_of_gt (Nat.lt_of_lt_of_eq p.pxEnd_pos hr.pxEnd.symm)
  simp only [pvPortMalloc, if_neg hend]
  by_cases hbit : n &&& xBlockAllocatedBit = 0
  · have hlt := (and_allocatedBit_eq_zero hn).mp hbit
    rw [if_pos hbit]
    by_cases hfits : blockSize n > 0 ∧ blockSize n ≤ h.xFreeBytesRemaining
    · have hpos : 0 < n := Nat.pos_of_ne_zero fun hzero => by
        subst hzero
        exact Nat.lt_irrefl 0 hfits.1
      rcases findBlock_spec (w := blockSize n) hr.list.links hr.list.last
        (fun c hc => Nat.lt_of_lt_of_le p.base_pos (hr.list.within c hc).1) p.pxEnd_pos
        hr.list.length_lt with ⟨pre, b, post, rfl, -, hle, -⟩ | ⟨-, hfind⟩
      · exact absurd ⟨hpos, hlt, b, List.mem_append_right _ List.mem_cons_self, hle⟩ hno
      · rw [if_pos hfits, hfind, Option.bind_some, hr.pxEnd]
        exact if_neg (not_not.mpr rfl)
    · rw [if_neg hfits]
  · rw [if_neg hbit]

/-- **Allocating** hands out a block that is free, large enough and hardly larger. -/
theorem malloc_spec {n : ℕ} (hr : HeapRep p h free used) (hn : n < 2 ^ 32) (hpos : 0 < n)
    (hlt : n < xBlockAllocatedBit) (hsome : ∃ b ∈ free, blockSize n ≤ b.size) :
    ∃ start k free' h', pvPortMalloc p h n = some (start + xHeapStructSize, h') ∧
      HeapRep p h' free' (⟨start, k⟩ :: used) ∧ blockSize n ≤ k ∧
      k ≤ blockSize n + heapMinimumBlockSize ∧ h'.xMinimumEverFreeBytesRemaining =
        min h.xMinimumEverFreeBytesRemaining h'.xFreeBytesRemaining := by
  have hend : h.pxEnd ≠ 0 := Nat.ne_of_gt (Nat.lt_of_lt_of_eq p.pxEnd_pos hr.pxEnd.symm)
  obtain ⟨hroom, -, hgrid⟩ := blockSize_spec hpos
  have hw : 0 < blockSize n :=
    Nat.lt_of_lt_of_le (Nat.lt_of_lt_of_le hpos (Nat.le_add_right _ _)) hroom
  have hfits : blockSize n > 0 ∧ blockSize n ≤ h.xFreeBytesRemaining := by
    obtain ⟨b, hb, hle⟩ := hsome
    refine ⟨hw, Nat.le_trans hle ?_⟩
    rw [hr.remaining]
    exact size_le_total hb
  rcases findBlock_spec (w := blockSize n) hr.list.links hr.list.last
    (fun c hc => Nat.lt_of_lt_of_le p.base_pos (hr.list.within c hc).1) p.pxEnd_pos
    hr.list.length_lt with ⟨pre, b, post, rfl, -, hle, hfind⟩ | ⟨hsmall, -⟩
  · have hbend : b.start ≠ h.pxEnd := by
      rw [hr.pxEnd]
      exact hr.list.ne_pxEnd (List.mem_append_right _ List.mem_cons_self)
    obtain ⟨k, free', h', htake, hr', hlo, hhi, hmin⟩ := hr.takeBlock_spec hw hle hgrid
    refine ⟨b.start, k, free', h', ?_, hr', hlo, hhi, hmin⟩
    simp only [pvPortMalloc, if_neg hend]
    rw [if_pos ((and_allocatedBit_eq_zero hn).mpr hlt), if_pos hfits, hfind, Option.bind_some,
      if_pos hbend, htake]
  · obtain ⟨b, hb, hle⟩ := hsome
    exact absurd hle (Nat.not_le.mpr (hsmall b hb))

end HeapRep

/-- The first call of `pvPortMalloc` sets up the heap. -/
theorem pvPortMalloc_init {p : HeapPlace} {h : Heap4} (hend : h.pxEnd = 0) (n : ℕ) :
    pvPortMalloc p h n = pvPortMalloc p (prvHeapInit p h) n := by
  have hne : (prvHeapInit p h).pxEnd ≠ 0 := Nat.ne_of_gt p.pxEnd_pos
  simp only [pvPortMalloc, if_pos hend, if_neg hne]

/-! ### The tasks -/

/-- What the tasks do with the heap. -/
inductive HeapAction
  /-- `pvPortMalloc`, with the size that is wanted. -/
  | malloc (xWantedSize : ℕ)
  /-- `vPortFree` of a buffer. -/
  | free (buf : Span)
  /-- Eight bytes at an aligned address of a buffer are written. -/
  | write (a : ℕ) (bytes : BlockLink)
  deriving Repr

/-- The heap, and the buffers that the tasks hold: where they are, and what was asked
for. -/
structure HeapSys where
  heap : Heap4
  held : List Span

def heapStep (p : HeapPlace) (s : HeapSys) : HeapAction → Option HeapSys
  | .malloc xWantedSize =>
      if xWantedSize < 2 ^ 32 then
        (pvPortMalloc p s.heap xWantedSize).map fun r =>
          ⟨r.2, if r.1 = 0 then s.held else ⟨r.1, xWantedSize⟩ :: s.held⟩
      else none
  | .free buf =>
      if buf ∈ s.held then
        (vPortFree p s.heap buf.start).map fun heap => ⟨heap, s.held.erase buf⟩
      else none
  | .write a bytes =>
      if a % portByteAlignment = 0 ∧ ∃ buf ∈ s.held, buf.start ≤ a ∧ a < buf.stop then
        some { s with heap := { s.heap with mem := Function.update s.heap.mem a bytes } }
      else none

/-- The block of a buffer, as its link says. -/
def blockOf (mem : ℕ → BlockLink) (buf : Span) : Span where
  start := buf.start - xHeapStructSize
  size := (mem (buf.start - xHeapStructSize)).xBlockSize &&& (xBlockAllocatedBit - 1)

/-- The blocks of the buffers and the free ones share out the heap, and every buffer is
in its block behind the link. -/
structure HeapInv (p : HeapPlace) (s : HeapSys) (free : List Span) : Prop where
  rep : HeapRep p s.heap free (s.held.map (blockOf s.heap.mem))
  bufs : ∀ buf ∈ s.held, (blockOf s.heap.mem buf).start + xHeapStructSize = buf.start ∧
    0 < buf.size ∧ buf.stop ≤ (blockOf s.heap.mem buf).stop

/-- Before the first call. -/
def HeapSys.Fresh (s : HeapSys) : Prop := s.heap.pxEnd = 0 ∧ s.held = []

section Tasks

variable {p : HeapPlace} {s t : HeapSys} {free : List Span}

/-- The block is read back from its link. -/
theorem HeapRep.blockOf_eq {h : Heap4} {used : List Span} {b buf : Span}
    (hr : HeapRep p h free used) (hb : b ∈ used) (hbuf : buf.start - xHeapStructSize = b.start) :
    blockOf h.mem buf = b := by
  rw [blockOf, hbuf, hr.heads b hb, or_allocatedBit_clear (hr.size_lt hb)]

/-- If all blocks are still used, the links of the buffers still say the same. -/
theorem HeapInv.of_rep {heap : Heap4} {held : List Span} (mem : ℕ → BlockLink)
    (hr : HeapRep p heap free (held.map (blockOf mem)))
    (hbufs : ∀ buf ∈ held, (blockOf mem buf).start + xHeapStructSize = buf.start ∧
      0 < buf.size ∧ buf.stop ≤ (blockOf mem buf).stop) : HeapInv p ⟨heap, held⟩ free := by
  have heq : ∀ buf ∈ held, blockOf heap.mem buf = blockOf mem buf := fun buf hbuf =>
    hr.blockOf_eq (List.mem_map_of_mem hbuf) rfl
  refine ⟨?_, fun buf hbuf => ?_⟩
  · show HeapRep p heap free (held.map (blockOf heap.mem))
    rw [List.map_congr_left heq]
    exact hr
  · show (blockOf heap.mem buf).start + xHeapStructSize = buf.start ∧ 0 < buf.size ∧
      buf.stop ≤ (blockOf heap.mem buf).stop
    rw [heq buf hbuf]
    exact hbufs buf hbuf

/-- What a request comes to. -/
theorem HeapInv.malloc (hi : HeapInv p s free) {n : ℕ} (hn : n < 2 ^ 32) :
    (¬ (0 < n ∧ n < xBlockAllocatedBit ∧ ∃ b ∈ free, blockSize n ≤ b.size) ∧
      pvPortMalloc p s.heap n = some (0, s.heap)) ∨
    (0 < n ∧ n < xBlockAllocatedBit ∧ (∃ b ∈ free, blockSize n ≤ b.size) ∧
      ∃ pv heap free', pv ≠ 0 ∧ pvPortMalloc p s.heap n = some (pv, heap) ∧
        HeapInv p ⟨heap, ⟨pv, n⟩ :: s.held⟩ free' ∧
        heap.xMinimumEverFreeBytesRemaining =
          min s.heap.xMinimumEverFreeBytesRemaining heap.xFreeBytesRemaining) := by
  by_cases hyes : 0 < n ∧ n < xBlockAllocatedBit ∧ ∃ b ∈ free, blockSize n ≤ b.size
  · obtain ⟨hpos, hlt, hsome⟩ := hyes
    obtain ⟨start, k, free', heap, hcall, hr, hlo, -, hmin⟩ := hi.rep.malloc_spec hn hpos hlt hsome
    have hsub : start + xHeapStructSize - xHeapStructSize = start := Nat.add_sub_cancel _ _
    have hold : ∀ buf ∈ s.held, blockOf heap.mem buf = blockOf s.heap.mem buf := fun buf hbuf =>
      hr.blockOf_eq (List.mem_cons_of_mem _ (List.mem_map_of_mem hbuf)) rfl
    have hnew : blockOf heap.mem ⟨start + xHeapStructSize, n⟩ = ⟨start, k⟩ :=
      hr.blockOf_eq List.mem_cons_self hsub
    refine .inr ⟨hpos, hlt, hsome, start + xHeapStructSize, heap, free',
      Nat.ne_of_gt (Nat.succ_pos _), hcall, HeapInv.of_rep heap.mem ?_ ?_, hmin⟩
    · rw [List.map_cons, hnew, List.map_congr_left hold]
      exact hr
    · refine List.forall_mem_cons.mpr ⟨?_, fun buf hbuf => ?_⟩
      · rw [hnew]
        refine ⟨rfl, hpos, ?_⟩
        have hroom := (blockSize_spec hpos).1
        simp only [Span.stop]
        omega
      · rw [hold buf hbuf]
        exact hi.bufs buf hbuf
  · exact .inl ⟨hyes, hi.rep.malloc_refused hn hyes⟩

/-- What giving a buffer back comes to. -/
theorem HeapInv.giveBack (hi : HeapInv p s free) {buf : Span} (hbuf : buf ∈ s.held) :
    ∃ heap, vPortFree p s.heap buf.start = some heap ∧
      HeapInv p ⟨heap, s.held.erase buf⟩ (insertSpan (blockOf s.heap.mem buf) free) ∧
      heap.xMinimumEverFreeBytesRemaining = s.heap.xMinimumEverFreeBytesRemaining := by
  have hp : (s.held.map (blockOf s.heap.mem)).Perm
      (blockOf s.heap.mem buf :: (s.held.erase buf).map (blockOf s.heap.mem)) :=
    (List.perm_cons_erase hbuf).map _
  obtain ⟨heap, hcall, hr, hmin⟩ := (hi.rep.perm hp).free_spec
  rw [(hi.bufs buf hbuf).1] at hcall
  exact ⟨heap, hcall, .of_rep s.heap.mem hr fun c hc => hi.bufs c (List.mem_of_mem_erase hc), hmin⟩

/-- What the tasks write to their buffers are no links. -/
theorem HeapInv.write (hi : HeapInv p s free) {a : ℕ} (bytes : BlockLink) {buf : Span}
    (hbuf : buf ∈ s.held) (hlo : buf.start ≤ a) (hhi : a < buf.stop) :
    HeapInv p ⟨{ s.heap with mem := Function.update s.heap.mem a bytes }, s.held⟩ free := by
  have hr := hi.rep
  have hs := hr.shares
  have hb : blockOf s.heap.mem buf ∈ s.held.map (blockOf s.heap.mem) := List.mem_map_of_mem hbuf
  obtain ⟨hstart, -, hstop⟩ := hi.bufs buf hbuf
  set b := blockOf s.heap.mem buf with hbdef
  obtain ⟨hbase, hend⟩ := hs.usedWithin hb
  have hin : b.start ≤ a ∧ a < b.stop :=
    ⟨Nat.le_trans (Nat.le_trans (Nat.le_add_right _ _) (Nat.le_of_eq hstart)) hlo,
      Nat.lt_of_lt_of_le hhi hstop⟩
  have hax : p.xStart ≠ a := p.xStart_ne (Nat.le_trans hbase hin.1)
    (Nat.le_of_lt (Nat.lt_of_lt_of_le hin.2 hend))
  have hae : p.pxEnd ≠ a := Nat.ne_of_gt (Nat.lt_of_lt_of_le hin.2 hend)
  have hfree : ∀ c ∈ free, c.start ≠ a := fun c hc heq =>
    (hs.freeApart b hb c hc).not_mem hin
      ⟨Nat.le_of_eq heq, heq ▸ Nat.lt_add_of_pos_right (hs.separated.pos c hc)⟩
  have hused : ∀ c ∈ s.held.map (blockOf s.heap.mem), c.start ≠ a := fun c hc heq => by
    by_cases hcb : b = c
    · subst hcb
      simp only [xHeapStructSize] at hstart
      omega
    · have hsymm : Std.Symm Span.Apart := ⟨fun _ _ => Span.Apart.symm⟩
      exact (hs.apart.forall hb hc hcb).not_mem hin
        ⟨Nat.le_of_eq heq, heq ▸ Nat.lt_add_of_pos_right (hs.pos c hc)⟩
  refine HeapInv.of_rep s.heap.mem ⟨hr.pxEnd, ?_, fun c hc => ?_, hs, hr.remaining⟩ hi.bufs
  · exact hr.list.congr (Function.update_of_ne hax _ _) (Function.update_of_ne hae _ _)
      fun c hc => Function.update_of_ne (hfree c hc) _ _
  · exact (Function.update_of_ne (hused c hc) _ _).trans (hr.heads c hc)

/-- The first call finds the heap as it was set up. -/
theorem HeapSys.Fresh.init (hs : s.Fresh) :
    HeapInv p ⟨prvHeapInit p s.heap, s.held⟩ [⟨p.base, p.pxEnd - p.base⟩] := by
  refine HeapInv.of_rep s.heap.mem ?_ ?_
  · rw [hs.2]
    exact heapRep_init p s.heap
  · rw [hs.2]
    exact fun buf hbuf => (List.not_mem_nil hbuf).elim

/-- One action of the tasks. -/
theorem HeapInv.step (hi : HeapInv p s free) {a : HeapAction} (h : heapStep p s a = some t) :
    ∃ free', HeapInv p t free' := by
  cases a with
  | malloc n =>
      obtain ⟨hn, h⟩ := Option.ite_none_right_eq_some.mp h
      rcases hi.malloc hn with ⟨-, hcall⟩ | ⟨-, -, -, pv, heap, free', hpv, hcall, hi', -⟩
      · rw [hcall] at h
        obtain rfl := Option.some.inj h
        exact ⟨free, hi⟩
      · rw [hcall, Option.map_some, if_neg hpv] at h
        obtain rfl := Option.some.inj h
        exact ⟨free', hi'⟩
  | free buf =>
      obtain ⟨hbuf, h⟩ := Option.ite_none_right_eq_some.mp h
      obtain ⟨heap, hcall, hi', -⟩ := hi.giveBack hbuf
      rw [hcall] at h
      obtain rfl := Option.some.inj h
      exact ⟨_, hi'⟩
  | write a bytes =>
      obtain ⟨⟨-, buf, hbuf, hlo, hhi⟩, rfl⟩ := of_guard h
      exact ⟨free, hi.write bytes hbuf hlo hhi⟩

/-- The first action is a request, and is served as if the heap had been set up before. -/
theorem HeapSys.Fresh.step (hs : s.Fresh) {a : HeapAction} (h : heapStep p s a = some t) :
    heapStep p ⟨prvHeapInit p s.heap, s.held⟩ a = some t := by
  cases a with
  | malloc n =>
      rw [heapStep, pvPortMalloc_init hs.1] at h
      exact h
  | free buf =>
      obtain ⟨hbuf, -⟩ := Option.ite_none_right_eq_some.mp h
      rw [hs.2] at hbuf
      exact (List.not_mem_nil hbuf).elim
  | write a bytes =>
      obtain ⟨⟨-, buf, hbuf, -⟩, -⟩ := of_guard h
      rw [hs.2] at hbuf
      exact (List.not_mem_nil hbuf).elim

/-- A run before or after the first call. -/
theorem heapInv_run {as : List HeapAction} (h : Run (heapStep p) s as t) (hs : s.Fresh) :
    t.Fresh ∧ as = [] ∨ ∃ free, HeapInv p t free := by
  cases h with
  | nil s => exact .inl ⟨hs, rfl⟩
  | cons h hrun =>
      refine .inr (Run.invariant (I := fun s => ∃ free, HeapInv p s free) ?_ hrun
        (hs.init.step (hs.step h)))
      exact fun _ _ _ ⟨_, hi⟩ h => hi.step h

end Tasks

/-! ### A heap in RAM -/

def heapAtRam : HeapPlace where
  ucHeap := 0x10000004
  xStart := 0x10004810
  pos := by decide
  apart := by decide

def noBuffers : HeapSys where
  heap := Heap4.reset fun _ => ⟨0, 0⟩
  held := []

/-- Two buffers, and the first of them given back. -/
def someCalls : List HeapAction := [.malloc 100, .malloc 24, .free ⟨0x10000010, 100⟩]

theorem someCalls_run :
    ∃ t, Run (heapStep heapAtRam) noBuffers someCalls t ∧ t.held = [⟨0x10000080, 24⟩] := by
  have hsome : ((someCalls.foldlM (heapStep heapAtRam) noBuffers).map HeapSys.held) =
      some [⟨0x10000080, 24⟩] := by decide
  obtain ⟨t, ht, hheld⟩ := Option.map_eq_some_iff.mp hsome
  exact ⟨t, run_iff_foldlM.mpr ht, hheld⟩

/-! ### What holds at any time -/

section Tasks

variable {p : HeapPlace} {s t : HeapSys} {free : List Span}

/-- The calls end at any time. -/
theorem heap_calls_end {as : List HeapAction} (h : Run (heapStep p) s as t) (hs : s.Fresh) :
    (∀ n, n < 2 ^ 32 → (pvPortMalloc p t.heap n).isSome) ∧
      ∀ buf ∈ t.held, (vPortFree p t.heap buf.start).isSome := by
  have hmalloc : ∀ {u : HeapSys} {free}, HeapInv p u free → ∀ n, n < 2 ^ 32 →
      (pvPortMalloc p u.heap n).isSome := by
    intro u free hi n hn
    rcases hi.malloc hn with ⟨-, hcall⟩ | ⟨-, -, -, pv, heap, free', -, hcall, -⟩ <;>
      rw [hcall] <;> rfl
  rcases heapInv_run h hs with ⟨hfresh, -⟩ | ⟨free, hi⟩
  · refine ⟨fun n hn => ?_, fun buf hbuf => ?_⟩
    · rw [pvPortMalloc_init hfresh.1]
      exact hmalloc hfresh.init n hn
    · rw [hfresh.2] at hbuf
      exact (List.not_mem_nil hbuf).elim
  · refine ⟨hmalloc hi, fun buf hbuf => ?_⟩
    obtain ⟨heap, hcall, -⟩ := hi.giveBack hbuf
    rw [hcall]
    rfl

theorem heap_calls_end_someCalls :
    ∃ t : HeapSys, t.held = [⟨0x10000080, 24⟩] ∧
      (∀ n, n < 2 ^ 32 → (pvPortMalloc heapAtRam t.heap n).isSome) ∧
      ∀ buf ∈ t.held, (vPortFree heapAtRam t.heap buf.start).isSome := by
  obtain ⟨t, h, hheld⟩ := someCalls_run
  exact ⟨t, hheld, heap_calls_end h ⟨rfl, rfl⟩⟩

/-- **The heap is shared out** between the free blocks in the list and the blocks of the
buffers that the tasks hold, at any time. -/
theorem heap_shared_out {as : List HeapAction} (h : Run (heapStep p) s as t) (hs : s.Fresh)
    (hne : as ≠ []) :
    (∃ free, LinksTo t.heap.mem p.xStart free p.pxEnd ∧
      Shares portByteAlignment p.base p.pxEnd free (t.held.map (blockOf t.heap.mem)) ∧
      t.heap.xFreeBytesRemaining = total free) ∧
    (∀ buf ∈ t.held, portByteAlignment ∣ buf.start ∧
      buf.start = (blockOf t.heap.mem buf).start + xHeapStructSize ∧
      buf.stop ≤ (blockOf t.heap.mem buf).stop) ∧
    t.held.Pairwise Span.Apart := by
  obtain ⟨free, hi⟩ := (heapInv_run h hs).resolve_left fun hboth => hne hboth.2
  have hshares := hi.rep.shares
  refine ⟨⟨free, hi.rep.list.links, hshares, hi.rep.remaining⟩, fun buf hbuf => ?_, ?_⟩
  · obtain ⟨hstart, -, hstop⟩ := hi.bufs buf hbuf
    have hgrid := (hshares.grid _ (List.mem_append_right _ (List.mem_map_of_mem hbuf))).1
    refine ⟨?_, hstart.symm, hstop⟩
    rw [← hstart]
    exact Nat.dvd_add hgrid (Nat.dvd_refl 8)
  · refine (List.pairwise_map.mp hshares.apart).imp_of_mem fun {b c} hb hc hapart => ?_
    obtain ⟨hb1, -, hb2⟩ := hi.bufs b hb
    obtain ⟨hc1, -, hc2⟩ := hi.bufs c hc
    simp only [Span.Apart] at hapart ⊢
    omega

theorem heap_shared_out_someCalls :
    ∃ t : HeapSys, t.held = [⟨0x10000080, 24⟩] ∧
      (∃ free, LinksTo t.heap.mem heapAtRam.xStart free heapAtRam.pxEnd ∧
        Shares portByteAlignment heapAtRam.base heapAtRam.pxEnd free
          (t.held.map (blockOf t.heap.mem)) ∧
        t.heap.xFreeBytesRemaining = total free) ∧
      (∀ buf ∈ t.held, portByteAlignment ∣ buf.start ∧
        buf.start = (blockOf t.heap.mem buf).start + xHeapStructSize ∧
        buf.stop ≤ (blockOf t.heap.mem buf).stop) ∧
      t.held.Pairwise Span.Apart := by
  obtain ⟨t, h, hheld⟩ := someCalls_run
  exact ⟨t, hheld, heap_shared_out h ⟨rfl, rfl⟩ (by decide)⟩

/-- **A request is refused only if no gap is long enough** for it: free blocks that touch
are always joined, so no free memory is lost between them. -/
theorem malloc_succeeds_iff {as : List HeapAction} (h : Run (heapStep p) s as t) (hs : s.Fresh)
    {n : ℕ} (hn : n < 2 ^ 32) :
    (∃ pv heap, pvPortMalloc p t.heap n = some (pv, heap) ∧ pv ≠ 0) ↔
      0 < n ∧ n < xBlockAllocatedBit ∧ ∃ a, p.base ≤ a ∧ a + blockSize n ≤ p.pxEnd ∧
        ∀ buf ∈ t.held, (⟨a, blockSize n⟩ : Span).Apart (blockOf t.heap.mem buf) := by
  have key : ∀ {u : HeapSys} {free}, HeapInv p u free →
      ((∃ pv heap, pvPortMalloc p u.heap n = some (pv, heap) ∧ pv ≠ 0) ↔
        0 < n ∧ n < xBlockAllocatedBit ∧ ∃ a, p.base ≤ a ∧ a + blockSize n ≤ p.pxEnd ∧
          ∀ buf ∈ u.held, (⟨a, blockSize n⟩ : Span).Apart (blockOf u.heap.mem buf)) := by
    intro u free hi
    have hshares := hi.rep.shares
    constructor
    · rintro ⟨pv, heap, hcall, hpv⟩
      rcases hi.malloc hn with ⟨-, hrefused⟩ | ⟨hpos, hlt, ⟨b, hb, hle⟩, -⟩
      · rw [hrefused] at hcall
        obtain ⟨rfl, -⟩ := Prod.mk.inj (Option.some.inj hcall)
        exact absurd rfl hpv
      · have hin := hshares.within b (List.mem_append_left _ hb)
        simp only [Span.stop] at hin
        refine ⟨hpos, hlt, b.start, hin.1, by omega, fun buf hbuf => ?_⟩
        have hapart := hshares.freeApart _ (List.mem_map_of_mem hbuf) b hb
        simp only [Span.Apart, Span.stop] at hapart ⊢
        omega
    · rintro ⟨hpos, hlt, a, hlo, hhi, hapart⟩
      have hw := (blockSize_spec hpos).1
      obtain ⟨b, hb, hstart, hstop⟩ := hshares.fits (by omega) hlo hhi fun c hc => by
        obtain ⟨buf, hbuf, rfl⟩ := List.mem_map.mp hc
        exact hapart buf hbuf
      rcases hi.malloc hn with ⟨hno, -⟩ | ⟨-, -, -, pv, heap, free', hpv, hcall, -⟩
      · refine absurd ⟨hpos, hlt, b, hb, ?_⟩ hno
        rw [Span.stop] at hstop
        omega
      · exact ⟨pv, heap, hcall, hpv⟩
  rcases heapInv_run h hs with ⟨hfresh, -⟩ | ⟨free, hi⟩
  · have hinit := key (hfresh.init (p := p))
    rw [hfresh.2] at hinit ⊢
    rw [pvPortMalloc_init hfresh.1]
    simpa only [List.not_mem_nil, false_implies, implies_true] using hinit
  · exact key hi

theorem malloc_succeeds_iff_someCalls :
    ∃ t : HeapSys, t.held = [⟨0x10000080, 24⟩] ∧
      ((∃ pv heap, pvPortMalloc heapAtRam t.heap 100 = some (pv, heap) ∧ pv ≠ 0) ↔
        0 < 100 ∧ 100 < xBlockAllocatedBit ∧ ∃ a, heapAtRam.base ≤ a ∧
          a + blockSize 100 ≤ heapAtRam.pxEnd ∧
          ∀ buf ∈ t.held, (⟨a, blockSize 100⟩ : Span).Apart (blockOf t.heap.mem buf)) := by
  obtain ⟨t, h, hheld⟩ := someCalls_run
  exact ⟨t, hheld, malloc_succeeds_iff h ⟨rfl, rfl⟩ (by decide)⟩

/-- The heap as `prvHeapInit` leaves it. -/
def HeapSys.Whole (p : HeapPlace) (s : HeapSys) : Prop :=
  s.held = [] ∧ s.heap.xFreeBytesRemaining = p.pxEnd - p.base ∧
    s.heap.mem p.xStart = ⟨p.base, 0⟩ ∧ s.heap.mem p.base = ⟨p.pxEnd, p.pxEnd - p.base⟩ ∧
    s.heap.mem p.pxEnd = ⟨0, 0⟩

theorem HeapInv.whole (hi : HeapInv p s free) (hheld : s.held = []) : s.Whole p := by
  have hr := hi.rep
  rw [hheld] at hr
  have hfree : free = [⟨p.base, p.pxEnd - p.base⟩] := hr.shares.free_eq_whole p.base_lt_pxEnd
  subst hfree
  obtain ⟨hnext, hsize, hlast⟩ := hr.list.links
  refine ⟨hheld, hr.remaining, ?_, ?_, hr.list.last⟩
  · exact BlockLink.mk.injEq _ _ _ _ ▸ ⟨hnext, hr.list.first⟩
  · exact BlockLink.mk.injEq _ _ _ _ ▸ ⟨hlast, hsize⟩

/-- **Giving everything back**, in any order, leaves the heap as it was at first. -/
theorem free_all_whole {as : List HeapAction} (h : Run (heapStep p) s as t) (hs : s.Fresh)
    (hne : as ≠ []) {bufs : List Span} (hp : bufs.Perm t.held) :
    ∃ u, Run (heapStep p) t (bufs.map .free) u ∧ u.Whole p := by
  obtain ⟨free, hi⟩ := (heapInv_run h hs).resolve_left fun hboth => hne hboth.2
  clear h hs hne
  induction bufs generalizing t free with
  | nil => exact ⟨t, .nil t, hi.whole hp.nil_eq.symm⟩
  | cons buf bufs ih =>
      have hbuf : buf ∈ t.held := hp.mem_iff.mp List.mem_cons_self
      obtain ⟨heap, hcall, hi', -⟩ := hi.giveBack hbuf
      have hstep : heapStep p t (.free buf) = some ⟨heap, t.held.erase buf⟩ := by
        rw [heapStep, if_pos hbuf, hcall]
        rfl
      obtain ⟨u, hrun, hu⟩ := ih (t := ⟨heap, t.held.erase buf⟩)
        (List.cons_perm_iff_perm_erase.mp hp).2 _ hi'
      exact ⟨u, .cons hstep hrun, hu⟩

theorem free_all_whole_someCalls :
    ∃ t u : HeapSys, t.held = [⟨0x10000080, 24⟩] ∧
      Run (heapStep heapAtRam) t [.free ⟨0x10000080, 24⟩] u ∧ u.Whole heapAtRam := by
  obtain ⟨t, h, hheld⟩ := someCalls_run
  obtain ⟨u, hu⟩ := free_all_whole h ⟨rfl, rfl⟩ (by decide) (List.Perm.of_eq hheld.symm)
  exact ⟨t, u, hheld, hu⟩

/-- What one action does to the counters. -/
theorem HeapInv.minimum_step (hi : HeapInv p s free) {a : HeapAction}
    (hle : s.heap.xMinimumEverFreeBytesRemaining ≤ s.heap.xFreeBytesRemaining)
    (h : heapStep p s a = some t) :
    t.heap.xMinimumEverFreeBytesRemaining =
      min s.heap.xMinimumEverFreeBytesRemaining t.heap.xFreeBytesRemaining := by
  cases a with
  | malloc n =>
      obtain ⟨hn, h⟩ := Option.ite_none_right_eq_some.mp h
      rcases hi.malloc hn with ⟨-, hcall⟩ | ⟨-, -, -, pv, heap, free', hpv, hcall, hi', hmin⟩
      · rw [hcall] at h
        obtain rfl := Option.some.inj h
        exact (Nat.min_eq_left hle).symm
      · rw [hcall, Option.map_some, if_neg hpv] at h
        obtain rfl := Option.some.inj h
        exact hmin
  | free buf =>
      obtain ⟨hbuf, h⟩ := Option.ite_none_right_eq_some.mp h
      obtain ⟨heap, hcall, hi', hmin⟩ := hi.giveBack hbuf
      rw [hcall] at h
      obtain rfl := Option.some.inj h
      have hmore : s.heap.xFreeBytesRemaining ≤ heap.xFreeBytesRemaining := by
        have hremaining : heap.xFreeBytesRemaining = _ := hi'.rep.remaining
        rw [hi.rep.remaining, hremaining, total_insertSpan]
        exact Nat.le_add_left _ _
      exact hmin.trans (Nat.min_eq_left (Nat.le_trans hle hmore)).symm
  | write a bytes =>
      obtain ⟨-, rfl⟩ := of_guard h
      exact (Nat.min_eq_left hle).symm

/-- The counter follows the free bytes down. -/
theorem HeapInv.minimum_run {as : List HeapAction} (h : Run (heapStep p) s as t) {free : List Span}
    (hi : HeapInv p s free)
    (hle : s.heap.xMinimumEverFreeBytesRemaining ≤ s.heap.xFreeBytesRemaining) :
    (∀ bs cs u, as = bs ++ cs → Run (heapStep p) s bs u →
      t.heap.xMinimumEverFreeBytesRemaining ≤ u.heap.xFreeBytesRemaining) ∧
    t.heap.xMinimumEverFreeBytesRemaining ≤ s.heap.xMinimumEverFreeBytesRemaining ∧
    (t.heap.xMinimumEverFreeBytesRemaining = s.heap.xMinimumEverFreeBytesRemaining ∨
      ∃ bs cs u, as = bs ++ cs ∧ bs ≠ [] ∧ Run (heapStep p) s bs u ∧
        t.heap.xMinimumEverFreeBytesRemaining = u.heap.xFreeBytesRemaining) := by
  induction h generalizing free with
  | nil s =>
      refine ⟨fun bs cs u heq hrun => ?_, Nat.le_refl _, .inl rfl⟩
      obtain ⟨rfl, -⟩ := List.append_eq_nil_iff.mp heq.symm
      cases hrun
      exact hle
  | @cons s v t a as hstep hrun ih =>
      obtain ⟨free', hi'⟩ := hi.step hstep
      have hmin := hi.minimum_step hle hstep
      obtain ⟨hall, hdown, hsome⟩ := ih hi' (hmin ▸ Nat.min_le_right _ _)
      have hdown' := Nat.le_trans hdown (hmin ▸ Nat.min_le_left _ _)
      refine ⟨fun bs cs u heq hu => ?_, hdown', ?_⟩
      · cases hu with
        | nil => exact Nat.le_trans hdown' hle
        | cons hstep' hu =>
            rw [List.cons_append] at heq
            obtain ⟨rfl, heq'⟩ := List.cons.inj heq
            obtain rfl := Option.some.inj (hstep.symm.trans hstep')
            exact hall _ cs u heq' hu
      · rcases hsome with heq | ⟨bs, cs, u, rfl, -, hu, heq⟩
        · rcases Nat.le_total s.heap.xMinimumEverFreeBytesRemaining v.heap.xFreeBytesRemaining
            with h1 | h1
          · exact .inl (heq.trans (hmin.trans (Nat.min_eq_left h1)))
          · exact .inr ⟨[a], as, v, rfl, List.cons_ne_nil _ _, .cons hstep (.nil v),
              heq.trans (hmin.trans (Nat.min_eq_right h1))⟩
        · exact .inr ⟨a :: bs, cs, u, rfl, List.cons_ne_nil _ _, .cons hstep hu, heq⟩

/-- **`xMinimumEverFreeBytesRemaining` is the least number of free bytes** that there has been
after any call so far. -/
theorem minimum_ever {as : List HeapAction} (h : Run (heapStep p) s as t) (hs : s.Fresh)
    (hne : as ≠ []) :
    (∀ bs cs u, as = bs ++ cs → bs ≠ [] → Run (heapStep p) s bs u →
      t.heap.xMinimumEverFreeBytesRemaining ≤ u.heap.xFreeBytesRemaining) ∧
    ∃ bs cs u, as = bs ++ cs ∧ bs ≠ [] ∧ Run (heapStep p) s bs u ∧
      t.heap.xMinimumEverFreeBytesRemaining = u.heap.xFreeBytesRemaining := by
  cases h with
  | nil => exact absurd rfl hne
  | @cons _ v _ a as hstep hrun =>
      have hinit := hs.init (p := p)
      obtain ⟨free, hi⟩ := hinit.step (hs.step hstep)
      -- there were never more than at first
      have hv : v.heap.xMinimumEverFreeBytesRemaining = v.heap.xFreeBytesRemaining := by
        have hmin := hinit.minimum_step (Nat.le_refl _) (hs.step hstep)
        have hsizes := hi.rep.shares.sizes
        rw [hmin]
        refine Nat.min_eq_right ?_
        show v.heap.xFreeBytesRemaining ≤ p.pxEnd - p.base
        rw [hi.rep.remaining]
        omega
      obtain ⟨hall, -, hsome⟩ := hi.minimum_run hrun (Nat.le_of_eq hv)
      constructor
      · intro bs cs u heq hbs hu
        cases hu with
        | nil => exact absurd rfl hbs
        | cons hstep' hu =>
            rw [List.cons_append] at heq
            obtain ⟨rfl, heq'⟩ := List.cons.inj heq
            obtain rfl := Option.some.inj (hstep.symm.trans hstep')
            exact hall _ cs u heq' hu
      · rcases hsome with heq | ⟨bs, cs, u, rfl, -, hu, heq⟩
        · exact ⟨[a], as, v, rfl, List.cons_ne_nil _ _, .cons hstep (.nil v), heq.trans hv⟩
        · exact ⟨a :: bs, cs, u, rfl, List.cons_ne_nil _ _, .cons hstep hu, heq⟩

theorem minimum_ever_someCalls :
    ∃ t : HeapSys, t.held = [⟨0x10000080, 24⟩] ∧
      (∀ bs cs u, someCalls = bs ++ cs → bs ≠ [] → Run (heapStep heapAtRam) noBuffers bs u →
        t.heap.xMinimumEverFreeBytesRemaining ≤ u.heap.xFreeBytesRemaining) ∧
      ∃ bs cs u, someCalls = bs ++ cs ∧ bs ≠ [] ∧ Run (heapStep heapAtRam) noBuffers bs u ∧
        t.heap.xMinimumEverFreeBytesRemaining = u.heap.xFreeBytesRemaining := by
  obtain ⟨t, h, hheld⟩ := someCalls_run
  exact ⟨t, hheld, minimum_ever h ⟨rfl, rfl⟩ (by decide)⟩

end Tasks

end Lpc1768
