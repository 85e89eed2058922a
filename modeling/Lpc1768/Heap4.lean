/-
Lpc1768/Heap4.lean

The kernel's heap (heap_4.c).  Every block begins with a `BlockLink_t`; the free
ones are linked in the order of their addresses, from `xStart` to the mark `pxEnd`
at the end of the heap.  `pvPortMalloc` takes the first block that is large enough,
and gives back what it does not need; `vPortFree` puts a block back and joins it
with its neighbours.

The functions below work on the links in memory, and their loops run as long as they
find a next block; `none` says that they have not come to an end.  `LinksTo` is what
ties the links to a list of spans.  On a list with gaps `prvInsertBlockIntoFreeList`
is `insertSpan` (`LinksTo.insert`), and the search of `pvPortMalloc` splits the list
(`findBlock_spec`).
-/
import Mathlib.Logic.Function.Basic
import Lpc1768.Spans

namespace Lpc1768

/-! ### Constants -/

/-- `configTOTAL_HEAP_SIZE`. -/
def configTotalHeapSize : ℕ := 18 * 1024

/-- `xHeapStructSize`. -/
def xHeapStructSize : ℕ := 8

/-- `portBYTE_ALIGNMENT`; `& portBYTE_ALIGNMENT_MASK` is `% portByteAlignment`. -/
def portByteAlignment : ℕ := 8

/-- `heapMINIMUM_BLOCK_SIZE`. -/
def heapMinimumBlockSize : ℕ := xHeapStructSize * 2

def xBlockAllocatedBit : ℕ := 2 ^ 31

/-- `BlockLink_t`; the pointer 0 is `NULL`. -/
structure BlockLink where
  pxNextFreeBlock : ℕ
  xBlockSize : ℕ
  deriving DecidableEq, Repr

/-- Where the linker puts `ucHeap` and `xStart`. -/
structure HeapPlace where
  ucHeap : ℕ
  xStart : ℕ
  pos : 0 < ucHeap
  apart : xStart + xHeapStructSize ≤ ucHeap ∨ ucHeap + configTotalHeapSize ≤ xStart

/-- The variables of heap_4.c; `xStart` is in memory too. -/
structure Heap4 where
  mem : ℕ → BlockLink
  pxEnd : ℕ
  xFreeBytesRemaining : ℕ
  xMinimumEverFreeBytesRemaining : ℕ

/-- Before the first call of `pvPortMalloc`. -/
def Heap4.reset (mem : ℕ → BlockLink) : Heap4 where
  mem := mem
  pxEnd := 0
  xFreeBytesRemaining := 0
  xMinimumEverFreeBytesRemaining := 0

/-! ### The functions -/

/-- `pucAlignedHeap`. -/
def HeapPlace.base (p : HeapPlace) : ℕ :=
  if p.ucHeap % portByteAlignment ≠ 0 then
    (p.ucHeap + (portByteAlignment - 1)) / portByteAlignment * portByteAlignment
  else p.ucHeap

/-- The address that `prvHeapInit` gives `pxEnd`. -/
def HeapPlace.pxEnd (p : HeapPlace) : ℕ :=
  let xTotalHeapSize := configTotalHeapSize - (p.base - p.ucHeap)
  (p.base + xTotalHeapSize - xHeapStructSize) / portByteAlignment * portByteAlignment

def prvHeapInit (p : HeapPlace) (h : Heap4) : Heap4 :=
  let mem := Function.update h.mem p.xStart ⟨p.base, 0⟩
  let mem := Function.update mem p.pxEnd ⟨0, 0⟩
  let mem := Function.update mem p.base ⟨p.pxEnd, p.pxEnd - p.base⟩
  { mem := mem
    pxEnd := p.pxEnd
    xFreeBytesRemaining := p.pxEnd - p.base
    xMinimumEverFreeBytesRemaining := p.pxEnd - p.base }

/-- The loop of `prvInsertBlockIntoFreeList`: `pxIterator` at its end. -/
def insertPos (mem : ℕ → BlockLink) (pxBlockToInsert : ℕ) : ℕ → ℕ → Option ℕ
  | 0, _ => none
  | fuel + 1, pxIterator =>
      if (mem pxIterator).pxNextFreeBlock < pxBlockToInsert then
        insertPos mem pxBlockToInsert fuel (mem pxIterator).pxNextFreeBlock
      else some pxIterator

/-- The block is joined with the one before it, if they are contiguous; with the
new value of `pxBlockToInsert`. -/
def joinBefore (mem : ℕ → BlockLink) (pxIterator pxBlockToInsert : ℕ) : (ℕ → BlockLink) × ℕ :=
  if pxIterator + (mem pxIterator).xBlockSize = pxBlockToInsert then
    (Function.update mem pxIterator
      { mem pxIterator with
        xBlockSize := (mem pxIterator).xBlockSize + (mem pxBlockToInsert).xBlockSize },
      pxIterator)
  else (mem, pxBlockToInsert)

/-- It is joined with the one behind it, if they are contiguous, or linked to it. -/
def joinBehind (mem : ℕ → BlockLink) (pxEnd pxIterator pxBlockToInsert : ℕ) : ℕ → BlockLink :=
  let next := (mem pxIterator).pxNextFreeBlock
  if pxBlockToInsert + (mem pxBlockToInsert).xBlockSize = next then
    if next ≠ pxEnd then
      Function.update mem pxBlockToInsert
        { xBlockSize := (mem pxBlockToInsert).xBlockSize + (mem next).xBlockSize
          pxNextFreeBlock := (mem next).pxNextFreeBlock }
    else
      Function.update mem pxBlockToInsert { mem pxBlockToInsert with pxNextFreeBlock := pxEnd }
  else Function.update mem pxBlockToInsert { mem pxBlockToInsert with pxNextFreeBlock := next }

/-- What `prvInsertBlockIntoFreeList` does behind its loop. -/
def linkBlock (mem : ℕ → BlockLink) (pxEnd pxIterator pxBlockToInsert : ℕ) : ℕ → BlockLink :=
  let r := joinBefore mem pxIterator pxBlockToInsert
  let mem := joinBehind r.1 pxEnd pxIterator r.2
  if pxIterator ≠ r.2 then
    Function.update mem pxIterator { mem pxIterator with pxNextFreeBlock := r.2 }
  else mem

def prvInsertBlockIntoFreeList (p : HeapPlace) (mem : ℕ → BlockLink) (pxEnd : ℕ)
    (pxBlockToInsert : ℕ) : Option (ℕ → BlockLink) :=
  (insertPos mem pxBlockToInsert configTotalHeapSize p.xStart).map fun pxIterator =>
    linkBlock mem pxEnd pxIterator pxBlockToInsert

/-- The loop of `pvPortMalloc`: `pxPreviousBlock` and `pxBlock` at its end. -/
def findBlock (mem : ℕ → BlockLink) (xWantedSize : ℕ) : ℕ → ℕ → ℕ → Option (ℕ × ℕ)
  | 0, _, _ => none
  | fuel + 1, pxPreviousBlock, pxBlock =>
      if (mem pxBlock).xBlockSize < xWantedSize ∧ (mem pxBlock).pxNextFreeBlock ≠ 0 then
        findBlock mem xWantedSize fuel pxBlock (mem pxBlock).pxNextFreeBlock
      else some (pxPreviousBlock, pxBlock)

/-- The size of the block for a request: with its link, and aligned. -/
def blockSize (xWantedSize : ℕ) : ℕ :=
  if xWantedSize > 0 then
    let size := xWantedSize + xHeapStructSize
    if size % portByteAlignment ≠ 0 then
      size + (portByteAlignment - size % portByteAlignment)
    else size
  else 0

/-- A block that is larger than required is split into two. -/
def splitBlock (p : HeapPlace) (mem : ℕ → BlockLink) (pxEnd pxBlock xWantedSize : ℕ) :
    Option (ℕ → BlockLink) :=
  if (mem pxBlock).xBlockSize - xWantedSize > heapMinimumBlockSize then
    let pxNewBlockLink := pxBlock + xWantedSize
    let mem := Function.update mem pxNewBlockLink
      { mem pxNewBlockLink with xBlockSize := (mem pxBlock).xBlockSize - xWantedSize }
    let mem := Function.update mem pxBlock { mem pxBlock with xBlockSize := xWantedSize }
    prvInsertBlockIntoFreeList p mem pxEnd pxNewBlockLink
  else some mem

/-- The block found is taken out of the list. -/
def takeBlock (p : HeapPlace) (h : Heap4) (pxPreviousBlock pxBlock xWantedSize : ℕ) :
    Option (ℕ × Heap4) :=
  let pvReturn := (h.mem pxPreviousBlock).pxNextFreeBlock + xHeapStructSize
  let mem := Function.update h.mem pxPreviousBlock
    { h.mem pxPreviousBlock with pxNextFreeBlock := (h.mem pxBlock).pxNextFreeBlock }
  (splitBlock p mem h.pxEnd pxBlock xWantedSize).map fun mem =>
    let xFreeBytesRemaining := h.xFreeBytesRemaining - (mem pxBlock).xBlockSize
    (pvReturn,
      { mem := Function.update mem pxBlock ⟨0, (mem pxBlock).xBlockSize ||| xBlockAllocatedBit⟩
        pxEnd := h.pxEnd
        xFreeBytesRemaining := xFreeBytesRemaining
        xMinimumEverFreeBytesRemaining :=
          if xFreeBytesRemaining < h.xMinimumEverFreeBytesRemaining then xFreeBytesRemaining
          else h.xMinimumEverFreeBytesRemaining })

/-- `pvPortMalloc`, with its result. -/
def pvPortMalloc (p : HeapPlace) (h : Heap4) (xWantedSize : ℕ) : Option (ℕ × Heap4) :=
  let h := if h.pxEnd = 0 then prvHeapInit p h else h
  if xWantedSize &&& xBlockAllocatedBit = 0 then
    let xWantedSize := blockSize xWantedSize
    if xWantedSize > 0 ∧ xWantedSize ≤ h.xFreeBytesRemaining then
      (findBlock h.mem xWantedSize configTotalHeapSize p.xStart
        (h.mem p.xStart).pxNextFreeBlock).bind fun r =>
          if r.2 ≠ h.pxEnd then takeBlock p h r.1 r.2 xWantedSize else some (0, h)
    else some (0, h)
  else some (0, h)

def vPortFree (p : HeapPlace) (h : Heap4) (pv : ℕ) : Option Heap4 :=
  if pv ≠ 0 then
    let pxLink := pv - xHeapStructSize
    if (h.mem pxLink).xBlockSize &&& xBlockAllocatedBit ≠ 0 then
      if (h.mem pxLink).pxNextFreeBlock = 0 then
        -- the size without the bit
        let xBlockSize := (h.mem pxLink).xBlockSize &&& (xBlockAllocatedBit - 1)
        let mem := Function.update h.mem pxLink { h.mem pxLink with xBlockSize := xBlockSize }
        (prvInsertBlockIntoFreeList p mem h.pxEnd pxLink).map fun mem =>
          { h with mem := mem, xFreeBytesRemaining := h.xFreeBytesRemaining + xBlockSize }
      else some h
    else some h
  else some h

/-! ### The links of a list of spans -/

/-- From `prev` on the links lead through the blocks `bs` to `e`. -/
def LinksTo (mem : ℕ → BlockLink) : ℕ → List Span → ℕ → Prop
  | prev, [], e => (mem prev).pxNextFreeBlock = e
  | prev, b :: bs, e =>
      (mem prev).pxNextFreeBlock = b.start ∧ (mem b.start).xBlockSize = b.size ∧
        LinksTo mem b.start bs e

/-- The last block of a list, or what is before it. -/
def lastLink : ℕ → List Span → ℕ
  | prev, [] => prev
  | _, b :: bs => lastLink b.start bs

theorem lastLink_concat (prev : ℕ) (bs : List Span) (b : Span) :
    lastLink prev (bs ++ [b]) = b.start := by
  induction bs generalizing prev with
  | nil => rfl
  | cons c cs ih => exact ih c.start

theorem lastLink_mem (prev : ℕ) (bs : List Span) :
    lastLink prev bs = prev ∨ ∃ b ∈ bs, lastLink prev bs = b.start := by
  rcases List.eq_nil_or_concat bs with rfl | ⟨cs, b, rfl⟩
  · exact .inl rfl
  · exact .inr ⟨b, by simp, by rw [List.concat_eq_append, lastLink_concat]⟩

section Links

variable {mem mem' : ℕ → BlockLink} {prev prev' e : ℕ} {bs cs : List Span}

theorem linksTo_append :
    LinksTo mem prev (bs ++ cs) e ↔
      LinksTo mem prev bs (mem (lastLink prev bs)).pxNextFreeBlock ∧
        LinksTo mem (lastLink prev bs) cs e := by
  induction bs generalizing prev with
  | nil => exact ⟨fun h => ⟨rfl, h⟩, fun h => h.2⟩
  | cons b bs ih =>
      rw [List.cons_append, LinksTo, LinksTo, ih, lastLink]
      constructor
      · rintro ⟨h1, h2, h3, h4⟩
        exact ⟨⟨h1, h2, h3⟩, h4⟩
      · rintro ⟨⟨h1, h2, h3⟩, h4⟩
        exact ⟨h1, h2, h3, h4⟩

/-- The links are read at the blocks, and where they begin. -/
theorem LinksTo.congr (h : LinksTo mem prev bs e)
    (hprev : (mem' prev').pxNextFreeBlock = (mem prev).pxNextFreeBlock)
    (hbs : ∀ b ∈ bs, mem' b.start = mem b.start) : LinksTo mem' prev' bs e := by
  induction bs generalizing prev prev' with
  | nil => exact hprev.trans h
  | cons b bs ih =>
      obtain ⟨hnext, hsize, hrest⟩ := h
      have hb := hbs b List.mem_cons_self
      refine ⟨hprev.trans hnext, ?_, ih hrest ?_ fun c hc => hbs c (List.mem_cons_of_mem _ hc)⟩
      · rw [hb]
        exact hsize
      · rw [hb]

/-- A block is taken out by linking the one before it to the one behind it. -/
theorem LinksTo.remove {b : Span} (h : LinksTo mem prev (bs ++ b :: cs) e)
    (hnodup : (prev :: (bs ++ cs).map Span.start).Nodup) :
    LinksTo (Function.update mem (lastLink prev bs)
      { mem (lastLink prev bs) with pxNextFreeBlock := (mem b.start).pxNextFreeBlock })
      prev (bs ++ cs) e := by
  induction bs generalizing prev with
  | nil =>
      have hne : ∀ c ∈ cs, c.start ≠ prev := fun c hc heq =>
        (List.nodup_cons.mp hnodup).1 (List.mem_map.mpr ⟨c, hc, heq⟩)
      refine h.2.2.congr ?_ fun c hc => Function.update_of_ne (hne c hc) _ _
      rw [lastLink, Function.update_self]
  | cons c bs ih =>
      obtain ⟨hnext, hsize, hrest⟩ := h
      obtain ⟨hprev, hnodup⟩ := List.nodup_cons.mp hnodup
      refine ⟨?_, ?_, ih hrest hnodup⟩
      · have hne : prev ≠ lastLink c.start bs := fun heq => hprev <| by
          rcases lastLink_mem c.start bs with hl | ⟨d, hd, hl⟩ <;> rw [heq, hl]
          · exact List.mem_cons_self
          · exact List.mem_cons_of_mem _ (List.mem_map_of_mem (List.mem_append_left _ hd))
        rw [lastLink, Function.update_of_ne hne]
        exact hnext
      · rw [lastLink]
        by_cases heq : c.start = lastLink c.start bs
        · rw [← heq, Function.update_self]
          exact hsize
        · rw [Function.update_of_ne heq]
          exact hsize

/-- The first address that the links lead to. -/
theorem LinksTo.next (h : LinksTo mem prev bs e) :
    (mem prev).pxNextFreeBlock = (bs.head?.map Span.start).getD e := by
  cases bs with
  | nil => exact h
  | cons b bs => exact h.1

/-- The position of a block in the list. -/
theorem insertPos_spec {blk fuel : ℕ} (h : LinksTo mem prev (bs ++ cs) e)
    (hbs : ∀ b ∈ bs, b.start < blk) (hcs : ∀ c ∈ cs, blk ≤ c.start) (he : blk ≤ e)
    (hfuel : bs.length < fuel) : insertPos mem blk fuel prev = some (lastLink prev bs) := by
  induction bs generalizing prev fuel with
  | nil =>
      obtain ⟨fuel, rfl⟩ := Nat.exists_eq_add_of_lt hfuel
      have hnext : blk ≤ (mem prev).pxNextFreeBlock := by
        rw [h.next]
        cases cs with
        | nil => exact he
        | cons c cs => exact hcs c List.mem_cons_self
      rw [insertPos, if_neg (Nat.not_lt.mpr hnext)]
      rfl
  | cons b bs ih =>
      cases fuel with
      | zero => exact absurd hfuel (Nat.not_lt_zero _)
      | succ fuel =>
          obtain ⟨hnext, -, hrest⟩ := h
          rw [insertPos, hnext, if_pos (hbs b List.mem_cons_self), lastLink]
          exact ih hrest (fun c hc => hbs c (List.mem_cons_of_mem _ hc))
            (Nat.lt_of_succ_lt_succ hfuel)

/-- The search comes to the first block that is large enough, or to the end. -/
theorem findBlock_spec {w fuel : ℕ} (h : LinksTo mem prev bs e) (he : mem e = ⟨0, 0⟩)
    (hpos : ∀ b ∈ bs, 0 < b.start) (he0 : 0 < e) (hfuel : bs.length < fuel) :
    (∃ pre b post, bs = pre ++ b :: post ∧ (∀ c ∈ pre, c.size < w) ∧ w ≤ b.size ∧
      findBlock mem w fuel prev (mem prev).pxNextFreeBlock = some (lastLink prev pre, b.start)) ∨
    ((∀ b ∈ bs, b.size < w) ∧
      findBlock mem w fuel prev (mem prev).pxNextFreeBlock = some (lastLink prev bs, e)) := by
  induction bs generalizing prev fuel with
  | nil =>
      obtain ⟨fuel, rfl⟩ := Nat.exists_eq_add_of_lt hfuel
      refine .inr ⟨fun b hb => (List.not_mem_nil hb).elim, ?_⟩
      have hnext : (mem prev).pxNextFreeBlock = e := h
      rw [hnext, findBlock, he, if_neg fun hboth => hboth.2 rfl]
      rfl
  | cons b bs ih =>
      cases fuel with
      | zero => exact absurd hfuel (Nat.not_lt_zero _)
      | succ fuel =>
          obtain ⟨hnext, hsize, hrest⟩ := h
          by_cases hlt : b.size < w
          · -- the block is too small, and there is a next one
            have hne : (mem b.start).pxNextFreeBlock ≠ 0 := by
              rw [hrest.next]
              cases bs with
              | nil => exact Nat.ne_of_gt he0
              | cons c cs =>
                  exact Nat.ne_of_gt (hpos c (List.mem_cons_of_mem _ List.mem_cons_self))
            have hstep : findBlock mem w (fuel + 1) prev (mem prev).pxNextFreeBlock =
                findBlock mem w fuel b.start (mem b.start).pxNextFreeBlock := by
              rw [hnext, findBlock, hsize, if_pos ⟨hlt, hne⟩]
            rw [hstep]
            have hrec := ih hrest (fun c hc => hpos c (List.mem_cons_of_mem _ hc))
              (Nat.lt_of_succ_lt_succ hfuel)
            rcases hrec with ⟨pre, c, post, rfl, hpre, hle, hfind⟩ | ⟨hall, hfind⟩
            · exact .inl ⟨b :: pre, c, post, rfl, List.forall_mem_cons.mpr ⟨hlt, hpre⟩, hle, hfind⟩
            · exact .inr ⟨List.forall_mem_cons.mpr ⟨hlt, hall⟩, hfind⟩
          · refine .inl ⟨[], b, bs, rfl, fun c hc => (List.not_mem_nil hc).elim,
              Nat.le_of_not_lt hlt, ?_⟩
            rw [hnext, findBlock, hsize, if_neg fun hboth => hlt hboth.1]
            rfl

/-! ### Inserting a block -/

theorem joinBehind_of_ne {it blk a : ℕ} (ha : a ≠ blk) : joinBehind mem e it blk a = mem a := by
  rw [joinBehind]
  split
  · split
    · exact Function.update_of_ne ha _ _
    · exact Function.update_of_ne ha _ _
  · exact Function.update_of_ne ha _ _

/-- The block is linked to what is behind it. -/
theorem joinBehind_spec {it : ℕ} {b : Span} (h : LinksTo mem it cs e)
    (hsize : (mem b.start).xBlockSize = b.size) (hne : ∀ c ∈ cs, c.start ≠ b.start)
    (hend : ∀ c ∈ cs, c.start ≠ e) :
    ∃ c ds, joinFront b cs = c :: ds ∧ c.start = b.start ∧
      (joinBehind mem e it b.start b.start).xBlockSize = c.size ∧
      LinksTo (joinBehind mem e it b.start) b.start ds e := by
  have hcs : ∀ m : BlockLink, ∀ c ∈ cs, Function.update mem b.start m c.start = mem c.start :=
    fun m c hc => Function.update_of_ne (hne c hc) _ _
  cases cs with
  | nil =>
      have hnext : (mem it).pxNextFreeBlock = e := h
      refine ⟨b, [], rfl, rfl, ?_⟩
      rw [joinBehind, hnext, if_neg (not_not.mpr rfl)]
      split
      all_goals
        rw [LinksTo, Function.update_self]
        exact ⟨hsize, rfl⟩
  | cons c cs =>
      obtain ⟨hnext, hc, hrest⟩ := id h
      rw [joinFront, joinBehind, hnext, hsize]
      by_cases htouch : b.start + b.size = c.start
      · refine ⟨⟨b.start, b.size + c.size⟩, cs, if_pos htouch, rfl, ?_⟩
        rw [if_pos htouch, if_pos (hend c List.mem_cons_self)]
        refine ⟨?_, hrest.congr ?_ fun d hd => hcs _ d (List.mem_cons_of_mem _ hd)⟩
        · rw [Function.update_self, hc]
        · rw [Function.update_self]
      · refine ⟨b, c :: cs, if_neg htouch, rfl, ?_⟩
        rw [if_neg htouch]
        refine ⟨?_, h.congr ?_ (hcs _)⟩
        · rw [Function.update_self]
          exact hsize
        · rw [Function.update_self, hnext]

/-- A block that does not touch the one before it is linked behind that one. -/
theorem LinksTo.linkApart {it : ℕ} {b : Span} (h : LinksTo mem it cs e)
    (hsize : (mem b.start).xBlockSize = b.size) (hne : ∀ c ∈ cs, c.start ≠ b.start)
    (hend : ∀ c ∈ cs, c.start ≠ e) (hb : it ≠ b.start) (hit : ∀ c ∈ cs, c.start ≠ it)
    (htouch : it + (mem it).xBlockSize ≠ b.start) :
    LinksTo (linkBlock mem e it b.start) it (joinFront b cs) e ∧
      (linkBlock mem e it b.start it).xBlockSize = (mem it).xBlockSize ∧
      ∀ a, a ≠ it → a ≠ b.start → linkBlock mem e it b.start a = mem a := by
  have hlink : linkBlock mem e it b.start = Function.update (joinBehind mem e it b.start) it
      { joinBehind mem e it b.start it with pxNextFreeBlock := b.start } := by
    rw [linkBlock, joinBefore, if_neg htouch]
    exact if_pos hb
  obtain ⟨d, ds, hfront, hd, hdsize, hds⟩ := joinBehind_spec h hsize hne hend
  have hstarts : ∀ c ∈ d :: ds, c.start ≠ it := by
    rw [← hfront]
    intro c hc
    rcases (mem_joinFront_ends hc).1 with heq | ⟨f, hf, heq⟩ <;> rw [heq]
    · exact hb.symm
    · exact hit f hf
  rw [hlink, hfront]
  refine ⟨⟨?_, ?_, hds.congr ?_ fun c hc => ?_⟩, ?_, fun a ha hab => ?_⟩
  · rw [Function.update_self, hd]
  · rw [hd, Function.update_of_ne hb.symm, hdsize]
  · rw [hd, Function.update_of_ne hb.symm]
  · exact Function.update_of_ne (hstarts c (List.mem_cons_of_mem _ hc)) _ _
  · rw [Function.update_self, joinBehind_of_ne hb]
  · rw [Function.update_of_ne ha, joinBehind_of_ne hab]

/-- A block that touches the one before it becomes part of that one. -/
theorem LinksTo.linkJoined {c b : Span} (h : LinksTo mem c.start cs e)
    (hcsize : (mem c.start).xBlockSize = c.size) (hsize : (mem b.start).xBlockSize = b.size)
    (hne : ∀ d ∈ cs, d.start ≠ c.start) (hend : ∀ d ∈ cs, d.start ≠ e)
    (htouch : c.stop = b.start) :
    ∃ d ds, joinFront ⟨c.start, c.size + b.size⟩ cs = d :: ds ∧ d.start = c.start ∧
      (linkBlock mem e c.start b.start c.start).xBlockSize = d.size ∧
      LinksTo (linkBlock mem e c.start b.start) c.start ds e ∧
      ∀ a, a ≠ c.start → linkBlock mem e c.start b.start a = mem a := by
  set mem₁ := Function.update mem c.start
    { mem c.start with xBlockSize := (mem c.start).xBlockSize + (mem b.start).xBlockSize }
    with hmem₁
  have hself : mem₁ c.start = ⟨(mem c.start).pxNextFreeBlock, c.size + b.size⟩ := by
    rw [hmem₁, Function.update_self, hcsize, hsize]
  have hother : ∀ {a}, a ≠ c.start → mem₁ a = mem a := fun ha => Function.update_of_ne ha _ _
  have hlink : linkBlock mem e c.start b.start = joinBehind mem₁ e c.start c.start := by
    have hjoin : joinBefore mem c.start b.start = (mem₁, c.start) := by
      rw [joinBefore]
      exact if_pos (by rw [hcsize]; exact htouch)
    rw [linkBlock, hjoin]
    exact if_neg (not_not.mpr rfl)
  have h₁ : LinksTo mem₁ c.start cs e := h.congr (by rw [hself]) fun d hd => hother (hne d hd)
  rw [hlink]
  obtain ⟨d, ds, hfront, hd, hdsize, hds⟩ := joinBehind_spec (b := ⟨c.start, c.size + b.size⟩)
    h₁ (by rw [hself]) hne hend
  exact ⟨d, ds, hfront, hd, hdsize, hds, fun a ha => (joinBehind_of_ne ha).trans (hother ha)⟩

/-- **Inserting a block** into the links is inserting its span into the list. -/
theorem LinksTo.insert {p : HeapPlace} {b : Span} (h : LinksTo mem p.xStart bs e)
    (hstart : (mem p.xStart).xBlockSize = 0) (hsize : (mem b.start).xBlockSize = b.size)
    (hsep : Separated bs) (hb : 0 < b.size) (hapart : ∀ c ∈ bs, b.Apart c) (hbe : b.stop ≤ e)
    (hxb : p.xStart ≠ b.start) (hx : ∀ c ∈ bs, c.start ≠ p.xStart) (he : ∀ c ∈ bs, c.start ≠ e)
    (hfuel : bs.length < configTotalHeapSize) :
    ∃ mem', prvInsertBlockIntoFreeList p mem e b.start = some mem' ∧
      LinksTo mem' p.xStart (insertSpan b bs) e ∧ (mem' p.xStart).xBlockSize = 0 ∧
      ∀ a, a ≠ p.xStart → a ≠ b.start → (∀ c ∈ bs, a ≠ c.start) → mem' a = mem a := by
  obtain ⟨pre, post, rfl, hpre, hpost⟩ := hsep.split hapart
  have hlt : ∀ c ∈ pre, c.start < b.start := fun c hc => by
    have hle := hpre c hc
    have hpos := hsep.pos c (List.mem_append_left _ hc)
    rw [Span.stop] at hle
    omega
  have hgt : ∀ c ∈ post, b.start < c.start := fun c hc => by
    have hle := hpost c hc
    rw [Span.stop] at hle
    omega
  have hbe' : b.start ≤ e := Nat.le_trans (Nat.le_add_right _ _) hbe
  have hpostne : ∀ c ∈ post, c.start ≠ b.start := fun c hc => Nat.ne_of_gt (hgt c hc)
  have hpostend : ∀ c ∈ post, c.start ≠ e := fun c hc => he c (List.mem_append_right _ hc)
  have hpostx : ∀ c ∈ post, c.start ≠ p.xStart := fun c hc => hx c (List.mem_append_right _ hc)
  have hpos := insertPos_spec h hlt (fun c hc => Nat.le_of_lt (hgt c hc)) hbe'
    (Nat.lt_of_le_of_lt (by rw [List.length_append]; exact Nat.le_add_right _ _) hfuel)
  rw [prvInsertBlockIntoFreeList, hpos, Option.map_some]
  refine ⟨_, rfl, ?_⟩
  rcases List.eq_nil_or_concat pre with rfl | ⟨pre, c, rfl⟩
  · -- there is no block before it
    rw [List.nil_append] at h ⊢
    obtain ⟨hlinks, hxsize, hfar⟩ := h.linkApart hsize hpostne hpostend hxb hpostx
      (by rw [hstart]; exact hxb)
    rw [insertSpan_front fun c hc => Nat.le_of_lt (hgt c hc)]
    exact ⟨hlinks, hxsize.trans hstart, fun a hax hab _ => hfar a hax hab⟩
  · rw [List.concat_eq_append, List.append_assoc, List.singleton_append] at *
    have hcmem : c ∈ pre ++ c :: post := List.mem_append_right _ List.mem_cons_self
    have hcx : p.xStart ≠ c.start := (hx c hcmem).symm
    have hcb : c.start < b.start := hlt c (by simp)
    obtain ⟨hprelinks, hclink, hcsize, hrest⟩ := linksTo_append.mp h
    have hgaps := List.pairwise_append.mp hsep.gaps
    have hcpost : ∀ d ∈ post, d.start ≠ c.start := fun d hd => by
      have hlt := (List.pairwise_cons.mp hgaps.2.1).1 d hd
      rw [Span.stop] at hlt
      omega
    have hprec : ∀ d ∈ pre, d.stop < c.start := fun d hd => hgaps.2.2 d hd c List.mem_cons_self
    have hpreb : ∀ d ∈ pre, d.stop < b.start := fun d hd => Nat.lt_trans (hprec d hd) hcb
    -- what is before `c` keeps its links
    have hbefore : ∀ {mem'}, (∀ a, a ≠ c.start → a ≠ b.start → mem' a = mem a) →
        LinksTo mem' p.xStart pre c.start ∧ (mem' (lastLink p.xStart pre)).pxNextFreeBlock =
          c.start := by
      intro mem' hsame
      have hkeep : ∀ d ∈ pre, mem' d.start = mem d.start := fun d hd => by
        have h1 := hprec d hd
        rw [Span.stop] at h1
        exact hsame _ (by omega) (by omega)
      have hlinks : LinksTo mem' p.xStart pre c.start := by
        rw [hclink] at hprelinks
        exact hprelinks.congr (by rw [hsame _ hcx hxb]) hkeep
      refine ⟨hlinks, ?_⟩
      rcases lastLink_mem p.xStart pre with hl | ⟨d, hd, hl⟩ <;> rw [hl] at hclink ⊢
      · rw [hsame _ hcx hxb, hclink]
      · rw [hkeep d hd, hclink]
    rw [insertSpan_append hpreb, lastLink_concat, insertSpan, if_neg (Nat.not_le.mpr hcb),
      insertSpan_front fun d hd => Nat.le_of_lt (hgt d hd)]
    by_cases htouch : c.stop = b.start
    · obtain ⟨d, ds, hfront, hd, hdsize, hds, hfar⟩ :=
        hrest.linkJoined hcsize hsize hcpost hpostend htouch
      obtain ⟨hpre', hlast⟩ := hbefore fun a hac _ => hfar a hac
      rw [if_pos htouch, hfront]
      refine ⟨linksTo_append.mpr ⟨?_, ?_, ?_, ?_⟩, ?_, fun a _ _ hac => hfar a (hac c hcmem)⟩
      · rw [hlast]
        exact hpre'
      · rw [hlast, hd]
      · rw [hd]
        exact hdsize
      · rw [hd]
        exact hds
      · rw [hfar _ hcx]
        exact hstart
    · obtain ⟨hlinks, hxsize, hfar⟩ := hrest.linkApart hsize hpostne hpostend (Nat.ne_of_lt hcb)
        hcpost (by rw [hcsize]; exact htouch)
      obtain ⟨hpre', hlast⟩ := hbefore hfar
      rw [if_neg htouch]
      refine ⟨linksTo_append.mpr ⟨?_, hlast, hxsize.trans hcsize, hlinks⟩, ?_,
        fun a _ hab hac => hfar a (hac c hcmem) hab⟩
      · rw [hlast]
        exact hpre'
      · rw [hfar _ hcx hxb]
        exact hstart

end Links

end Lpc1768
