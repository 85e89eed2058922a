/-
Lpc1768/KernelList.lean

The lists of the FreeRTOS kernel.  A list is a ring of items, linked both ways
through an end marker, with an index that walks round it; an item knows the list
that it is on.  All lists of tasks are such lists: the ready ones, the delayed ones,
and those of the tasks that wait for an event.

`Ring` ... 
-/
import Mathlib.Data.List.Induction
import Mathlib.Data.List.Nodup
import Mathlib.Data.List.TakeWhile
import Mathlib.Logic.Function.Basic
import Lpc1768.Transition

namespace Lpc1768

/-! ### list.h and list.c -/

def portMaxDelay : ℕ := 0xffffffff

/-- `ListItem_t`. -/
structure ListItem where
  xItemValue : ℕ
  pxNext : ℕ
  pxPrevious : ℕ
  pvOwner : ℕ
  pxContainer : ℕ

/-- `List_t` up to its end marker. -/
structure KernelList where
  uxNumberOfItems : ℕ
  pxIndex : ℕ

/-- The items, the end markers among them, and the lists, each by its address. -/
structure ListMem where
  item : ℕ → ListItem
  list : ℕ → KernelList

/-- `&( pxList->xListEnd )`: behind the count and the index. -/
def xListEnd (pxList : ℕ) : ℕ := pxList + 8

/-- An assignment to a field of an item. -/
def ListMem.setItem (m : ListMem) (x : ℕ) (f : ListItem → ListItem) : ListMem :=
  { m with item := Function.update m.item x (f (m.item x)) }

def ListMem.setList (m : ListMem) (pxList : ℕ) (f : KernelList → KernelList) : ListMem :=
  { m with list := Function.update m.list pxList (f (m.list pxList)) }

def vListInitialise (m : ListMem) (pxList : ℕ) : ListMem :=
  let e := xListEnd pxList
  let m := m.setList pxList fun _ => { uxNumberOfItems := 0, pxIndex := e }
  m.setItem e fun i => { i with xItemValue := portMaxDelay, pxNext := e, pxPrevious := e }

def vListInitialiseItem (m : ListMem) (pxItem : ℕ) : ListMem :=
  m.setItem pxItem fun i => { i with pxContainer := 0 }

def vListInsertEnd (m : ListMem) (pxList pxNewListItem : ℕ) : ListMem :=
  let pxIndex := (m.list pxList).pxIndex
  let m := m.setItem pxNewListItem fun i =>
    { i with pxNext := pxIndex, pxPrevious := (m.item pxIndex).pxPrevious }
  let m := m.setItem (m.item pxIndex).pxPrevious fun i => { i with pxNext := pxNewListItem }
  let m := m.setItem pxIndex fun i => { i with pxPrevious := pxNewListItem }
  let m := m.setItem pxNewListItem fun i => { i with pxContainer := pxList }
  m.setList pxList fun l => { l with uxNumberOfItems := l.uxNumberOfItems + 1 }

/-- The loop of `vListInsert`; `none` when it has not ended after `fuel` items. -/
def insertAfter (item : ℕ → ListItem) (xValueOfInsertion : ℕ) : ℕ → ℕ → Option ℕ
  | 0, _ => none
  | fuel + 1, pxIterator =>
      if (item (item pxIterator).pxNext).xItemValue ≤ xValueOfInsertion then
        insertAfter item xValueOfInsertion fuel (item pxIterator).pxNext
      else some pxIterator

def vListInsert (m : ListMem) (pxList pxNewListItem : ℕ) : Option ListMem :=
  let xValueOfInsertion := (m.item pxNewListItem).xItemValue
  let pxIterator :=
    if xValueOfInsertion = portMaxDelay then some (m.item (xListEnd pxList)).pxPrevious
    else
      insertAfter m.item xValueOfInsertion ((m.list pxList).uxNumberOfItems + 1) (xListEnd pxList)
  pxIterator.map fun pxIterator =>
    let m := m.setItem pxNewListItem fun i => { i with pxNext := (m.item pxIterator).pxNext }
    let m := m.setItem (m.item pxNewListItem).pxNext fun i => { i with pxPrevious := pxNewListItem }
    let m := m.setItem pxNewListItem fun i => { i with pxPrevious := pxIterator }
    let m := m.setItem pxIterator fun i => { i with pxNext := pxNewListItem }
    let m := m.setItem pxNewListItem fun i => { i with pxContainer := pxList }
    m.setList pxList fun l => { l with uxNumberOfItems := l.uxNumberOfItems + 1 }

/-- `uxListRemove`, with the number of items left. -/
def uxListRemove (m : ListMem) (pxItemToRemove : ℕ) : ListMem × ℕ :=
  let pxList := (m.item pxItemToRemove).pxContainer
  let m := m.setItem (m.item pxItemToRemove).pxNext fun i =>
    { i with pxPrevious := (m.item pxItemToRemove).pxPrevious }
  let m := m.setItem (m.item pxItemToRemove).pxPrevious fun i =>
    { i with pxNext := (m.item pxItemToRemove).pxNext }
  let m :=
    if (m.list pxList).pxIndex = pxItemToRemove then
      m.setList pxList fun l => { l with pxIndex := (m.item pxItemToRemove).pxPrevious }
    else m
  let m := m.setItem pxItemToRemove fun i => { i with pxContainer := 0 }
  let m := m.setList pxList fun l => { l with uxNumberOfItems := l.uxNumberOfItems - 1 }
  (m, (m.list pxList).uxNumberOfItems)

/-- `listGET_OWNER_OF_NEXT_ENTRY`. -/
def listGetOwnerOfNextEntry (m : ListMem) (pxList : ℕ) : ListMem × ℕ :=
  let m := m.setList pxList fun l => { l with pxIndex := (m.item l.pxIndex).pxNext }
  let m :=
    if (m.list pxList).pxIndex = xListEnd pxList then
      m.setList pxList fun l => { l with pxIndex := (m.item l.pxIndex).pxNext }
    else m
  (m, (m.item (m.list pxList).pxIndex).pvOwner)

/-- `listGET_OWNER_OF_HEAD_ENTRY`. -/
def listGetOwnerOfHeadEntry (m : ListMem) (pxList : ℕ) : ℕ :=
  (m.item (m.item (xListEnd pxList)).pxNext).pvOwner

/-- `listSET_LIST_ITEM_VALUE`. -/
def listSetListItemValue (m : ListMem) (pxListItem xValue : ℕ) : ListMem :=
  m.setItem pxListItem fun i => { i with xItemValue := xValue }

/-! ### Links both ways -/

/-- From `a` over `xs` to `b` the items are linked both ways. -/
def DLinks (item : ℕ → ListItem) : ℕ → List ℕ → ℕ → Prop
  | a, [], b => (item a).pxNext = b ∧ (item b).pxPrevious = a
  | a, x :: xs, b => (item a).pxNext = x ∧ (item x).pxPrevious = a ∧ DLinks item x xs b

/-- The items with `x` put between `a` and `b`. -/
def splice (item : ℕ → ListItem) (a x b pxList : ℕ) : ℕ → ListItem := fun u =>
  { item u with
    pxNext := if u = x then b else if u = a then x else (item u).pxNext
    pxPrevious := if u = x then a else if u = b then x else (item u).pxPrevious
    pxContainer := if u = x then pxList else (item u).pxContainer }

/-- The items with `x` taken out from between `a` and `b`. -/
def unsplice (item : ℕ → ListItem) (a x b : ℕ) : ℕ → ListItem := fun u =>
  { item u with
    pxNext := if u = a then b else (item u).pxNext
    pxPrevious := if u = b then a else (item u).pxPrevious
    pxContainer := if u = x then 0 else (item u).pxContainer }

section

variable {item item' : ℕ → ListItem} {a b x u : ℕ} {xs pre post : List ℕ}

theorem splice_pxNext (pxList : ℕ) : (splice item a x b pxList u).pxNext =
    if u = x then b else if u = a then x else (item u).pxNext := rfl

theorem splice_pxPrevious (pxList : ℕ) : (splice item a x b pxList u).pxPrevious =
    if u = x then a else if u = b then x else (item u).pxPrevious := rfl

theorem unsplice_pxNext : (unsplice item a x b u).pxNext =
    if u = a then b else (item u).pxNext := rfl

theorem unsplice_pxPrevious : (unsplice item a x b u).pxPrevious =
    if u = b then a else (item u).pxPrevious := rfl

theorem DLinks.next (h : DLinks item a xs b) : (item a).pxNext = xs.headD b := by
  cases xs with
  | nil => exact h.1
  | cons x xs => exact h.1

theorem DLinks.previous (h : DLinks item a xs b) : (item b).pxPrevious = xs.getLastD a := by
  induction xs generalizing a with
  | nil => exact h.2
  | cons x xs ih =>
      rw [List.getLastD_cons]
      exact ih h.2.2

/-- The links are read where they begin and at the items. -/
theorem DLinks.congr (h : DLinks item a xs b)
    (hnext : ∀ u ∈ a :: xs, (item' u).pxNext = (item u).pxNext)
    (hprev : ∀ u ∈ xs ++ [b], (item' u).pxPrevious = (item u).pxPrevious) :
    DLinks item' a xs b := by
  induction xs generalizing a with
  | nil =>
      exact ⟨(hnext a List.mem_cons_self).trans h.1, (hprev b List.mem_cons_self).trans h.2⟩
  | cons x xs ih =>
      refine ⟨(hnext a List.mem_cons_self).trans h.1, (hprev x List.mem_cons_self).trans h.2.1,
        ih h.2.2 ?_ ?_⟩
      · intro u hu
        exact hnext u (List.mem_cons_of_mem _ hu)
      · intro u hu
        exact hprev u (List.mem_cons_of_mem _ hu)

/-- Links in two parts. -/
theorem dlinks_append :
    DLinks item a (pre ++ x :: post) b ↔ DLinks item a pre x ∧ DLinks item x post b := by
  induction pre generalizing a with
  | nil => exact and_assoc.symm
  | cons y ys ih =>
      rw [List.cons_append, DLinks, DLinks, ih, and_assoc, and_assoc]

/-- Where a first part of the items ends, the links lead to the rest and back. -/
theorem DLinks.joint (h : DLinks item a (pre ++ post) b) :
    (item (pre.getLastD a)).pxNext = post.headD b ∧
      (item (post.headD b)).pxPrevious = pre.getLastD a := by
  induction pre generalizing a with
  | nil =>
      refine ⟨h.next, ?_⟩
      cases post with
      | nil => exact h.2
      | cons y ys => exact h.2.1
  | cons p pre ih =>
      rw [List.getLastD_cons]
      exact ih h.2.2

/-- The loop of `vListInsert` ends at the last item of no greater value. -/
theorem DLinks.insertAfter_eq {v fuel : ℕ} (h : DLinks item a xs b) (hb : v < (item b).xItemValue)
    (hfuel : xs.length < fuel) :
    insertAfter item v fuel a =
      some ((xs.takeWhile fun y => (item y).xItemValue ≤ v).getLastD a) := by
  induction xs generalizing a fuel with
  | nil =>
      obtain ⟨fuel, rfl⟩ := Nat.exists_eq_add_of_lt hfuel
      rw [insertAfter, h.1, if_neg (Nat.not_le.mpr hb)]
      rfl
  | cons x xs ih =>
      cases fuel with
      | zero => exact absurd hfuel (Nat.not_lt_zero _)
      | succ fuel =>
          rw [insertAfter, h.1]
          by_cases hx : (item x).xItemValue ≤ v
          · rw [if_pos hx, List.takeWhile_cons_of_pos (by simpa using hx), List.getLastD_cons]
            exact ih h.2.2 (Nat.lt_of_succ_lt_succ hfuel)
          · rw [if_neg hx, List.takeWhile_cons_of_neg (by simpa using hx)]
            rfl

/-- An item is not the last one before a later place, -/
theorem ne_getLastD {p : ℕ} (h : (a :: (p :: pre ++ post)).Nodup) : a ≠ pre.getLastD p := by
  intro he
  have hmem : pre.getLastD p ∈ p :: pre := List.getLastD_mem_cons
  rw [← he] at hmem
  exact (List.nodup_cons.mp h).1 (List.mem_append_left post hmem)

/-- nor the first one behind it. -/
theorem ne_headD {p : ℕ} (h : p ∉ post) (hb : b ≠ p) : p ≠ post.headD b := by
  cases post with
  | nil => exact Ne.symm hb
  | cons y ys =>
      rintro rfl
      exact h List.mem_cons_self

theorem ne_of_mem_concat {y : ℕ} (hu : u ∈ xs ++ [b]) (hy : y ∉ xs) (hb : b ≠ y) : u ≠ y := by
  rintro rfl
  rcases List.mem_append.mp hu with hmem | hmem
  · exact hy hmem
  · exact hb (List.mem_singleton.mp hmem).symm

/-- Putting `x` in. -/
theorem DLinks.put (h : DLinks item a (pre ++ post) b) (hnodup : (a :: (pre ++ post)).Nodup)
    (hb : b ∉ pre ++ post) (hx : x ∉ a :: (pre ++ post)) (hxb : b ≠ x) (pxList : ℕ) :
    DLinks (splice item (pre.getLastD a) x (post.headD b) pxList) a (pre ++ x :: post) b := by
  have hxa : a ≠ x := fun he => hx (he ▸ List.mem_cons_self)
  have hxs : x ∉ pre ++ post := fun hmem => hx (List.mem_cons_of_mem _ hmem)
  induction pre generalizing a with
  | nil =>
      have ha : a ∉ post := (List.nodup_cons.mp hnodup).1
      refine ⟨?_, ?_, ?_⟩
      · rw [splice_pxNext, if_neg hxa]
        exact if_pos rfl
      · rw [splice_pxPrevious]
        exact if_pos rfl
      · cases post with
        | nil =>
            refine ⟨?_, ?_⟩
            · rw [splice_pxNext]
              exact if_pos rfl
            · rw [splice_pxPrevious, if_neg hxb]
              exact if_pos rfl
        | cons y ys =>
            have hyx : y ≠ x := fun he => hxs (he ▸ List.mem_cons_self)
            have hys := (List.nodup_cons.mp (List.nodup_cons.mp hnodup).2).1
            refine ⟨?_, ?_, DLinks.congr h.2.2 (fun u hu => ?_) fun u hu => ?_⟩
            · rw [splice_pxNext]
              exact if_pos rfl
            · rw [splice_pxPrevious, if_neg hyx]
              exact if_pos rfl
            · have hux : u ≠ x := fun he => hxs (he ▸ hu)
              have hua : u ≠ a := fun he => ha (he ▸ hu)
              rw [splice_pxNext, if_neg hux]
              exact if_neg hua
            · have hux := ne_of_mem_concat hu (fun hmem => hxs (List.mem_cons_of_mem _ hmem)) hxb
              have huy := ne_of_mem_concat hu hys fun he => hb (he ▸ List.mem_cons_self)
              rw [splice_pxPrevious, if_neg hux]
              exact if_neg huy
  | cons p pre ih =>
      obtain ⟨hnext, hprev, hrest⟩ := h
      have hnodup' := (List.nodup_cons.mp hnodup).2
      have hpx : p ≠ x := fun he => hxs (he ▸ List.mem_cons_self)
      have hpb : b ≠ p := fun he => hb (he ▸ List.mem_cons_self)
      rw [List.getLastD_cons]
      refine ⟨?_, ?_, ih hrest hnodup' (fun hmem => hb (List.mem_cons_of_mem _ hmem)) ?_ hpx
        fun hmem => hxs (List.mem_cons_of_mem _ hmem)⟩
      · rw [splice_pxNext, if_neg hxa, if_neg (ne_getLastD hnodup)]
        exact hnext
      · have hpost : p ∉ post := fun hmem =>
          (List.nodup_cons.mp hnodup').1 (List.mem_append_right pre hmem)
        rw [splice_pxPrevious, if_neg hpx, if_neg (ne_headD hpost hpb)]
        exact hprev
      · exact hxs

/-- Taking `x` out. -/
theorem DLinks.takeOut (h : DLinks item a (pre ++ x :: post) b)
    (hnodup : (a :: (pre ++ x :: post)).Nodup) (hb : b ∉ pre ++ x :: post) :
    DLinks (unsplice item (pre.getLastD a) x (post.headD b)) a (pre ++ post) b := by
  induction pre generalizing a with
  | nil =>
      obtain ⟨ha, hpost⟩ := List.nodup_cons.mp hnodup
      cases post with
      | nil =>
          refine ⟨?_, ?_⟩
          · rw [unsplice_pxNext]
            exact if_pos rfl
          · rw [unsplice_pxPrevious]
            exact if_pos rfl
      | cons y ys =>
          have hys := (List.nodup_cons.mp (List.nodup_cons.mp hpost).2).1
          refine ⟨?_, ?_, DLinks.congr h.2.2.2.2 (fun u hu => ?_) fun u hu => ?_⟩
          · rw [unsplice_pxNext]
            exact if_pos rfl
          · rw [unsplice_pxPrevious]
            exact if_pos rfl
          · have hua : u ≠ a := fun he => ha (he ▸ List.mem_cons_of_mem _ hu)
            rw [unsplice_pxNext]
            exact if_neg hua
          · have huy := ne_of_mem_concat hu hys
              fun he => hb (he ▸ List.mem_cons_of_mem _ List.mem_cons_self)
            rw [unsplice_pxPrevious]
            exact if_neg huy
  | cons p pre ih =>
      obtain ⟨hnext, hprev, hrest⟩ := h
      have hnodup' := (List.nodup_cons.mp hnodup).2
      have hpost : p ∉ post := fun hmem =>
        (List.nodup_cons.mp hnodup').1 (List.mem_append_right pre (List.mem_cons_of_mem _ hmem))
      have hpb : b ≠ p := fun he => hb (he ▸ List.mem_cons_self)
      rw [List.getLastD_cons]
      refine ⟨?_, ?_, ih hrest hnodup' fun hmem => hb (List.mem_cons_of_mem _ hmem)⟩
      · rw [unsplice_pxNext, if_neg (ne_getLastD hnodup)]
        exact hnext
      · rw [unsplice_pxPrevious, if_neg (ne_headD hpost hpb)]
        exact hprev

end

/-! ### What the functions do to the links -/

section

variable {item : ℕ → ListItem} {a b x : ℕ}

/-- The assignments of `vListInsertEnd`. -/
theorem updates_insertEnd (hax : a ≠ x) (hbx : b ≠ x) (l : ℕ) :
    let i := Function.update item x { item x with pxNext := b, pxPrevious := a }
    let i := Function.update i a { i a with pxNext := x }
    let i := Function.update i b { i b with pxPrevious := x }
    Function.update i x { i x with pxContainer := l } = splice item a x b l := by
  funext u
  by_cases hux : u = x
  · subst hux
    simp [splice, hax.symm, hbx.symm]
  · by_cases hub : u = b
    · subst hub
      by_cases hua : u = a
      · subst hua
        simp [splice, hux]
      · simp [splice, hux, hua]
    · by_cases hua : u = a
      · subst hua
        simp [splice, hux, hub]
      · simp [splice, hux, hub, hua]

/-- The assignments of `vListInsert`. -/
theorem updates_insert (hax : a ≠ x) (hbx : b ≠ x) (l : ℕ) :
    let i := Function.update item x { item x with pxNext := b }
    let i := Function.update i b { i b with pxPrevious := x }
    let i := Function.update i x { i x with pxPrevious := a }
    let i := Function.update i a { i a with pxNext := x }
    Function.update i x { i x with pxContainer := l } = splice item a x b l := by
  funext u
  by_cases hux : u = x
  · subst hux
    simp [splice, hax.symm, hbx.symm]
  · by_cases hub : u = b
    · subst hub
      by_cases hua : u = a
      · subst hua
        simp [splice, hux]
      · simp [splice, hux, hua]
    · by_cases hua : u = a
      · subst hua
        simp [splice, hux, hub]
      · simp [splice, hux, hub, hua]

/-- The assignments of `uxListRemove`. -/
theorem updates_remove (hax : a ≠ x) (hbx : b ≠ x) :
    let i := Function.update item b { item b with pxPrevious := a }
    let i := Function.update i a { i a with pxNext := b }
    Function.update i x { i x with pxContainer := 0 } = unsplice item a x b := by
  funext u
  by_cases hux : u = x
  · subst hux
    simp [unsplice, hax.symm, hbx.symm]
  · by_cases hub : u = b
    · subst hub
      by_cases hua : u = a
      · subst hua
        simp [unsplice, hux]
      · simp [unsplice, hux, hua]
    · by_cases hua : u = a
      · subst hua
        simp [unsplice, hux, hub]
      · simp [unsplice, hux, hub, hua]

end

section

variable {m : ListMem} {l x it nx : ℕ}

theorem vListInsertEnd_eq (hnx : (m.list l).pxIndex = nx) (hit : (m.item nx).pxPrevious = it)
    (hxnx : nx ≠ x) (hxit : it ≠ x) :
    vListInsertEnd m l x =
      { item := splice m.item it x nx l
        list := Function.update m.list l
          { m.list l with uxNumberOfItems := (m.list l).uxNumberOfItems + 1 } } := by
  rw [← updates_insertEnd hxit hxnx]
  simp only [vListInsertEnd, ListMem.setItem, ListMem.setList, hnx, hit,
    Function.update_of_ne hxnx]

theorem vListInsert_eq {v : ℕ} (hv : (m.item x).xItemValue = v)
    (hit : (if v = portMaxDelay then some (m.item (xListEnd l)).pxPrevious
      else insertAfter m.item v ((m.list l).uxNumberOfItems + 1) (xListEnd l)) = some it)
    (hnx : (m.item it).pxNext = nx) (hxnx : nx ≠ x) (hxit : it ≠ x) :
    vListInsert m l x =
      some { item := splice m.item it x nx l
             list := Function.update m.list l
               { m.list l with uxNumberOfItems := (m.list l).uxNumberOfItems + 1 } } := by
  rw [← updates_insert hxit hxnx]
  simp only [vListInsert, hv, hit, Option.map_some, ListMem.setItem, ListMem.setList, hnx,
    Function.update_self]

theorem uxListRemove_eq (hnx : (m.item x).pxNext = nx) (hit : (m.item x).pxPrevious = it)
    (hl : (m.item x).pxContainer = l) (hxnx : nx ≠ x) (hxit : it ≠ x) :
    uxListRemove m x =
      ({ item := unsplice m.item it x nx
         list := Function.update m.list l
          { uxNumberOfItems := (m.list l).uxNumberOfItems - 1
            pxIndex := if (m.list l).pxIndex = x then it else (m.list l).pxIndex } },
        (m.list l).uxNumberOfItems - 1) := by
  rw [← updates_remove hxit hxnx]
  by_cases hindex : (m.list l).pxIndex = x
  · simp [uxListRemove, ListMem.setItem, ListMem.setList, hnx, hit, hl, hindex,
      Function.update_of_ne hxnx.symm, Function.update_of_ne hxit.symm]
  · simp [uxListRemove, ListMem.setItem, ListMem.setList, hnx, hit, hl, hindex,
      Function.update_of_ne hxnx.symm]

end

/-! ### What a list is -/

/-- The items of a list, first to last, and the one that the index is at, if it is not at
the end marker. -/
structure Rota where
  items : List ℕ
  index : Option ℕ

/-- A new item is put before the one that the index is at. -/
def Rota.insertEnd (s : Rota) (x : ℕ) : Rota :=
  { s with
    items :=
      match s.index with
      | none => s.items ++ [x]
      | some y => s.items.takeWhile (· ≠ y) ++ x :: s.items.dropWhile (· ≠ y) }

/-- A new item is put behind those of no greater value. -/
def Rota.insert (value : ℕ → ℕ) (s : Rota) (x : ℕ) : Rota :=
  { s with
    items :=
      s.items.takeWhile (value · ≤ value x) ++ x :: s.items.dropWhile (value · ≤ value x) }

/-- The index goes back from an item that is removed. -/
def Rota.remove (s : Rota) (x : ℕ) : Rota where
  items := s.items.erase x
  index := if s.index = some x then (s.items.takeWhile (· ≠ x)).getLast? else s.index

/-- The index goes on to the next item. -/
def Rota.next (s : Rota) : Rota :=
  { s with
    index :=
      match s.index with
      | none => s.items.head?
      | some y => (s.items.dropWhile (· ≠ y)).tail.head?.or s.items.head? }

/-- The list at `l` has the items `s`. -/
structure RingOf (m : ListMem) (l : ℕ) (s : Rota) : Prop where
  links : DLinks m.item (xListEnd l) s.items (xListEnd l)
  count : (m.list l).uxNumberOfItems = s.items.length
  index : (m.list l).pxIndex = s.index.getD (xListEnd l)
  walks : ∀ y, s.index = some y → y ∈ s.items
  nodup : (xListEnd l :: s.items).Nodup
  last : (m.item (xListEnd l)).xItemValue = portMaxDelay

section

variable {m : ListMem} {l x : ℕ} {s : Rota} {pre post : List ℕ}

theorem takeWhile_congr {p q : ℕ → Bool} {xs : List ℕ} (h : ∀ y ∈ xs, p y = q y) :
    xs.takeWhile p = xs.takeWhile q := by
  induction xs with
  | nil => rfl
  | cons y ys ih =>
      rw [List.takeWhile_cons, List.takeWhile_cons, h y List.mem_cons_self,
        ih fun z hz => h z (List.mem_cons_of_mem _ hz)]

/-- The items before an item, and from it on. -/
theorem takeWhile_ne {y : ℕ} (hpre : y ∉ pre) :
    (pre ++ y :: post).takeWhile (· ≠ y) = pre := by
  have hall : ∀ z ∈ pre, decide (z ≠ y) = true := by
    intro z hz
    exact decide_eq_true fun he => hpre (he ▸ hz)
  rw [List.takeWhile_append_of_pos hall, List.takeWhile_cons_of_neg (by simp), List.append_nil]

theorem dropWhile_ne {y : ℕ} (hpre : y ∉ pre) :
    (pre ++ y :: post).dropWhile (· ≠ y) = y :: post := by
  have hall : ∀ z ∈ pre, decide (z ≠ y) = true := by
    intro z hz
    exact decide_eq_true fun he => hpre (he ▸ hz)
  rw [List.dropWhile_append_of_pos hall, List.dropWhile_cons_of_neg (by simp)]

theorem RingOf.put (h : RingOf m l s) (hitems : s.items = pre ++ post)
    (hx : x ∉ xListEnd l :: s.items) :
    RingOf
      { item := splice m.item (pre.getLastD (xListEnd l)) x (post.headD (xListEnd l)) l
        list := Function.update m.list l
          { m.list l with uxNumberOfItems := (m.list l).uxNumberOfItems + 1 } }
      l { s with items := pre ++ x :: post } := by
  have hlinks := h.links
  have hnodup := h.nodup
  rw [hitems] at hlinks hnodup hx
  constructor
  · exact hlinks.put hnodup (List.nodup_cons.mp hnodup).1 hx
      (fun he => hx (he ▸ List.mem_cons_self)) l
  · simp only [Function.update_self, h.count, hitems, List.length_append, List.length_cons]
    omega
  · simp only [Function.update_self]
    exact h.index
  · intro y hy
    have hmem := h.walks y hy
    rw [hitems] at hmem
    rcases List.mem_append.mp hmem with hmem | hmem
    · exact List.mem_append_left _ hmem
    · exact List.mem_append_right _ (List.mem_cons_of_mem _ hmem)
  · have hperm : (xListEnd l :: (pre ++ x :: post)).Perm (x :: xListEnd l :: (pre ++ post)) := by
      refine .trans (.cons _ List.perm_middle) (.swap _ _ _)
    exact hperm.nodup_iff.mpr (List.nodup_cons.mpr ⟨hx, hnodup⟩)
  · exact h.last

theorem RingOf.takeOut (h : RingOf m l s) (hitems : s.items = pre ++ x :: post) :
    RingOf
      { item := unsplice m.item (pre.getLastD (xListEnd l)) x (post.headD (xListEnd l))
        list := Function.update m.list l
          { uxNumberOfItems := (m.list l).uxNumberOfItems - 1
            pxIndex := if (m.list l).pxIndex = x then pre.getLastD (xListEnd l)
              else (m.list l).pxIndex } }
      l (s.remove x) := by
  have hlinks := h.links
  have hnodup := h.nodup
  rw [hitems] at hlinks hnodup
  obtain ⟨hend, hitemsNodup⟩ := List.nodup_cons.mp hnodup
  have hxe : xListEnd l ≠ x := fun he =>
    hend (he ▸ List.mem_append_right _ List.mem_cons_self)
  have hpre : x ∉ pre := fun hmem => by
    have := (List.nodup_append.mp hitemsNodup).2.2 x hmem x List.mem_cons_self
    exact this rfl
  have herase : s.items.erase x = pre ++ post := by
    rw [hitems, List.erase_append_right _ hpre, List.erase_cons_head]
  have hbefore : s.items.takeWhile (· ≠ x) = pre := by
    rw [hitems]
    exact takeWhile_ne hpre
  constructor
  · rw [Rota.remove, herase]
    exact hlinks.takeOut hnodup hend
  · show (Function.update m.list l _ l).uxNumberOfItems = (s.items.erase x).length
    rw [Function.update_self, herase, h.count, hitems, List.length_append, List.length_append]
    rfl
  · simp only [Function.update_self, Rota.remove, hbefore]
    rw [h.index]
    cases hs : s.index with
    | none => simp [hxe]
    | some y =>
        by_cases hy : y = x
        · simp [hy]
        · simp [hy]
  · intro y hy
    rw [Rota.remove, herase]
    simp only [Rota.remove, hbefore] at hy
    split at hy
    · exact List.mem_append_left _ (List.mem_of_getLast? hy)
    · next hne =>
        have hmem := h.walks y hy
        rw [hitems] at hmem
        rcases List.mem_append.mp hmem with hmem | hmem
        · exact List.mem_append_left _ hmem
        · rcases List.mem_cons.mp hmem with rfl | hmem
          · exact absurd hy hne
          · exact List.mem_append_right _ hmem
  · rw [Rota.remove, herase]
    refine hnodup.sublist (List.Sublist.cons_cons _ ?_)
    exact List.Sublist.append_left (List.sublist_cons_self x post) pre
  · exact h.last

/-- A list and its memory with an item put in at some place. -/
def PutAt (m : ListMem) (l x : ℕ) (s t : Rota) (m' : ListMem) : Prop :=
  ∃ pre post, s.items = pre ++ post ∧ t = { s with items := pre ++ x :: post } ∧
    m' =
      { item := splice m.item (pre.getLastD (xListEnd l)) x (post.headD (xListEnd l)) l
        list := Function.update m.list l
          { m.list l with uxNumberOfItems := (m.list l).uxNumberOfItems + 1 } }

theorem getLastD_ne (hx : x ∉ xListEnd l :: (pre ++ post)) : pre.getLastD (xListEnd l) ≠ x := by
  rintro rfl
  have hmem : pre.getLastD (xListEnd l) ∈ xListEnd l :: pre := List.getLastD_mem_cons
  exact hx (List.Sublist.cons_cons _ (List.sublist_append_left pre post) |>.subset hmem)

theorem headD_ne (hx : x ∉ xListEnd l :: (pre ++ post)) : post.headD (xListEnd l) ≠ x := by
  rintro rfl
  cases post with
  | nil => exact hx List.mem_cons_self
  | cons y ys =>
      exact hx (List.mem_cons_of_mem _ (List.mem_append_right _ List.mem_cons_self))

theorem vListInsertEnd_put (h : RingOf m l s) (hx : x ∉ xListEnd l :: s.items) :
    PutAt m l x s (s.insertEnd x) (vListInsertEnd m l x) := by
  obtain ⟨pre, post, hitems, hinsert, hindex⟩ : ∃ pre post, s.items = pre ++ post ∧
      s.insertEnd x = { s with items := pre ++ x :: post } ∧
      (m.list l).pxIndex = post.headD (xListEnd l) := by
    rw [h.index]
    cases hs : s.index with
    | none => exact ⟨s.items, [], by simp, by simp [Rota.insertEnd, hs], rfl⟩
    | some y =>
        obtain ⟨pre, post, hitems, hpre⟩ := List.eq_append_cons_of_mem (h.walks y hs)
        refine ⟨pre, y :: post, hitems, ?_, rfl⟩
        simp only [Rota.insertEnd, hs, hitems, takeWhile_ne hpre, dropWhile_ne hpre]
  have hlinks := h.links
  rw [hitems] at hlinks hx
  exact ⟨pre, post, hitems, hinsert,
    vListInsertEnd_eq hindex hlinks.joint.2 (headD_ne hx) (getLastD_ne hx)⟩

theorem vListInsert_put (h : RingOf m l s) (hx : x ∉ xListEnd l :: s.items) {value : ℕ → ℕ}
    (hvalue : ∀ y ∈ x :: s.items, (m.item y).xItemValue = value y)
    (hmax : ∀ y ∈ x :: s.items, value y ≤ portMaxDelay) :
    ∃ m', vListInsert m l x = some m' ∧ PutAt m l x s (s.insert value x) m' := by
  set pre := s.items.takeWhile (value · ≤ value x) with hpre
  set post := s.items.dropWhile (value · ≤ value x) with hpost
  have hitems : s.items = pre ++ post := List.takeWhile_append_dropWhile.symm
  have hlinks := h.links
  have hplace : (if value x = portMaxDelay then some (m.item (xListEnd l)).pxPrevious
      else insertAfter m.item (value x) ((m.list l).uxNumberOfItems + 1) (xListEnd l)) =
        some (pre.getLastD (xListEnd l)) := by
    split
    · next heq =>
        -- all values are as great as that of the end marker
        have hall : pre = s.items := by
          rw [hpre, List.takeWhile_eq_self_iff]
          intro y hy
          have hle := hmax y (List.mem_cons_of_mem _ hy)
          rw [← heq] at hle
          exact decide_eq_true hle
        rw [hlinks.previous, hall]
    · next hne =>
        have hlt : value x < portMaxDelay :=
          Nat.lt_of_le_of_ne (hmax x List.mem_cons_self) hne
        rw [hlinks.insertAfter_eq (by rwa [h.last]) (by rw [h.count]; exact Nat.lt_succ_self _)]
        have hsame : s.items.takeWhile (fun y => decide ((m.item y).xItemValue ≤ value x)) = pre := by
          apply takeWhile_congr
          intro y hy
          rw [hvalue y (List.mem_cons_of_mem _ hy)]
        rw [hsame]
  rw [hitems] at hlinks hx
  refine ⟨_, vListInsert_eq (hvalue x List.mem_cons_self) hplace hlinks.joint.1 (headD_ne hx)
    (getLastD_ne hx), pre, post, hitems, rfl, rfl⟩

end

/-! ### All lists -/

/-- Where the lists and the items are. -/
structure ListPlace where
  lists : List ℕ
  items : List ℕ
  nonzero : 0 ∉ lists
  apart : ∀ l ∈ lists, xListEnd l ∉ items

/-- What the lists are at some time, with the values and the owners of the items. -/
structure Rotas where
  rota : ℕ → Rota
  value : ℕ → ℕ
  owner : ℕ → ℕ

/-- The item is on no list. -/
def Rotas.Off (P : ListPlace) (k : Rotas) (x : ℕ) : Prop := ∀ l ∈ P.lists, x ∉ (k.rota l).items

instance (P : ListPlace) (k : Rotas) (x : ℕ) : Decidable (k.Off P x) :=
  inferInstanceAs (Decidable (∀ l ∈ P.lists, x ∉ (k.rota l).items))

def Rotas.set (k : Rotas) (l : ℕ) (s : Rota) : Rotas :=
  { k with rota := Function.update k.rota l s }

theorem Rotas.set_rota_self (k : Rotas) (l : ℕ) (s : Rota) : (k.set l s).rota l = s :=
  Function.update_self _ _ _

theorem Rotas.set_rota_of_ne (k : Rotas) {l l' : ℕ} (h : l' ≠ l) (s : Rota) :
    (k.set l s).rota l' = k.rota l' := Function.update_of_ne h _ _

structure ListRep (P : ListPlace) (m : ListMem) (k : Rotas) : Prop where
  ring : ∀ l ∈ P.lists, RingOf m l (k.rota l)
  on : ∀ l ∈ P.lists, ∀ x ∈ (k.rota l).items, x ∈ P.items ∧ (m.item x).pxContainer = l
  off : ∀ x ∈ P.items, k.Off P x → (m.item x).pxContainer = 0
  value : ∀ x ∈ P.items, (m.item x).xItemValue = k.value x
  owner : ∀ x ∈ P.items, (m.item x).pvOwner = k.owner x
  max : ∀ x ∈ P.items, k.value x ≤ portMaxDelay

section

variable {P : ListPlace} {m m' : ListMem} {k : Rotas} {l l' u x : ℕ} {s t : Rota}

theorem RingOf.congr (h : RingOf m l s) (hitem : ∀ u ∈ xListEnd l :: s.items, m'.item u = m.item u)
    (hlist : m'.list l = m.list l) : RingOf m' l s where
  links := by
    refine h.links.congr (fun u hu => by rw [hitem u hu]) fun u hu => ?_
    rw [hitem u]
    rcases List.mem_append.mp hu with hmem | hmem
    · exact List.mem_cons_of_mem _ hmem
    · exact List.mem_singleton.mp hmem ▸ List.mem_cons_self
  count := by rw [hlist, h.count]
  index := by rw [hlist, h.index]
  walks := h.walks
  nodup := h.nodup
  last := by rw [hitem _ List.mem_cons_self, h.last]

/-- An item off all lists is no part of any. -/
theorem ListRep.not_mem (P : ListPlace) (hl : l ∈ P.lists) (hx : x ∈ P.items) (hoff : k.Off P x) :
    x ∉ xListEnd l :: (k.rota l).items := by
  intro hmem
  rcases List.mem_cons.mp hmem with rfl | hmem
  · exact P.apart l hl hx
  · exact hoff l hl hmem

/-- Two lists share nothing. -/
theorem ListRep.disjoint (h : ListRep P m k) (hl : l ∈ P.lists) (hl' : l' ∈ P.lists) (hne : l' ≠ l)
    (hu : u ∈ xListEnd l :: (k.rota l).items) : u ∉ xListEnd l' :: (k.rota l').items := by
  intro hu'
  rcases List.mem_cons.mp hu with rfl | hu
  · rcases List.mem_cons.mp hu' with he | hu'
    · exact hne (Nat.add_right_cancel he).symm
    · exact P.apart l hl (h.on l' hl' _ hu').1
  · rcases List.mem_cons.mp hu' with rfl | hu'
    · exact P.apart l' hl' (h.on l hl _ hu).1
    · exact hne ((h.on l' hl' u hu').2.symm.trans (h.on l hl u hu).2)

theorem splice_of_ne {item : ℕ → ListItem} {a b : ℕ} (hx : u ≠ x) (ha : u ≠ a) (hb : u ≠ b)
    (l : ℕ) : splice item a x b l u = item u := by
  simp only [splice, if_neg hx, if_neg ha, if_neg hb]

theorem unsplice_of_ne {item : ℕ → ListItem} {a b : ℕ} (hx : u ≠ x) (ha : u ≠ a) (hb : u ≠ b) :
    unsplice item a x b u = item u := by
  simp only [unsplice, if_neg hx, if_neg ha, if_neg hb]

/-- A change of one list, of its items and of an item `x` that is on no other. -/
theorem ListRep.change (h : ListRep P m k) (hl : l ∈ P.lists) (hx : x ∈ P.items)
    (hother : ∀ l' ∈ P.lists, l' ≠ l → x ∉ (k.rota l').items) (hring : RingOf m' l t)
    (hitem : ∀ u, u ≠ x → u ∉ xListEnd l :: (k.rota l).items → m'.item u = m.item u)
    (hlist : ∀ l' ≠ l, m'.list l' = m.list l')
    (hsame : ∀ u, (m'.item u).xItemValue = (m.item u).xItemValue ∧
      (m'.item u).pvOwner = (m.item u).pvOwner)
    (hon : ∀ y ∈ t.items, y ∈ P.items ∧ (m'.item y).pxContainer = l)
    (hoff : ∀ y ∈ P.items, (k.set l t).Off P y → (m'.item y).pxContainer = 0) :
    ListRep P m' (k.set l t) := by
  have hfar : ∀ l' ∈ P.lists, l' ≠ l → ∀ u ∈ xListEnd l' :: (k.rota l').items,
      m'.item u = m.item u := by
    intro l' hl' hne u hu
    refine hitem u ?_ fun hmem => h.disjoint hl hl' hne hmem hu
    rintro rfl
    rcases List.mem_cons.mp hu with rfl | hmem
    · exact P.apart l' hl' hx
    · exact hother l' hl' hne hmem
  constructor
  · intro l' hl'
    by_cases hne : l' = l
    · subst hne
      rwa [Rotas.set_rota_self]
    · rw [Rotas.set_rota_of_ne k hne]
      exact (h.ring l' hl').congr (hfar l' hl' hne) (hlist l' hne)
  · intro l' hl' y hy
    by_cases hne : l' = l
    · subst hne
      rw [Rotas.set_rota_self] at hy
      exact hon y hy
    · rw [Rotas.set_rota_of_ne k hne] at hy
      rw [hfar l' hl' hne y (List.mem_cons_of_mem _ hy)]
      exact h.on l' hl' y hy
  · exact hoff
  · intro y hy
    rw [(hsame y).1]
    exact h.value y hy
  · intro y hy
    rw [(hsame y).2]
    exact h.owner y hy
  · exact h.max

/-- An item is put on a list. -/
theorem ListRep.put (h : ListRep P m k) (hl : l ∈ P.lists) (hx : x ∈ P.items) (hoff : k.Off P x)
    (hput : PutAt m l x (k.rota l) t m') : ListRep P m' (k.set l t) := by
  obtain ⟨pre, post, hitems, rfl, rfl⟩ := hput
  have hnot := ListRep.not_mem P hl hx hoff
  have hbefore : pre.getLastD (xListEnd l) ∈ xListEnd l :: (k.rota l).items := by
    rw [hitems]
    exact List.Sublist.cons_cons _ (List.sublist_append_left pre post) |>.subset
      List.getLastD_mem_cons
  have hbehind : post.headD (xListEnd l) ∈ xListEnd l :: (k.rota l).items := by
    rw [hitems]
    cases post with
    | nil => exact List.mem_cons_self
    | cons y ys => exact List.mem_cons_of_mem _ (List.mem_append_right _ List.mem_cons_self)
  refine h.change hl hx (fun l' hl' _ => hoff l' hl') ((h.ring l hl).put hitems hnot) ?_
    (fun l' hne => Function.update_of_ne hne _ _) (fun u => ⟨rfl, rfl⟩) ?_ ?_
  · intro u hux hu
    exact splice_of_ne hux (fun he => hu (he ▸ hbefore)) (fun he => hu (he ▸ hbehind)) l
  · intro y hy
    by_cases hyx : y = x
    · subst hyx
      exact ⟨hx, if_pos rfl⟩
    · have hold : y ∈ (k.rota l).items := by
        rw [hitems]
        rcases List.mem_append.mp hy with hmem | hmem
        · exact List.mem_append_left _ hmem
        · exact List.mem_append_right _ ((List.mem_cons.mp hmem).resolve_left hyx)
      obtain ⟨hyitem, hcontainer⟩ := h.on l hl y hold
      refine ⟨hyitem, ?_⟩
      show (if y = x then l else (m.item y).pxContainer) = l
      rw [if_neg hyx, hcontainer]
  · intro y hy hyoff
    have hthis := hyoff l hl
    rw [Rotas.set_rota_self] at hthis
    have hyx : y ≠ x := by
      rintro rfl
      exact hthis (List.mem_append_right _ List.mem_cons_self)
    show (if y = x then l else (m.item y).pxContainer) = 0
    rw [if_neg hyx]
    apply h.off y hy
    intro l' hl'
    by_cases hne : l' = l
    · subst hne
      rw [hitems]
      intro hmem
      apply hthis
      rcases List.mem_append.mp hmem with hmem | hmem
      · exact List.mem_append_left _ hmem
      · exact List.mem_append_right _ (List.mem_cons_of_mem _ hmem)
    · have hfar := hyoff l' hl'
      rwa [Rotas.set_rota_of_ne k hne] at hfar

/-- An item is taken off its list. -/
theorem ListRep.takeOff (h : ListRep P m k) (hl : l ∈ P.lists) (hx : x ∈ (k.rota l).items) :
    (uxListRemove m x).2 = ((k.rota l).remove x).items.length ∧
      ListRep P (uxListRemove m x).1 (k.set l ((k.rota l).remove x)) := by
  have hring := h.ring l hl
  obtain ⟨hxitem, hcontainer⟩ := h.on l hl x hx
  obtain ⟨pre, post, hitems, hpre⟩ := List.eq_append_cons_of_mem hx
  have hlinks := hring.links
  have hnodup := hring.nodup
  rw [hitems] at hlinks hnodup
  obtain ⟨hto, hfrom⟩ := dlinks_append.mp hlinks
  obtain ⟨hend, hnodup'⟩ := List.nodup_cons.mp hnodup
  have hxe : xListEnd l ≠ x := fun he => hend (he ▸ List.mem_append_right _ List.mem_cons_self)
  have hbehind : post.headD (xListEnd l) ≠ x :=
    (ne_headD (List.nodup_cons.mp (List.nodup_append.mp hnodup').2.1).1 hxe).symm
  have hbefore : pre.getLastD (xListEnd l) ≠ x := by
    intro he
    have hmem : pre.getLastD (xListEnd l) ∈ xListEnd l :: pre := List.getLastD_mem_cons
    rw [he] at hmem
    exact (List.mem_cons.mp hmem).elim (fun he => hxe he.symm) hpre
  rw [uxListRemove_eq hfrom.next hto.previous hcontainer hbehind hbefore]
  have herase : ∀ y, y ∈ ((k.rota l).remove x).items ↔ y ≠ x ∧ y ∈ (k.rota l).items := fun y =>
    (List.nodup_cons.mp hring.nodup).2.mem_erase_iff
  refine ⟨?_, ?_⟩
  · show (m.list l).uxNumberOfItems - 1 = ((k.rota l).items.erase x).length
    rw [hring.count, List.length_erase_of_mem hx]
  · refine h.change hl hxitem ?_ (hring.takeOut hitems) ?_
      (fun l' hne => Function.update_of_ne hne _ _) (fun u => ⟨rfl, rfl⟩) ?_ ?_
    · intro l' hl' hne hmem
      exact hne ((h.on l' hl' x hmem).2.symm.trans hcontainer)
    · intro u hux hu
      rw [hitems] at hu
      apply unsplice_of_ne hux
      · rintro rfl
        exact hu (List.Sublist.cons_cons _ (List.sublist_append_left pre _) |>.subset
          List.getLastD_mem_cons)
      · rintro rfl
        cases post with
        | nil => exact hu List.mem_cons_self
        | cons y ys =>
            exact hu (List.mem_cons_of_mem _ (List.mem_append_right _
              (List.mem_cons_of_mem _ List.mem_cons_self)))
    · intro y hy
      obtain ⟨hyx, hmem⟩ := (herase y).mp hy
      obtain ⟨hyitem, hyl⟩ := h.on l hl y hmem
      refine ⟨hyitem, ?_⟩
      show (if y = x then 0 else (m.item y).pxContainer) = l
      rw [if_neg hyx, hyl]
    · intro y hy hyoff
      show (if y = x then 0 else (m.item y).pxContainer) = 0
      by_cases hyx : y = x
      · exact if_pos hyx
      · rw [if_neg hyx]
        apply h.off y hy
        intro l' hl'
        have hthis := hyoff l' hl'
        by_cases hne : l' = l
        · subst hne
          rw [Rotas.set_rota_self] at hthis
          exact fun hmem => hthis ((herase y).mpr ⟨hyx, hmem⟩)
        · rwa [Rotas.set_rota_of_ne k hne] at hthis

theorem listGetOwnerOfNextEntry_eq (m : ListMem) (l : ℕ) {i j : ℕ}
    (hi : (m.item (m.list l).pxIndex).pxNext = i)
    (hj : j = if i = xListEnd l then (m.item i).pxNext else i) :
    listGetOwnerOfNextEntry m l =
      ({ m with list := Function.update m.list l { m.list l with pxIndex := j } },
        (m.item j).pvOwner) := by
  obtain rfl := hj
  by_cases he : i = xListEnd l
  · simp [listGetOwnerOfNextEntry, ListMem.setList, hi, he]
  · simp [listGetOwnerOfNextEntry, ListMem.setList, hi, he]

/-- The index goes on to the next item. -/
theorem RingOf.next (h : RingOf m l s) (hne : s.items ≠ []) :
    ∃ y ∈ s.items, s.next.index = some y ∧
      listGetOwnerOfNextEntry m l =
        ({ m with list := Function.update m.list l { m.list l with pxIndex := y } },
          (m.item y).pvOwner) := by
  obtain ⟨hend, hnodup⟩ := List.nodup_cons.mp h.nodup
  have hhead := h.links.next
  obtain ⟨z, zs, hitems⟩ := List.exists_cons_of_ne_nil hne
  rw [hitems] at hhead
  have hz : z ∈ s.items := hitems ▸ List.mem_cons_self
  have hzend : z ≠ xListEnd l := fun he => hend (he ▸ hz)
  cases hs : s.index with
  | none =>
      have hindex : (m.list l).pxIndex = xListEnd l := by rw [h.index, hs]; rfl
      refine ⟨z, hz, by simp [Rota.next, hs, hitems],
        listGetOwnerOfNextEntry_eq m l (i := z) (by rw [hindex, hhead]; rfl) ?_⟩
      rw [if_neg hzend]
  | some y =>
      have hindex : (m.list l).pxIndex = y := by rw [h.index, hs]; rfl
      obtain ⟨pre, post, hsplit, hpre⟩ := List.eq_append_cons_of_mem (h.walks y hs)
      have hlinks := h.links
      rw [hsplit] at hlinks
      have hnext := (dlinks_append.mp hlinks).2.next
      cases post with
      | nil =>
          refine ⟨z, hz, ?_, listGetOwnerOfNextEntry_eq m l (i := xListEnd l)
            (by rw [hindex, hnext]; rfl) ?_⟩
          · simp only [Rota.next, hs, hsplit, dropWhile_ne hpre]
            rw [← hsplit, hitems]
            rfl
          · rw [if_pos rfl, hhead]
            rfl
      | cons w ws =>
          have hw : w ∈ s.items := by rw [hsplit]; simp
          refine ⟨w, hw, ?_, listGetOwnerOfNextEntry_eq m l (i := w) (by rw [hindex, hnext]; rfl) ?_⟩
          · simp only [Rota.next, hs, hsplit, dropWhile_ne hpre]
            rfl
          · have hwend : w ≠ xListEnd l := fun he => hend (he ▸ hw)
            rw [if_neg hwend]

/-- Moving the index alone. -/
theorem RingOf.moveIndex (h : RingOf m l s) {y : ℕ} (hy : y ∈ s.items) :
    RingOf { m with list := Function.update m.list l { m.list l with pxIndex := y } } l
      { s with index := some y } where
  links := h.links
  count := (congrArg KernelList.uxNumberOfItems (Function.update_self l _ m.list)).trans h.count
  index := congrArg KernelList.pxIndex (Function.update_self l _ m.list)
  walks := fun _ hz => Option.some.inj hz ▸ hy
  nodup := h.nodup
  last := h.last

theorem ListRep.next (h : ListRep P m k) (hl : l ∈ P.lists) (hne : (k.rota l).items ≠ []) :
    some (listGetOwnerOfNextEntry m l).2 = (k.rota l).next.index.map k.owner ∧
      ListRep P (listGetOwnerOfNextEntry m l).1 (k.set l (k.rota l).next) := by
  have hring := h.ring l hl
  obtain ⟨y, hy, hnext, hcall⟩ := hring.next hne
  obtain ⟨hyitem, hyl⟩ := h.on l hl y hy
  have hrota : (k.rota l).next = { k.rota l with index := some y } := by
    rw [← hnext]
    rfl
  rw [hcall, hrota]
  refine ⟨?_, h.change hl hyitem ?_ (hring.moveIndex hy) (fun _ _ _ => rfl)
    (fun l' hne => Function.update_of_ne hne _ _) (fun u => ⟨rfl, rfl⟩) (h.on l hl) ?_⟩
  · rw [Option.map_some, h.owner y hyitem]
  · intro l' hl' hne hmem
    exact hne ((h.on l' hl' y hmem).2.symm.trans hyl)
  · intro z hz hzoff
    apply h.off z hz
    intro l' hl'
    have hthis := hzoff l' hl'
    by_cases hne : l' = l
    · subst hne
      rwa [Rotas.set_rota_self] at hthis
    · rwa [Rotas.set_rota_of_ne k hne] at hthis

end

/-! ### Runs of calls -/

inductive ListCall
  | insert (l x : ℕ)
  | insertEnd (l x : ℕ)
  | remove (x : ℕ)
  | setValue (x v : ℕ)
  | next (l : ℕ)
  | head (l : ℕ)
  | length (l : ℕ)
  | contained (l x : ℕ)

/-- A call, and what it returns. -/
def listCall (m : ListMem) : ListCall → Option (ListMem × ℕ)
  | .insert l x => (vListInsert m l x).map fun m => (m, 0)
  | .insertEnd l x => some (vListInsertEnd m l x, 0)
  | .remove x => some (uxListRemove m x)
  | .setValue x v => some (listSetListItemValue m x v, 0)
  | .next l => some (listGetOwnerOfNextEntry m l)
  | .head l => some (m, listGetOwnerOfHeadEntry m l)
  | .length l => some (m, (m.list l).uxNumberOfItems)
  | .contained l x => some (m, if (m.item x).pxContainer = l then 1 else 0)

/-- The meaning of a call, which is refused if the kernel has no cause for it: an item is
put on one list only and has its value set off the lists, and the next and the first item
are those of a list that has some. -/
def rotaCall (P : ListPlace) (k : Rotas) : ListCall → Option (Rotas × ℕ)
  | .insert l x =>
      if l ∈ P.lists ∧ x ∈ P.items ∧ k.Off P x then
        some (k.set l ((k.rota l).insert k.value x), 0)
      else none
  | .insertEnd l x =>
      if l ∈ P.lists ∧ x ∈ P.items ∧ k.Off P x then
        some (k.set l ((k.rota l).insertEnd x), 0)
      else none
  | .remove x =>
      (P.lists.find? fun l => x ∈ (k.rota l).items).map fun l =>
        (k.set l ((k.rota l).remove x), ((k.rota l).remove x).items.length)
  | .setValue x v =>
      if x ∈ P.items ∧ k.Off P x ∧ v ≤ portMaxDelay then
        some ({ k with value := Function.update k.value x v }, 0)
      else none
  | .next l =>
      if l ∈ P.lists ∧ (k.rota l).items ≠ [] then
        ((k.rota l).next.index.map k.owner).map fun o => (k.set l (k.rota l).next, o)
      else none
  | .head l =>
      if l ∈ P.lists then (k.rota l).items.head?.map fun x => (k, k.owner x) else none
  | .length l => if l ∈ P.lists then some (k, (k.rota l).items.length) else none
  | .contained l x =>
      if l ∈ P.lists ∧ x ∈ P.items then some (k, if x ∈ (k.rota l).items then 1 else 0) else none

section

variable {P : ListPlace} {m : ListMem} {k : Rotas} {l x : ℕ}

theorem ListRep.setValue (h : ListRep P m k) (hx : x ∈ P.items) (hoff : k.Off P x) {v : ℕ}
    (hv : v ≤ portMaxDelay) :
    ListRep P (listSetListItemValue m x v) { k with value := Function.update k.value x v } := by
  have hother : ∀ u, u ≠ x → (listSetListItemValue m x v).item u = m.item u := fun u hu =>
    Function.update_of_ne hu _ _
  have hself : (listSetListItemValue m x v).item x = { m.item x with xItemValue := v } :=
    Function.update_self _ _ _
  constructor
  · intro l hl
    refine (h.ring l hl).congr (fun u hu => hother u ?_) rfl
    rintro rfl
    exact ListRep.not_mem P hl hx hoff hu
  · intro l hl y hy
    rw [hother y fun he => hoff l hl (he ▸ hy)]
    exact h.on l hl y hy
  · intro y hy hyoff
    by_cases hyx : y = x
    · subst hyx
      rw [hself]
      exact h.off y hx hoff
    · rw [hother y hyx]
      exact h.off y hy hyoff
  · intro y hy
    by_cases hyx : y = x
    · subst hyx
      rw [hself]
      exact (Function.update_self _ v k.value).symm
    · rw [hother y hyx]
      exact (h.value y hy).trans (Function.update_of_ne hyx v k.value).symm
  · intro y hy
    by_cases hyx : y = x
    · subst hyx
      rw [hself]
      exact h.owner y hx
    · rw [hother y hyx]
      exact h.owner y hy
  · intro y hy
    by_cases hyx : y = x
    · subst hyx
      exact Nat.le_trans (Nat.le_of_eq (Function.update_self _ v k.value)) hv
    · exact Nat.le_trans (Nat.le_of_eq (Function.update_of_ne hyx v k.value)) (h.max y hy)

theorem ListRep.head (h : ListRep P m k) (hl : l ∈ P.lists) {xs : List ℕ}
    (hitems : (k.rota l).items = x :: xs) : listGetOwnerOfHeadEntry m l = k.owner x := by
  have hnext := (h.ring l hl).links.next
  have hx : x ∈ (k.rota l).items := hitems ▸ List.mem_cons_self
  rw [hitems] at hnext
  rw [listGetOwnerOfHeadEntry, hnext]
  exact h.owner x (h.on l hl x hx).1

/-- The container of an item says which list it is on. -/
theorem ListRep.contained (h : ListRep P m k) (hl : l ∈ P.lists) (hx : x ∈ P.items) :
    (m.item x).pxContainer = l ↔ x ∈ (k.rota l).items := by
  constructor
  · intro hcontainer
    by_contra hnot
    by_cases hoff : k.Off P x
    · rw [h.off x hx hoff] at hcontainer
      exact P.nonzero (hcontainer ▸ hl)
    · obtain ⟨l', hl', hmem⟩ : ∃ l' ∈ P.lists, x ∈ (k.rota l').items := by
        simpa [Rotas.Off] using hoff
      rw [(h.on l' hl' x hmem).2] at hcontainer
      exact hnot (hcontainer ▸ hmem)
  · intro hmem
    exact (h.on l hl x hmem).2

/-- Every call does to the memory what it means. -/
theorem ListRep.call (h : ListRep P m k) {c : ListCall} {r : Rotas × ℕ}
    (hc : rotaCall P k c = some r) : ∃ m', listCall m c = some (m', r.2) ∧ ListRep P m' r.1 := by
  cases c with
  | insert l x =>
      obtain ⟨⟨hl, hx, hoff⟩, rfl⟩ := of_guard hc
      have hall : ∀ y ∈ x :: (k.rota l).items, y ∈ P.items := by
        intro y hy
        rcases List.mem_cons.mp hy with rfl | hy
        · exact hx
        · exact (h.on l hl y hy).1
      obtain ⟨m', hm', hput⟩ := vListInsert_put (h.ring l hl) (ListRep.not_mem P hl hx hoff)
        (fun y hy => h.value y (hall y hy)) fun y hy => h.max y (hall y hy)
      refine ⟨m', ?_, h.put hl hx hoff hput⟩
      rw [listCall, hm', Option.map_some]
  | insertEnd l x =>
      obtain ⟨⟨hl, hx, hoff⟩, rfl⟩ := of_guard hc
      exact ⟨_, rfl, h.put hl hx hoff
        (vListInsertEnd_put (h.ring l hl) (ListRep.not_mem P hl hx hoff))⟩
  | remove x =>
      obtain ⟨l, hfind, rfl⟩ := Option.map_eq_some_iff.mp hc
      have hl := List.mem_of_find?_eq_some hfind
      have hx : x ∈ (k.rota l).items := by simpa using List.find?_some hfind
      obtain ⟨hcount, hrep⟩ := h.takeOff hl hx
      refine ⟨_, ?_, hrep⟩
      rw [listCall, ← hcount]
  | setValue x v =>
      obtain ⟨⟨hx, hoff, hv⟩, rfl⟩ := of_guard hc
      exact ⟨_, rfl, h.setValue hx hoff hv⟩
  | next l =>
      obtain ⟨⟨hl, hne⟩, hmap⟩ := Option.ite_none_right_eq_some.mp hc
      obtain ⟨o, ho, rfl⟩ := Option.map_eq_some_iff.mp hmap
      obtain ⟨howner, hrep⟩ := h.next hl hne
      refine ⟨_, ?_, hrep⟩
      rw [ho] at howner
      rw [listCall, ← Option.some.inj howner]
  | head l =>
      obtain ⟨hl, hmap⟩ := Option.ite_none_right_eq_some.mp hc
      obtain ⟨x, hx, rfl⟩ := Option.map_eq_some_iff.mp hmap
      obtain ⟨xs, hitems⟩ := List.head?_eq_some_iff.mp hx
      refine ⟨m, ?_, h⟩
      rw [listCall, h.head hl hitems]
  | length l =>
      obtain ⟨hl, rfl⟩ := of_guard hc
      refine ⟨m, ?_, h⟩
      rw [listCall, (h.ring l hl).count]
  | contained l x =>
      obtain ⟨⟨hl, hx⟩, rfl⟩ := of_guard hc
      refine ⟨m, ?_, h⟩
      rw [listCall]
      simp only [h.contained hl hx]

end

/-- The lists and the items as they are set up. -/
def listsInit (P : ListPlace) (m : ListMem) : ListMem :=
  P.items.foldl vListInitialiseItem (P.lists.foldl vListInitialise m)

/-- All lists empty. -/
def Rotas.empty (m : ListMem) : Rotas where
  rota := fun _ => ⟨[], none⟩
  value := fun x => (m.item x).xItemValue
  owner := fun x => (m.item x).pvOwner

theorem foldl_vListInitialise (ls : List ℕ) (m : ListMem) :
    (∀ l ∈ ls, (ls.foldl vListInitialise m).list l = ⟨0, xListEnd l⟩) ∧
      (∀ l ∈ ls, ((ls.foldl vListInitialise m).item (xListEnd l)).pxNext = xListEnd l ∧
        ((ls.foldl vListInitialise m).item (xListEnd l)).pxPrevious = xListEnd l ∧
        ((ls.foldl vListInitialise m).item (xListEnd l)).xItemValue = portMaxDelay) ∧
      ∀ u, (∀ l ∈ ls, u ≠ xListEnd l) → (ls.foldl vListInitialise m).item u = m.item u := by
  induction ls using List.reverseRecOn with
  | nil => exact ⟨fun _ h => (List.not_mem_nil h).elim, fun _ h => (List.not_mem_nil h).elim,
      fun _ _ => rfl⟩
  | append_singleton ls l ih =>
      obtain ⟨hlist, hend, hother⟩ := ih
      rw [List.foldl_append, List.foldl_cons, List.foldl_nil]
      set m' := ls.foldl vListInitialise m with hm'
      have hitem : ∀ u, u ≠ xListEnd l → (vListInitialise m' l).item u = m'.item u := fun u hu =>
        Function.update_of_ne hu _ _
      refine ⟨fun l' hl' => ?_, fun l' hl' => ?_, fun u hu => ?_⟩
      · by_cases hne : l' = l
        · subst hne
          exact Function.update_self _ _ _
        · have hmem : l' ∈ ls := (List.mem_append.mp hl').resolve_right (by simpa using hne)
          exact (Function.update_of_ne hne _ _).trans (hlist l' hmem)
      · by_cases hne : l' = l
        · subst hne
          have hself : (vListInitialise m' l').item (xListEnd l') = _ := Function.update_self _ _ _
          rw [hself]
          exact ⟨rfl, rfl, rfl⟩
        · have hmem : l' ∈ ls := (List.mem_append.mp hl').resolve_right (by simpa using hne)
          have hends : xListEnd l' ≠ xListEnd l := fun he => hne (Nat.add_right_cancel he)
          rw [hitem _ hends]
          exact hend l' hmem
      · rw [hitem u (hu l (by simp))]
        exact hother u fun l' hl' => hu l' (List.mem_append_left _ hl')

theorem foldl_vListInitialiseItem (xs : List ℕ) (m : ListMem) :
    (xs.foldl vListInitialiseItem m).list = m.list ∧
      ∀ u, (xs.foldl vListInitialiseItem m).item u =
        if u ∈ xs then { m.item u with pxContainer := 0 } else m.item u := by
  induction xs generalizing m with
  | nil => exact ⟨rfl, fun u => rfl⟩
  | cons x xs ih =>
      obtain ⟨hlist, hitem⟩ := ih (vListInitialiseItem m x)
      refine ⟨hlist, fun u => ?_⟩
      rw [List.foldl_cons, hitem]
      by_cases hux : u = x
      · subst hux
        simp [vListInitialiseItem, ListMem.setItem]
      · simp [vListInitialiseItem, ListMem.setItem, hux]

theorem listRep_init (P : ListPlace) (m : ListMem)
    (hmax : ∀ x ∈ P.items, (m.item x).xItemValue ≤ portMaxDelay) :
    ListRep P (listsInit P m) (Rotas.empty m) := by
  obtain ⟨hlist, hend, hother⟩ := foldl_vListInitialise P.lists m
  set m₁ := P.lists.foldl vListInitialise m with hm₁
  obtain ⟨hlists, hitems⟩ := foldl_vListInitialiseItem P.items m₁
  have hitem : ∀ x ∈ P.items,
      (listsInit P m).item x = { m.item x with pxContainer := 0 } := by
    intro x hx
    rw [listsInit, hitems, if_pos hx, hother x fun l hl he => P.apart l hl (he ▸ hx)]
  have hmark : ∀ l ∈ P.lists, (listsInit P m).item (xListEnd l) = m₁.item (xListEnd l) := by
    intro l hl
    rw [listsInit, hitems, if_neg (P.apart l hl)]
  constructor
  · intro l hl
    obtain ⟨hnext, hprev, hmaxDelay⟩ := hend l hl
    have hl' : (listsInit P m).list l = ⟨0, xListEnd l⟩ := by
      rw [listsInit, hlists]
      exact hlist l hl
    constructor
    · rw [← hmark l hl] at hnext hprev
      exact ⟨hnext, hprev⟩
    · rw [hl']
      rfl
    · rw [hl']
      rfl
    · exact fun y hy => (Option.some_ne_none y hy.symm).elim
    · exact List.nodup_singleton _
    · rw [hmark l hl, hmaxDelay]
  · exact fun l hl x hx => (List.not_mem_nil hx).elim
  · intro x hx hoff
    rw [hitem x hx]
  · intro x hx
    rw [hitem x hx]
    rfl
  · intro x hx
    rw [hitem x hx]
    rfl
  · exact hmax

/-- **The lists of the kernel are what they are meant to be**: from the lists as they are
set up, whatever items are put on them, taken off them and looked at, in any order that
the kernel has cause for, the calls come to an end and return what they mean. -/
theorem lists_are_rotas (P : ListPlace) (m : ListMem)
    (hmax : ∀ x ∈ P.items, (m.item x).xItemValue ≤ portMaxDelay) {calls : List ListCall}
    {r : Rotas × List ℕ} (h : transact (rotaCall P) (Rotas.empty m) calls = some r) :
    ∃ m', transact listCall (listsInit P m) calls = some (m', r.2) ∧ ListRep P m' r.1 :=
  transact_sim (fun _ _ _ _ hrep hc => hrep.call hc) (listRep_init P m hmax) h

end Lpc1768
