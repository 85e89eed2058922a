/-
Lpc1768/Spans.lean

Sets of addresses as lists of spans, in order and with a gap between any two.
`insertSpan` puts a span into such a list and joins it with the neighbours that it
touches, so that the gaps stay (`Separated.insertSpan`); what the list covers and
how much it is altogether just grow by the span (`mem_cells_insertSpan`,
`total_insertSpan`).

A list with gaps that is as long altogether as the range it lies in is one span
(`Separated.eq_whole`).
-/
import Mathlib.Algebra.Order.Group.Nat
import Mathlib.Data.List.Pairwise
import Mathlib.Order.Interval.Set.Basic
import Mathlib.Tactic.Common

namespace Lpc1768

/-- The addresses from `start` on, `size` of them. -/
structure Span where
  start : ℕ
  size : ℕ
  deriving DecidableEq, Repr

/-- The address behind a span. -/
def Span.stop (b : Span) : ℕ := b.start + b.size

/-- The addresses of a list of spans. -/
def cells (bs : List Span) : Set ℕ := {a | ∃ b ∈ bs, a ∈ Set.Ico b.start b.stop}

/-- How many they are, if no two spans meet. -/
def total : List Span → ℕ
  | [] => 0
  | b :: bs => b.size + total bs

/-- Spans in order, none of them empty, with a gap between any two. -/
structure Separated (bs : List Span) : Prop where
  pos : ∀ b ∈ bs, 0 < b.size
  gaps : bs.Pairwise fun b c => b.stop < c.start

/-- Spans between two addresses. -/
def Within (lo hi : ℕ) (bs : List Span) : Prop := ∀ b ∈ bs, lo ≤ b.start ∧ b.stop ≤ hi

/-- Two spans without a common address. -/
def Span.Apart (b c : Span) : Prop := b.stop ≤ c.start ∨ c.stop ≤ b.start

theorem Span.Apart.symm {b c : Span} (h : b.Apart c) : c.Apart b := Or.symm h

theorem Span.Apart.start_ne {b c : Span} (h : b.Apart c) (hb : 0 < b.size) (hc : 0 < c.size) :
    b.start ≠ c.start := by
  simp only [Span.Apart, Span.stop] at h
  omega

theorem Span.Apart.not_mem {a : ℕ} {b c : Span} (h : b.Apart c) (ha : b.start ≤ a ∧ a < b.stop) :
    ¬ (c.start ≤ a ∧ a < c.stop) := by
  rw [Span.Apart] at h
  omega

/-- A span is apart from those that cover none of its addresses. -/
theorem Span.apart_of_cells {b : Span} {bs : List Span} (hb : 0 < b.size)
    (hpos : ∀ c ∈ bs, 0 < c.size) (h : ∀ a, b.start ≤ a ∧ a < b.stop → a ∉ cells bs) :
    ∀ c ∈ bs, b.Apart c := by
  intro c hc
  have hcpos := hpos c hc
  -- the addresses where the two would meet first
  have h1 : ¬ (b.start ≤ c.start ∧ c.start < b.stop) := fun hin =>
    h c.start hin ⟨c, hc, Nat.le_refl _, Nat.lt_add_of_pos_right hcpos⟩
  have h2 : ¬ (c.start ≤ b.start ∧ b.start < c.stop) := fun hin =>
    h b.start ⟨Nat.le_refl _, Nat.lt_add_of_pos_right hb⟩ ⟨c, hc, hin⟩
  simp only [Span.Apart, Span.stop] at h1 h2 ⊢
  omega

/-! ### Inserting a span -/

/-- In front of `bs`, and joined with the first of them if it touches it. -/
def joinFront (b : Span) : List Span → List Span
  | [] => [b]
  | c :: cs => if b.stop = c.start then ⟨b.start, b.size + c.size⟩ :: cs else b :: c :: cs

/-- At its place in `bs`, and joined with the neighbours that it touches. -/
def insertSpan (b : Span) : List Span → List Span
  | [] => [b]
  | c :: cs =>
      if b.start ≤ c.start then joinFront b (c :: cs)
      else if c.stop = b.start then joinFront ⟨c.start, c.size + b.size⟩ cs
      else c :: insertSpan b cs

@[simp] theorem total_nil : total [] = 0 := rfl

@[simp] theorem total_cons (b : Span) (bs : List Span) : total (b :: bs) = b.size + total bs :=
  rfl

@[simp] theorem total_append (bs cs : List Span) : total (bs ++ cs) = total bs + total cs := by
  induction bs with
  | nil => rw [List.nil_append, total_nil, Nat.zero_add]
  | cons b bs ih => rw [List.cons_append, total_cons, total_cons, ih, Nat.add_assoc]

theorem total_perm {bs cs : List Span} (h : bs.Perm cs) : total bs = total cs := by
  induction h with
  | nil => rfl
  | cons b _ ih => rw [total_cons, total_cons, ih]
  | swap b c bs =>
      simp only [total_cons]
      omega
  | trans _ _ ih₁ ih₂ => exact ih₁.trans ih₂

theorem size_le_total {b : Span} {bs : List Span} (hb : b ∈ bs) : b.size ≤ total bs := by
  obtain ⟨cs, ds, rfl⟩ := List.append_of_mem hb
  rw [total_append, total_cons]
  omega

theorem mem_cells_cons {a : ℕ} {b : Span} {bs : List Span} :
    a ∈ cells (b :: bs) ↔ (b.start ≤ a ∧ a < b.stop) ∨ a ∈ cells bs := by
  constructor
  · rintro ⟨c, hc, ha⟩
    rcases List.mem_cons.mp hc with rfl | hc
    · exact .inl ha
    · exact .inr ⟨c, hc, ha⟩
  · rintro (ha | ⟨c, hc, ha⟩)
    · exact ⟨b, List.mem_cons_self, ha⟩
    · exact ⟨c, List.mem_cons_of_mem _ hc, ha⟩

theorem total_joinFront (b : Span) (bs : List Span) :
    total (joinFront b bs) = b.size + total bs := by
  cases bs with
  | nil => rfl
  | cons c cs =>
      rw [joinFront]
      split
      · rw [total_cons, total_cons, Nat.add_assoc]
      · rfl

theorem total_insertSpan (b : Span) (bs : List Span) :
    total (insertSpan b bs) = b.size + total bs := by
  induction bs with
  | nil => rfl
  | cons c cs ih =>
      rw [insertSpan]
      split
      · exact total_joinFront b _
      · split
        · rw [total_joinFront, total_cons]
          show c.size + b.size + total cs = b.size + (c.size + total cs)
          omega
        · rw [total_cons, ih, total_cons]
          omega

theorem mem_cells_joinFront {a : ℕ} {b : Span} {bs : List Span} :
    a ∈ cells (joinFront b bs) ↔ (b.start ≤ a ∧ a < b.stop) ∨ a ∈ cells bs := by
  cases bs with
  | nil => exact mem_cells_cons
  | cons c cs =>
      rw [joinFront]
      split
      · next htouch =>
        rw [mem_cells_cons, mem_cells_cons, ← or_assoc]
        refine or_congr_left ?_
        simp only [Span.stop] at htouch ⊢
        omega
      · exact mem_cells_cons

/-- **The span is added to what is covered.** -/
theorem mem_cells_insertSpan {a : ℕ} {b : Span} {bs : List Span} :
    a ∈ cells (insertSpan b bs) ↔ (b.start ≤ a ∧ a < b.stop) ∨ a ∈ cells bs := by
  induction bs with
  | nil => exact mem_cells_cons
  | cons c cs ih =>
      rw [insertSpan]
      split
      · exact mem_cells_joinFront
      · split
        · next htouch =>
          rw [mem_cells_joinFront, mem_cells_cons, ← or_assoc]
          refine or_congr_left ?_
          simp only [Span.stop] at htouch ⊢
          omega
        · rw [mem_cells_cons, ih, mem_cells_cons]
          exact or_left_comm

/-- The ends of the spans are ends of those there were. -/
theorem mem_joinFront_ends {d b : Span} {bs : List Span} (h : d ∈ joinFront b bs) :
    (d.start = b.start ∨ ∃ c ∈ bs, d.start = c.start) ∧
      (d.stop = b.stop ∨ ∃ c ∈ bs, d.stop = c.stop) := by
  cases bs with
  | nil =>
      obtain rfl := List.mem_singleton.mp h
      exact ⟨.inl rfl, .inl rfl⟩
  | cons c cs =>
      rw [joinFront] at h
      split at h
      · next htouch =>
        rcases List.mem_cons.mp h with rfl | hd
        · refine ⟨.inl rfl, .inr ⟨c, List.mem_cons_self, ?_⟩⟩
          simp only [Span.stop] at htouch ⊢
          omega
        · exact ⟨.inr ⟨d, List.mem_cons_of_mem _ hd, rfl⟩, .inr ⟨d, List.mem_cons_of_mem _ hd, rfl⟩⟩
      · rcases List.mem_cons.mp h with rfl | hd
        · exact ⟨.inl rfl, .inl rfl⟩
        · exact ⟨.inr ⟨d, hd, rfl⟩, .inr ⟨d, hd, rfl⟩⟩

theorem mem_insertSpan_ends {d b : Span} {bs : List Span} (h : d ∈ insertSpan b bs) :
    (d.start = b.start ∨ ∃ c ∈ bs, d.start = c.start) ∧
      (d.stop = b.stop ∨ ∃ c ∈ bs, d.stop = c.stop) := by
  induction bs with
  | nil => exact mem_joinFront_ends h
  | cons c cs ih =>
      rw [insertSpan] at h
      split at h
      · exact mem_joinFront_ends h
      · split at h
        · next htouch =>
          obtain ⟨hstart, hstop⟩ := mem_joinFront_ends h
          refine ⟨.inr ?_, ?_⟩
          · rcases hstart with he | ⟨e, he, hd⟩
            · exact ⟨c, List.mem_cons_self, he⟩
            · exact ⟨e, List.mem_cons_of_mem _ he, hd⟩
          · rcases hstop with he | ⟨e, he, hd⟩
            · left
              simp only [Span.stop] at htouch he ⊢
              omega
            · exact .inr ⟨e, List.mem_cons_of_mem _ he, hd⟩
        · rcases List.mem_cons.mp h with rfl | hd
          · exact ⟨.inr ⟨d, List.mem_cons_self, rfl⟩, .inr ⟨d, List.mem_cons_self, rfl⟩⟩
          · obtain ⟨hstart, hstop⟩ := ih hd
            refine ⟨hstart.imp_right ?_, hstop.imp_right ?_⟩
            · exact fun ⟨e, he, heq⟩ => ⟨e, List.mem_cons_of_mem _ he, heq⟩
            · exact fun ⟨e, he, heq⟩ => ⟨e, List.mem_cons_of_mem _ he, heq⟩

theorem Within.insertSpan {lo hi : ℕ} {b : Span} {bs : List Span} (h : Within lo hi bs)
    (hb : lo ≤ b.start ∧ b.stop ≤ hi) : Within lo hi (insertSpan b bs) := by
  intro d hd
  obtain ⟨hstart, hstop⟩ := mem_insertSpan_ends hd
  constructor
  · rcases hstart with he | ⟨c, hc, he⟩ <;> rw [he]
    · exact hb.1
    · exact (h c hc).1
  · rcases hstop with he | ⟨c, hc, he⟩ <;> rw [he]
    · exact hb.2
    · exact (h c hc).2

/-! ### The gaps -/

theorem Separated.tail {b : Span} {bs : List Span} (h : Separated (b :: bs)) : Separated bs where
  pos := fun c hc => h.pos c (List.mem_cons_of_mem _ hc)
  gaps := (List.pairwise_cons.mp h.gaps).2

theorem separated_cons {b : Span} {bs : List Span} (hb : 0 < b.size) (h : Separated bs)
    (hgap : ∀ c ∈ bs, b.stop < c.start) : Separated (b :: bs) where
  pos := List.forall_mem_cons.mpr ⟨hb, h.pos⟩
  gaps := List.pairwise_cons.mpr ⟨hgap, h.gaps⟩

/-- A span in front of the others is put before them or joined with the first. -/
theorem Separated.joinFront {b : Span} {bs : List Span} (h : Separated bs) (hb : 0 < b.size)
    (hle : ∀ c ∈ bs, b.stop ≤ c.start) : Separated (joinFront b bs) := by
  cases bs with
  | nil => exact separated_cons hb h fun c hc => (List.not_mem_nil hc).elim
  | cons c cs =>
      have hgap := (List.pairwise_cons.mp h.gaps).1
      have hcle := hle c List.mem_cons_self
      rw [Lpc1768.joinFront]
      split
      · next htouch =>
        refine separated_cons (Nat.lt_of_lt_of_le hb (Nat.le_add_right _ _)) h.tail fun d hd => ?_
        have hlt := hgap d hd
        simp only [Span.stop] at htouch hlt ⊢
        omega
      · next htouch =>
        refine separated_cons hb h fun d hd => ?_
        rcases List.mem_cons.mp hd with rfl | hd
        · omega
        · have hlt := hgap d hd
          simp only [Span.stop] at hlt hcle ⊢
          omega

/-- **Inserting keeps the gaps.** -/
theorem Separated.insertSpan {b : Span} {bs : List Span} (h : Separated bs) (hb : 0 < b.size)
    (hapart : ∀ c ∈ bs, b.Apart c) : Separated (insertSpan b bs) := by
  induction bs with
  | nil => exact separated_cons hb h fun c hc => (List.not_mem_nil hc).elim
  | cons c cs ih =>
      have hc := hapart c List.mem_cons_self
      have hpos := h.pos c List.mem_cons_self
      have hgap := (List.pairwise_cons.mp h.gaps).1
      rw [Span.Apart] at hc
      rw [Lpc1768.insertSpan]
      split
      · next hle =>
        refine h.joinFront hb fun d hd => ?_
        rcases List.mem_cons.mp hd with rfl | hd
        · simp only [Span.stop] at hc ⊢
          omega
        · have hlt := hgap d hd
          simp only [Span.stop] at hc hlt ⊢
          omega
      · next hlt =>
        -- `c` comes first, and what is behind it comes behind `b` too
        have hbehind : ∀ d ∈ cs, b.stop ≤ d.start ∨ d.stop ≤ b.start := fun d hd =>
          hapart d (List.mem_cons_of_mem _ hd)
        split
        · next htouch =>
          refine h.tail.joinFront (Nat.lt_of_lt_of_le hpos (Nat.le_add_right _ _)) fun d hd => ?_
          have hlt := hgap d hd
          have hd := hbehind d hd
          simp only [Span.stop] at htouch hlt hd ⊢
          omega
        · next htouch =>
          refine separated_cons hpos (ih h.tail fun d hd => hapart d (List.mem_cons_of_mem _ hd))
            fun d hd => ?_
          rcases (mem_insertSpan_ends hd).1 with he | ⟨e, he, heq⟩
          · rw [he]
            simp only [Span.stop] at hc htouch ⊢
            omega
          · rw [heq]
            exact hgap e he

/-- Behind spans that it does not touch, a span is inserted into the rest. -/
theorem insertSpan_append {b : Span} {bs cs : List Span} (hbs : ∀ c ∈ bs, c.stop < b.start) :
    insertSpan b (bs ++ cs) = bs ++ insertSpan b cs := by
  induction bs with
  | nil => rfl
  | cons c bs ih =>
      have hc := hbs c List.mem_cons_self
      have hlt : ¬ b.start ≤ c.start :=
        Nat.not_le.mpr (Nat.lt_of_le_of_lt (Nat.le_add_right _ _) hc)
      rw [List.cons_append, insertSpan, if_neg hlt, if_neg (Nat.ne_of_lt hc),
        ih fun d hd => hbs d (List.mem_cons_of_mem _ hd)]
      rfl

/-- In front of the others the span is joined with the first at most. -/
theorem insertSpan_front {b : Span} {cs : List Span} (hcs : ∀ c ∈ cs, b.start ≤ c.start) :
    insertSpan b cs = joinFront b cs := by
  cases cs with
  | nil => rfl
  | cons c cs => rw [insertSpan, if_pos (hcs c List.mem_cons_self)]

/-- The spans before a span, and those behind it. -/
theorem Separated.split {b : Span} {bs : List Span} (h : Separated bs)
    (hapart : ∀ c ∈ bs, b.Apart c) :
    ∃ pre post, bs = pre ++ post ∧ (∀ c ∈ pre, c.stop ≤ b.start) ∧
      ∀ c ∈ post, b.stop ≤ c.start := by
  induction bs with
  | nil =>
      exact ⟨[], [], rfl, fun c hc => (List.not_mem_nil hc).elim,
        fun c hc => (List.not_mem_nil hc).elim⟩
  | cons c cs ih =>
      have hgap := (List.pairwise_cons.mp h.gaps).1
      rcases hapart c List.mem_cons_self with hc | hc
      · refine ⟨[], c :: cs, rfl, fun d hd => (List.not_mem_nil hd).elim, fun d hd => ?_⟩
        rcases List.mem_cons.mp hd with rfl | hd
        · exact hc
        · have hlt := hgap d hd
          rw [Span.stop] at hlt
          omega
      · obtain ⟨pre, post, rfl, hpre, hpost⟩ :=
          ih h.tail fun d hd => hapart d (List.mem_cons_of_mem _ hd)
        exact ⟨c :: pre, post, rfl, List.forall_mem_cons.mpr ⟨hc, hpre⟩, hpost⟩

/-! ### The whole range -/

/-- There is room for the gaps. -/
theorem Separated.total_add_length_le {lo hi : ℕ} {bs : List Span} (h : Separated bs)
    (hin : Within lo hi bs) (hlo : lo ≤ hi + 1) : total bs + bs.length ≤ hi + 1 - lo := by
  induction bs generalizing lo with
  | nil => exact Nat.zero_le _
  | cons b bs ih =>
      have hb := hin b List.mem_cons_self
      have hgap := (List.pairwise_cons.mp h.gaps).1
      have hin' : Within (b.stop + 1) hi bs := fun c hc =>
        ⟨hgap c hc, (hin c (List.mem_cons_of_mem _ hc)).2⟩
      have hrest := ih h.tail hin' (by omega)
      rw [total_cons, List.length_cons]
      simp only [Span.stop] at hb hrest
      omega

/-- **Spans that fill the range are one span.** -/
theorem Separated.eq_whole {lo hi : ℕ} {bs : List Span} (h : Separated bs)
    (hin : Within lo hi bs) (hlt : lo < hi) (htotal : total bs = hi - lo) :
    bs = [⟨lo, hi - lo⟩] := by
  have hle := h.total_add_length_le hin (by omega)
  rcases bs with - | ⟨⟨start, size⟩, - | ⟨c, cs⟩⟩
  · rw [total_nil] at htotal
    omega
  · have hb := hin ⟨start, size⟩ List.mem_cons_self
    rw [total_cons, total_nil, Nat.add_zero] at htotal
    simp only [Span.stop] at htotal hb
    obtain rfl : start = lo := by omega
    rw [htotal]
  · rw [htotal, List.length_cons, List.length_cons] at hle
    omega

/-- A stretch that is covered lies in one span. -/
theorem Separated.contains {bs : List Span} (h : Separated bs) {a n : ℕ} (hn : 0 < n)
    (hall : ∀ x, a ≤ x → x < a + n → x ∈ cells bs) :
    ∃ b ∈ bs, b.start ≤ a ∧ a + n ≤ b.stop := by
  induction n with
  | zero => exact absurd hn (Nat.lt_irrefl 0)
  | succ n ih =>
      obtain ⟨c, hc, hlo, hhi⟩ := hall (a + n) (Nat.le_add_right _ _) (Nat.lt_succ_self _)
      rcases Nat.eq_zero_or_pos n with rfl | hn
      · exact ⟨c, hc, hlo, hhi⟩
      · obtain ⟨b, hb, hbstart, hbstop⟩ := ih hn fun x hx hlt => hall x hx (Nat.lt_succ_of_lt hlt)
        by_cases heq : b = c
        · subst heq
          exact ⟨b, hb, hbstart, hhi⟩
        · -- there is no gap at `a + n`
          have hsymm : Std.Symm fun b c : Span => b.stop < c.start ∨ c.stop < b.start :=
            ⟨fun _ _ => Or.symm⟩
          have hpair : bs.Pairwise fun b c => b.stop < c.start ∨ c.stop < b.start :=
            h.gaps.imp Or.inl
          have hgap := hpair.forall hb hc heq
          omega

/-! ### Sharing a range out -/

/-- The free and the used spans share out the range, at multiples of `g`; the free
ones are joined wherever they touch. -/
structure Shares (g lo hi : ℕ) (free used : List Span) : Prop where
  separated : Separated free
  pos : ∀ b ∈ used, 0 < b.size
  apart : used.Pairwise Span.Apart
  freeApart : ∀ b ∈ used, ∀ c ∈ free, b.Apart c
  within : Within lo hi (free ++ used)
  grid : ∀ b ∈ free ++ used, g ∣ b.start ∧ g ∣ b.stop
  covers : ∀ a, lo ≤ a → a < hi → a ∈ cells free ∨ a ∈ cells used
  sizes : total free + total used = hi - lo

namespace Shares

variable {g lo hi : ℕ} {free used used' pre post : List Span} {b : Span}

theorem whole (hlt : lo < hi) (hlo : g ∣ lo) (hhi : g ∣ hi) :
    Shares g lo hi [⟨lo, hi - lo⟩] [] := by
  have hstop : lo + (hi - lo) = hi := Nat.add_sub_cancel' (Nat.le_of_lt hlt)
  refine
    { separated := separated_cons (Nat.sub_pos_of_lt hlt)
        ⟨fun c hc => (List.not_mem_nil hc).elim, .nil⟩ fun c hc => (List.not_mem_nil hc).elim
      pos := fun c hc => (List.not_mem_nil hc).elim
      apart := .nil
      freeApart := fun c hc => (List.not_mem_nil hc).elim
      within := fun c hc => ?_
      grid := fun c hc => ?_
      covers := fun a hlo hhi =>
        .inl (mem_cells_cons.mpr (.inl ⟨hlo, Nat.lt_of_lt_of_eq hhi hstop.symm⟩))
      sizes := rfl }
  · obtain rfl := List.mem_singleton.mp hc
    exact ⟨Nat.le_refl _, Nat.le_of_eq hstop⟩
  · obtain rfl := List.mem_singleton.mp hc
    exact ⟨hlo, by rw [Span.stop, hstop]; exact hhi⟩

/-- The order of the used spans does not matter. -/
theorem perm (h : Shares g lo hi free used) (hp : used.Perm used') :
    Shares g lo hi free used' where
  separated := h.separated
  pos := fun c hc => h.pos c (hp.mem_iff.mpr hc)
  apart := h.apart.perm hp fun hc => hc.symm
  freeApart := fun c hc => h.freeApart c (hp.mem_iff.mpr hc)
  within := fun c hc => h.within c ((hp.append_left free).mem_iff.mpr hc)
  grid := fun c hc => h.grid c ((hp.append_left free).mem_iff.mpr hc)
  covers := fun a hlo hhi => (h.covers a hlo hhi).imp_right fun ⟨c, hc, ha⟩ =>
    ⟨c, hp.mem_iff.mp hc, ha⟩
  sizes := by
    rw [← total_perm hp]
    exact h.sizes

theorem usedWithin (h : Shares g lo hi free used) (hb : b ∈ used) : lo ≤ b.start ∧ b.stop ≤ hi :=
  h.within b (List.mem_append_right _ hb)

theorem ne_free (h : Shares g lo hi free used) {c : Span} (hb : b ∈ used) (hc : c ∈ free) :
    b.start ≠ c.start :=
  (h.freeApart b hb c hc).start_ne (h.pos b hb) (h.separated.pos c hc)

theorem ne_used (h : Shares g lo hi free (b :: used)) {c : Span} (hc : c ∈ used) :
    c.start ≠ b.start :=
  ((List.pairwise_cons.mp h.apart).1 c hc).symm.start_ne
    (h.pos c (List.mem_cons_of_mem _ hc)) (h.pos b List.mem_cons_self)

/-- A used span is given back. -/
theorem giveBack (h : Shares g lo hi free (b :: used)) :
    Shares g lo hi (insertSpan b free) used := by
  have hb : b ∈ b :: used := List.mem_cons_self
  have hbf : b ∈ free ++ b :: used := List.mem_append_right _ hb
  have hsub : ∀ c ∈ used, c ∈ free ++ b :: used := fun c hc =>
    List.mem_append_right _ (List.mem_cons_of_mem _ hc)
  have hpos := h.pos b hb
  have hapart := h.freeApart b hb
  refine
    { separated := h.separated.insertSpan hpos hapart
      pos := fun c hc => h.pos c (List.mem_cons_of_mem _ hc)
      apart := (List.pairwise_cons.mp h.apart).2
      freeApart := fun c hc d hd => ?_
      within := fun c hc => ?_
      grid := fun c hc => ?_
      covers := fun a hlo hhi => ?_
      sizes := ?_ }
  · refine Span.apart_of_cells (h.pos c (List.mem_cons_of_mem _ hc))
      (h.separated.insertSpan hpos hapart).pos (fun a ha hcells => ?_) d hd
    rcases mem_cells_insertSpan.mp hcells with hin | ⟨e, he, hin⟩
    · exact ((List.pairwise_cons.mp h.apart).1 c hc).not_mem hin ha
    · exact (h.freeApart c (List.mem_cons_of_mem _ hc) e he).not_mem ha hin
  · rcases List.mem_append.mp hc with hc | hc
    · exact Within.insertSpan (fun d hd => h.within d (List.mem_append_left _ hd))
        (h.within b hbf) c hc
    · exact h.within c (hsub c hc)
  · rcases List.mem_append.mp hc with hc | hc
    · obtain ⟨hstart, hstop⟩ := mem_insertSpan_ends hc
      constructor
      · rcases hstart with heq | ⟨d, hd, heq⟩ <;> rw [heq]
        · exact (h.grid b hbf).1
        · exact (h.grid d (List.mem_append_left _ hd)).1
      · rcases hstop with heq | ⟨d, hd, heq⟩ <;> rw [heq]
        · exact (h.grid b hbf).2
        · exact (h.grid d (List.mem_append_left _ hd)).2
    · exact h.grid c (hsub c hc)
  · rw [mem_cells_insertSpan]
    rcases h.covers a hlo hhi with hf | hu
    · exact .inl (.inr hf)
    · exact (mem_cells_cons.mp hu).imp_left .inl
  · rw [total_insertSpan, ← h.sizes, total_cons]
    omega

/-- A free span is taken. -/
theorem take (h : Shares g lo hi (pre ++ b :: post) used) :
    Shares g lo hi (pre ++ post) (b :: used) := by
  have hb : b ∈ pre ++ b :: post := List.mem_append_right _ List.mem_cons_self
  have hp : (pre ++ b :: post ++ used).Perm (pre ++ post ++ b :: used) := by
    rw [List.append_assoc, List.append_assoc]
    exact (List.perm_append_left_iff pre).mpr List.perm_middle.symm
  have hsub : (pre ++ post).Sublist (pre ++ b :: post) :=
    List.Sublist.append_left (List.sublist_cons_self _ _) _
  obtain ⟨-, hright, hcross⟩ := List.pairwise_append.mp h.separated.gaps
  refine
    { separated := ⟨fun c hc => h.separated.pos c (hsub.subset hc),
        h.separated.gaps.sublist hsub⟩
      pos := List.forall_mem_cons.mpr ⟨h.separated.pos b hb, h.pos⟩
      apart := List.pairwise_cons.mpr ⟨fun c hc => (h.freeApart c hc b hb).symm, h.apart⟩
      freeApart := List.forall_mem_cons.mpr
        ⟨fun c hc => ?_, fun c hc d hd => h.freeApart c hc d (hsub.subset hd)⟩
      within := fun c hc => h.within c (hp.mem_iff.mpr hc)
      grid := fun c hc => h.grid c (hp.mem_iff.mpr hc)
      covers := fun a hlo hhi => ?_
      sizes := ?_ }
  · rcases List.mem_append.mp hc with hc | hc
    · exact .inr (Nat.le_of_lt (hcross c hc b List.mem_cons_self))
    · exact .inl (Nat.le_of_lt ((List.pairwise_cons.mp hright).1 c hc))
  · rw [mem_cells_cons]
    rcases h.covers a hlo hhi with ⟨c, hc, ha⟩ | hu
    · rcases List.mem_append.mp hc with hc | hc
      · exact .inl ⟨c, List.mem_append_left _ hc, ha⟩
      · rcases List.mem_cons.mp hc with rfl | hc
        · exact .inr (.inl ha)
        · exact .inl ⟨c, List.mem_append_right _ hc, ha⟩
    · exact .inr (.inr hu)
  · rw [← h.sizes, total_append, total_append, total_cons, total_cons]
    omega

/-- A used span is cut in two. -/
theorem cut {k : ℕ} (h : Shares g lo hi free (b :: used)) (hk : 0 < k) (hlt : k < b.size)
    (hgk : g ∣ k) :
    Shares g lo hi free (⟨b.start + k, b.size - k⟩ :: ⟨b.start, k⟩ :: used) := by
  have hb : b ∈ free ++ b :: used := List.mem_append_right _ List.mem_cons_self
  have hin := h.within b hb
  obtain ⟨hgstart, hgstop⟩ := h.grid b hb
  obtain ⟨hhead, htail⟩ := List.pairwise_cons.mp h.apart
  set front : Span := ⟨b.start, k⟩ with hfront
  set rest : Span := ⟨b.start + k, b.size - k⟩ with hrest
  have hstop : rest.stop = b.stop := by
    simp only [hrest, Span.stop]
    omega
  have hmid : front.stop = rest.start := rfl
  have hcut : rest.start ≤ b.stop := by
    simp only [hrest, Span.stop]
    omega
  -- what is apart from `b` is apart from both
  have hboth : ∀ c : Span, b.Apart c → front.Apart c ∧ rest.Apart c := by
    intro c hc
    have hstart : b.start ≤ rest.start := Nat.le_add_right _ _
    have hstart' : front.start = b.start := rfl
    simp only [Span.Apart, hstop, hmid, hstart'] at hc ⊢
    omega
  have hmem : ∀ c ∈ free ++ rest :: front :: used,
      c = rest ∨ c = front ∨ c ∈ free ++ b :: used := by
    intro c hc
    rcases List.mem_append.mp hc with hc | hc
    · exact .inr (.inr (List.mem_append_left _ hc))
    · rcases List.mem_cons.mp hc with rfl | hc
      · exact .inl rfl
      · rcases List.mem_cons.mp hc with rfl | hc
        · exact .inr (.inl rfl)
        · exact .inr (.inr (List.mem_append_right _ (List.mem_cons_of_mem _ hc)))
  refine
    { separated := h.separated
      pos := List.forall_mem_cons.mpr ⟨Nat.sub_pos_of_lt hlt, List.forall_mem_cons.mpr
        ⟨hk, fun c hc => h.pos c (List.mem_cons_of_mem _ hc)⟩⟩
      apart := List.pairwise_cons.mpr ⟨List.forall_mem_cons.mpr
        ⟨.inr (Nat.le_refl _), fun c hc => (hboth c (hhead c hc)).2⟩,
        List.pairwise_cons.mpr ⟨fun c hc => (hboth c (hhead c hc)).1, htail⟩⟩
      freeApart := ?_
      within := fun c hc => ?_
      grid := fun c hc => ?_
      covers := fun a hlo hhi => ?_
      sizes := ?_ }
  · have hfree := h.freeApart b List.mem_cons_self
    exact List.forall_mem_cons.mpr ⟨fun c hc => (hboth c (hfree c hc)).2, List.forall_mem_cons.mpr
      ⟨fun c hc => (hboth c (hfree c hc)).1, fun c hc => h.freeApart c (List.mem_cons_of_mem _ hc)⟩⟩
  · rcases hmem c hc with rfl | rfl | hc
    · exact ⟨Nat.le_trans hin.1 (Nat.le_add_right _ _), Nat.le_trans (Nat.le_of_eq hstop) hin.2⟩
    · exact ⟨hin.1, Nat.le_trans hcut hin.2⟩
    · exact h.within c hc
  · rcases hmem c hc with rfl | rfl | hc
    · exact ⟨Nat.dvd_add hgstart hgk, by rw [hstop]; exact hgstop⟩
    · exact ⟨hgstart, Nat.dvd_add hgstart hgk⟩
    · exact h.grid c hc
  · rcases h.covers a hlo hhi with hf | hu
    · exact .inl hf
    · right
      rw [mem_cells_cons, mem_cells_cons, hstop, hmid]
      rcases mem_cells_cons.mp hu with ha | hu
      · rcases Nat.lt_or_ge a rest.start with hlt' | hge
        · exact .inr (.inl ⟨ha.1, hlt'⟩)
        · exact .inl ⟨hge, ha.2⟩
      · exact .inr (.inr hu)
  · rw [← h.sizes, total_cons, total_cons, total_cons]
    simp only [hfront, hrest]
    omega

/-- **A stretch apart from the used spans lies in one free span.** -/
theorem fits {a n : ℕ} (h : Shares g lo hi free used) (hn : 0 < n) (hlo : lo ≤ a)
    (hhi : a + n ≤ hi) (hapart : ∀ b ∈ used, (⟨a, n⟩ : Span).Apart b) :
    ∃ b ∈ free, b.start ≤ a ∧ a + n ≤ b.stop := by
  refine h.separated.contains hn fun x hx hlt => ?_
  rcases h.covers x (Nat.le_trans hlo hx) (Nat.lt_of_lt_of_le hlt hhi) with hf | ⟨b, hb, hx'⟩
  · exact hf
  · exact absurd hx' ((hapart b hb).not_mem ⟨hx, hlt⟩)

/-- **Nothing used, all free in one span.** -/
theorem free_eq_whole (h : Shares g lo hi free []) (hlt : lo < hi) : free = [⟨lo, hi - lo⟩] :=
  h.separated.eq_whole (fun c hc => h.within c (List.mem_append_left _ hc)) hlt h.sizes

end Shares

end Lpc1768
