import Mathlib.Logic.Function.Basic
import Mathlib.Tactic.Common

/-!
# Systems of steps, their runs and their invariants

A system is a start state and what each step does to a state; a step that is not possible there
gives `none`. The steps are chosen from outside, so a property of every reachable state holds for
every interleaving.

* `Sys.Reach`: the states that a run reaches; `Sys.run`: the run of a list of steps.
* `Sys.only C`: the system with only those steps that meet `C` in the state before them.
* `Sys.Reach.inv`: what holds at the start and is kept by every step holds in every state reached.
* `Sys.Reach.sim`: the same for a relation to a second system that can follow each step.
* `Sys.run_inv`: the same for a run; `Sys.Reach.of_runs`: a system each of whose steps is a run of
  another one reaches no more than that.
* `Sys.run_only_iff`, `Sys.run_only_iff_of_inv`: what a run keeps exactly when all its steps meet `C`.
* `Sys.run_length_le`, `Sys.run_length_le_of_inv`: a run whose steps each lower a measure is no longer
  than the measure.
-/

namespace CmakeFrame
namespace Lib

/-- A system with states `σ` and steps `α`. -/
structure Sys (σ α : Type) where
  init : σ
  next : σ → α → Option σ

namespace Sys

variable {σ α τ β : Type} {S : Sys σ α}

/-- The states that a run reaches. -/
inductive Reach (S : Sys σ α) : σ → Prop
  | init : Reach S S.init
  | step {s s' : σ} {a : α} : Reach S s → S.next s a = some s' → Reach S s'

theorem Reach.inv {I : σ → Prop} (h0 : I S.init)
    (hstep : ∀ s a s', I s → S.next s a = some s' → I s') {s : σ} (h : S.Reach s) : I s := by
  induction h with
  | init => exact h0
  | step _ hs ih => exact hstep _ _ _ ih hs

/-- The system with only those steps that meet `C`. -/
def only (S : Sys σ α) (C : σ → α → Prop) [∀ s a, Decidable (C s a)] : Sys σ α where
  init := S.init
  next s a := if C s a then S.next s a else none

theorem next_of_only {C : σ → α → Prop} [∀ s a, Decidable (C s a)] {s s' : σ} {a : α}
    (h : (S.only C).next s a = some s') : C s a ∧ S.next s a = some s' := by
  simp only [only] at h
  split at h
  · rename_i hc
    exact ⟨hc, h⟩
  · cases h

/-- An invariant of the steps that meet `C`. -/
theorem Reach.inv_only {C : σ → α → Prop} [∀ s a, Decidable (C s a)] {I : σ → Prop} (h0 : I S.init)
    (hstep : ∀ s a s', I s → C s a → S.next s a = some s' → I s') {s : σ}
    (h : (S.only C).Reach s) : I s := by
  refine Reach.inv (S := S.only C) h0 (fun s a s' hi hs => ?_) h
  obtain ⟨hc, hs⟩ := next_of_only hs
  exact hstep s a s' hi hc hs

/-- The state after the steps `as`. -/
def run (S : Sys σ α) : σ → List α → Option σ
  | s, [] => some s
  | s, a :: as => (S.next s a).bind fun s' => S.run s' as

theorem Reach.run {s s' : σ} (h : S.Reach s) (as : List α) (hr : S.run s as = some s') :
    S.Reach s' := by
  induction as generalizing s with
  | nil =>
    cases hr
    exact h
  | cons a as ih =>
    obtain ⟨s₁, h1, h2⟩ := Option.bind_eq_some_iff.mp hr
    exact ih (h.step h1) h2

/-- What every step keeps, a run keeps. -/
theorem run_inv {I : σ → Prop} (hstep : ∀ s a s', I s → S.next s a = some s' → I s') {s s' : σ}
    (hs : I s) (as : List α) (hr : S.run s as = some s') : I s' := by
  induction as generalizing s with
  | nil =>
    cases hr
    exact hs
  | cons a as ih =>
    obtain ⟨s₁, h1, h2⟩ := Option.bind_eq_some_iff.mp hr
    exact ih (hstep s a s₁ hs h1) h2

/-- Each step is a run of the other system. -/
theorem Reach.of_runs {T : Sys σ β} (h0 : S.init = T.init)
    (hstep : ∀ s a s', S.next s a = some s' → ∃ bs, T.run s bs = some s') {s : σ}
    (h : S.Reach s) : T.Reach s := by
  induction h with
  | init =>
    rw [h0]
    exact Reach.init
  | step _ hs ih =>
    obtain ⟨bs, hr⟩ := hstep _ _ _ hs
    exact ih.run bs hr

/-- If in the states that meet the invariant `J` a step keeps `I` exactly when it meets `C`, then a run
keeps it exactly when all its steps do. -/
theorem run_only_iff_of_inv {C : σ → α → Prop} [∀ s a, Decidable (C s a)] {I J : σ → Prop}
    (hinv : ∀ s a s', J s → S.next s a = some s' → J s')
    (hstep : ∀ s a s', J s → S.next s a = some s' → (I s' ↔ C s a ∧ I s)) {s s' : σ} (hs : J s)
    (as : List α) (hr : S.run s as = some s') : I s' ↔ (S.only C).run s as = some s' ∧ I s := by
  induction as generalizing s with
  | nil =>
    cases hr
    simp [run]
  | cons a as ih =>
    obtain ⟨s₁, h1, h2⟩ := Option.bind_eq_some_iff.mp hr
    have hs₁ := hinv s a s₁ hs h1
    by_cases hc : C s a
    · have hnext : (S.only C).next s a = some s₁ := by simp only [only, if_pos hc, h1]
      rw [ih hs₁ h2, hstep s a s₁ hs h1, and_iff_right hc, run, hnext, Option.bind_some]
    · have hnext : (S.only C).next s a = none := by simp only [only, if_neg hc]
      rw [ih hs₁ h2, hstep s a s₁ hs h1, run, hnext, Option.bind_none]
      simp [hc]

/-- If a step keeps `I` exactly when it meets `C`, then a run keeps it exactly when all its steps do. -/
theorem run_only_iff {C : σ → α → Prop} [∀ s a, Decidable (C s a)] {I : σ → Prop}
    (hstep : ∀ s a s', S.next s a = some s' → (I s' ↔ C s a ∧ I s)) {s s' : σ} (as : List α)
    (hr : S.run s as = some s') : I s' ↔ (S.only C).run s as = some s' ∧ I s :=
  run_only_iff_of_inv (J := fun _ => True) (fun _ _ _ _ _ => trivial)
    (fun s a s' _ h => hstep s a s' h) trivial as hr

/-- If in the states that meet the invariant `J` the steps of `P` each lower `μ`, they are at most `μ`
many. -/
theorem run_length_le_of_inv {P : α → Prop} {J : σ → Prop} {μ : σ → Nat}
    (hμ : ∀ s a s', P a → J s → S.next s a = some s' → J s' ∧ μ s' < μ s) {s s' : σ} (hs : J s)
    (as : List α) (hP : ∀ a ∈ as, P a) (hr : S.run s as = some s') : as.length + μ s' ≤ μ s := by
  induction as generalizing s with
  | nil =>
    cases hr
    simp
  | cons a as ih =>
    obtain ⟨s₁, h1, h2⟩ := Option.bind_eq_some_iff.mp hr
    obtain ⟨hs₁, hlt⟩ := hμ s a s₁ (hP a (by simp)) hs h1
    have hle := ih hs₁ (fun a' ha' => hP a' (List.mem_cons_of_mem a ha')) h2
    simp only [List.length_cons]
    omega

/-- Steps that each lower `μ` are at most `μ` many. -/
theorem run_length_le {P : α → Prop} {μ : σ → Nat}
    (hμ : ∀ s a s', P a → S.next s a = some s' → μ s' < μ s) {s s' : σ} (as : List α)
    (hP : ∀ a ∈ as, P a) (hr : S.run s as = some s') : as.length + μ s' ≤ μ s :=
  run_length_le_of_inv (J := fun _ => True) (fun s a s' ha _ h => ⟨trivial, hμ s a s' ha h⟩) trivial
    as hP hr

end Sys

end Lib
end CmakeFrame
