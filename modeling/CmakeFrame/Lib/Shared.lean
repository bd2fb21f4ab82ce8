import Mathlib.Data.Set.Card
import Mathlib.Tactic.Common

/-!
# Maps of shared pointers

An object lives as long as some entry of a map points to it.

* `refs m v`: how many entries of `m` point to `v`.
* `refs_pos`: there is one; `refs_update`: an entry is written.
-/

namespace CmakeFrame
namespace Lib

variable {κ ν : Type}

/-- How many entries of `m` point to `v`. -/
noncomputable def refs (m : κ → Option ν) (v : ν) : Nat := Set.ncard {p | m p = some v}

@[simp]
theorem refs_none (v : ν) : refs (fun _ : κ => none) v = 0 := by
  have hempty : {p : κ | (none : Option ν) = some v} = ∅ := by ext p; simp
  rw [refs, hempty, Set.ncard_empty]

theorem refs_pos [Finite κ] {m : κ → Option ν} {v : ν} : 0 < refs m v ↔ ∃ p, m p = some v :=
  Set.ncard_pos

/-- The entry of `p` is written: the one that it had is gone. -/
theorem refs_update [Finite κ] [DecidableEq κ] [DecidableEq ν] (m : κ → Option ν) (p : κ)
    (w v : ν) :
    refs (Function.update m p (some w)) v + (if m p = some v then 1 else 0) =
      refs m v + if v = w then 1 else 0 := by
  -- `p` apart, both maps have the same entries for `v`
  have hsplit : ∀ m' : κ → Option ν, refs m' v =
      Set.ncard ({q | m' q = some v} \ {p}) + if m' p = some v then 1 else 0 := by
    intro m'
    by_cases hp : m' p = some v
    · have hmem : p ∈ {q | m' q = some v} := hp
      rw [if_pos hp, Set.ncard_sdiff_singleton_add_one hmem, refs]
    · have hnot : p ∉ {q | m' q = some v} := hp
      rw [if_neg hp, Set.sdiff_singleton_eq_self hnot, refs, Nat.add_zero]
  have hsame : {q | Function.update m p (some w) q = some v} \ {p} = {q | m q = some v} \ {p} := by
    ext q
    by_cases hq : q = p
    · simp [hq]
    · simp [hq]
  have hself : (if Function.update m p (some w) p = some v then 1 else 0) =
      if v = w then 1 else 0 := by
    simp [eq_comm]
  rw [hsplit m, hsplit (Function.update m p (some w)), hsame, hself]
  omega

end Lib
end CmakeFrame
