import Mathlib.Algebra.Group.Nat.Defs
import Mathlib.Data.List.Basic
import Mathlib.Tactic.Common

/-!
# Numbers packed of bit fields

* `packed`: values put one behind the other, each in the number of bits given for it.
* `packed_inj`: values that fit their fields are read back from the number, whatever stands before
  them.
-/

namespace CmakeFrame
namespace Lib

/-- The values of the fields `(w, v)` behind `j`, `v` in `w` bits. -/
def packed (j : Nat) : List (Nat × Nat) → Nat
  | [] => j
  | (w, v) :: fs => packed (j <<< w ||| v) fs

theorem shiftLeft_or_inj {j j' v v' w : Nat} (hv : v < 2 ^ w) (hv' : v' < 2 ^ w)
    (h : j <<< w ||| v = j' <<< w ||| v') : j = j' ∧ v = v' := by
  rw [← Nat.shiftLeft_add_eq_or_of_lt hv, ← Nat.shiftLeft_add_eq_or_of_lt hv', Nat.shiftLeft_eq,
    Nat.shiftLeft_eq] at h
  have hlow : v = v' := by
    have := congrArg (· % 2 ^ w) h
    simpa [Nat.mul_add_mod_self_right, Nat.mod_eq_of_lt hv, Nat.mod_eq_of_lt hv'] using this
  subst hlow
  exact ⟨Nat.eq_of_mul_eq_mul_right (Nat.two_pow_pos w) (Nat.add_right_cancel h), rfl⟩

/-- Fields of the same widths that give the same number are the same. -/
theorem packed_inj {fs fs' : List (Nat × Nat)} {j j' : Nat}
    (hw : fs.map Prod.fst = fs'.map Prod.fst) (hf : ∀ f ∈ fs, f.2 < 2 ^ f.1)
    (hf' : ∀ f ∈ fs', f.2 < 2 ^ f.1) (h : packed j fs = packed j' fs') : j = j' ∧ fs = fs' := by
  induction fs generalizing fs' j j' with
  | nil =>
    obtain rfl := List.map_eq_nil_iff.mp hw.symm
    exact ⟨h, rfl⟩
  | cons f fs ih =>
    cases fs' with
    | nil => cases hw
    | cons f' fs' =>
      obtain ⟨w, v⟩ := f
      obtain ⟨w', v'⟩ := f'
      obtain ⟨rfl, hws⟩ := List.cons.inj hw
      obtain ⟨hj, rfl⟩ := ih hws (fun f hm => hf f (List.mem_cons_of_mem _ hm))
        (fun f hm => hf' f (List.mem_cons_of_mem _ hm)) h
      obtain ⟨rfl, rfl⟩ := shiftLeft_or_inj (hf (w, v) List.mem_cons_self)
        (hf' (w, v') List.mem_cons_self) hj
      exact ⟨rfl, rfl⟩

end Lib
end CmakeFrame
