import Mathlib.Logic.Function.Basic
import Mathlib.Tactic.Common

/-!
# Loops with a counter of 16 bits over a map

`for (uint16_t pos = start; pos <= end; pos++) m[pos] = f(m[pos])`.

* `fillLoop`: the loop, with the number of turns that it may take. For `end = 65535` no number is
  enough.
* `fillLoop_eq`: for a smaller `end` it changes the entries from `start` to `end`.
* `fillLoop_last`: for 65535 it does not end.
-/

namespace CmakeFrame
namespace Lib

variable {α : Type}

def fillLoop (f : α → α) (last : UInt16) : Nat → UInt16 → (UInt16 → α) → Option (UInt16 → α)
  | 0, _, _ => none
  | fuel + 1, pos, m =>
    if pos ≤ last then fillLoop f last fuel (pos + 1) (Function.update m pos (f (m pos))) else some m

theorem fillLoop_eq (f : α → α) {last : UInt16} (hl : last.toNat < 65535) (fuel : Nat) (pos : UInt16)
    (hf : last.toNat + 1 - pos.toNat < fuel) (m : UInt16 → α) :
    fillLoop f last fuel pos m = some fun s => if pos ≤ s ∧ s ≤ last then f (m s) else m s := by
  induction fuel generalizing pos m with
  | zero => omega
  | succ fuel ih =>
    unfold fillLoop
    by_cases hle : pos ≤ last
    · have hnat : pos.toNat ≤ last.toNat := UInt16.le_iff_toNat_le.mp hle
      have hsucc : (pos + 1).toNat = pos.toNat + 1 := by
        rw [UInt16.toNat_add]
        exact Nat.mod_eq_of_lt (by simp; omega)
      rw [if_pos hle, ih (pos + 1) (by omega)]
      congr 1
      funext s
      simp only [UInt16.le_iff_toNat_le, hsucc]
      by_cases hs : s = pos
      · subst hs
        rw [if_neg (by omega), if_pos ⟨Nat.le_refl _, hnat⟩, Function.update_self]
      · have hne : s.toNat ≠ pos.toNat := fun h => hs (UInt16.toNat_inj.mp h)
        simp only [Function.update_of_ne hs]
        by_cases hr : pos.toNat ≤ s.toNat ∧ s.toNat ≤ last.toNat
        · rw [if_pos (by omega), if_pos hr]
        · rw [if_neg (by omega), if_neg hr]
    · have hnat : ¬ pos.toNat ≤ last.toNat := fun h => hle (UInt16.le_iff_toNat_le.mpr h)
      rw [if_neg hle]
      congr 1
      funext s
      rw [if_neg]
      simp only [UInt16.le_iff_toNat_le]
      omega

/-- Every value of the counter is in the range, so no number of turns is enough. -/
theorem fillLoop_last (f : α → α) (fuel : Nat) (pos : UInt16) (m : UInt16 → α) :
    fillLoop f 65535 fuel pos m = none := by
  induction fuel generalizing pos m with
  | zero => rfl
  | succ fuel ih =>
    have hle : pos ≤ 65535 := UInt16.le_iff_toNat_le.mpr (Nat.le_of_lt_succ pos.toNat_lt)
    rw [fillLoop, if_pos hle, ih]

end Lib
end CmakeFrame
