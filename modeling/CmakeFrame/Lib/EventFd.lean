import Mathlib.Algebra.Group.Nat.Defs
import Mathlib.Tactic.Common

/-!
# The counter of an `eventfd`

`read` takes the whole counter and leaves 0. `write` adds to it; a write that does not fit fails,
and the counter stays.
-/

namespace CmakeFrame
namespace Lib
namespace EventFd

/-- The largest value of the counter. -/
def maxCount : Nat := 2 ^ 64 - 2

/-- Whether a write of `v` succeeds. -/
def fits (count v : Nat) : Bool := count + v ≤ maxCount

def write (count v : Nat) : Nat := if fits count v then count + v else count

/-- A failed write leaves a counter that is not 0 either. -/
theorem write_ne_zero {count v : Nat} (hv : v ≠ 0) (hmax : v ≤ maxCount) : write count v ≠ 0 := by
  unfold write fits
  split
  · omega
  · rename_i h
    simp only [decide_eq_true_eq] at h
    omega

theorem write_even {count v : Nat} (hv : v % 2 = 0) : write count v % 2 = count % 2 := by
  unfold write
  split <;> omega

theorem write_of_fits {count v : Nat} (h : fits count v = true) : write count v = count + v := if_pos h

theorem write_of_not_fits {count v : Nat} (h : fits count v = false) : write count v = count :=
  if_neg (by simp [h])

end EventFd
end Lib
end CmakeFrame
