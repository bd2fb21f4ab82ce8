import CmakeFrame.Lib.Decimal
import Mathlib.Data.Nat.Digits.Lemmas

/-!
# Bit strings, cut into bytes

A bit string is its length `w` and its value `x`, the first bit being the highest one.

* `bigEndian b ds`: the value of digits, the first one being the highest one.
* `octets n w x`: the first `n` bytes of a bit string. `octets_cons`: one byte and the rest.
-/

namespace CmakeFrame
namespace Lib

/-- The number with the digits `ds` to the base `b`, the highest one first. -/
def bigEndian (b : Nat) (ds : List Nat) : Nat := Nat.ofDigits b ds.reverse

@[simp] theorem bigEndian_nil (b : Nat) : bigEndian b [] = 0 := rfl

theorem bigEndian_cons (b d : Nat) (ds : List Nat) :
    bigEndian b (d :: ds) = d * b ^ ds.length + bigEndian b ds := by
  rw [bigEndian, Nat.ofDigits_reverse_cons, Nat.add_comm, Nat.mul_comm]
  rfl

theorem bigEndian_lt {b : Nat} (hb : 1 < b) {ds : List Nat} (h : ∀ d ∈ ds, d < b) :
    bigEndian b ds < b ^ ds.length := by
  have := Nat.ofDigits_lt_base_pow_length hb (l := ds.reverse) (by simpa using h)
  rwa [List.length_reverse] at this

/-- The first `n` bytes of the `w` bits of `x`. -/
def octets (n w x : Nat) : Bytes :=
  (List.range n).map fun m => UInt8.ofNat (x / 2 ^ (w - 8 * (m + 1)) % 256)

theorem octets_zero (w x : Nat) : octets 0 w x = [] := rfl

/-- A byte in front of `w` bits. -/
theorem octets_cons {n w : Nat} (hn : 8 * n ≤ w) (c : UInt8) {x : Nat} (hx : x < 2 ^ w) :
    octets (n + 1) (w + 8) (c.toNat * 2 ^ w + x) = c :: octets n w x := by
  have hc := c.toNat_lt
  rw [octets, List.range_succ_eq_map, List.map_cons, List.map_map]
  congr 1
  · have hdiv : (c.toNat * 2 ^ w + x) / 2 ^ (w + 8 - 8 * (0 + 1)) = c.toNat := by
      rw [show w + 8 - 8 * (0 + 1) = w by omega, Nat.add_comm,
        Nat.add_mul_div_right _ _ (Nat.two_pow_pos w), Nat.div_eq_of_lt hx, Nat.zero_add]
    rw [hdiv, Nat.mod_eq_of_lt hc, UInt8.ofNat_toNat]
  · refine List.map_congr_left fun m hm => ?_
    have hm' := List.mem_range.mp hm
    have hsub : w + 8 - 8 * (Nat.succ m + 1) = w - 8 * (m + 1) := by omega
    -- What stands above the byte is a multiple of 256.
    have hpow : 2 ^ w = 2 ^ (w - 8 * (m + 1)) * (256 * 2 ^ (8 * m)) := by
      rw [show 256 = 2 ^ 8 from rfl, ← pow_add, ← pow_add]
      congr 1
      omega
    have hsplit : c.toNat * 2 ^ w + x =
        x + 2 ^ (w - 8 * (m + 1)) * (256 * (c.toNat * 2 ^ (8 * m))) := by
      rw [hpow]
      ring
    show UInt8.ofNat _ = _
    rw [hsub, hsplit, Nat.add_mul_div_left _ _ (Nat.two_pow_pos _),
      Nat.add_mul_mod_self_left]

end Lib
end CmakeFrame
