import CmakeFrame.Lib.Decimal

/-!
# Numbers of a fixed width, and the last separator of a text

* `padDec`: `printf("%0wd")`; it is not cut off if it is longer. `scanInt_padDec`: it is read back.
* `length_padDec_le`: how long it gets.
* `last_separator`: a text is cut at its last separator in one way.
-/

namespace CmakeFrame
namespace Lib

/-- `printf("%0wd")`: the sign, zeros, the digits. -/
def padDec (w : Nat) (z : Int) : Bytes :=
  if z < 0 then 45 :: (List.replicate (w - 1 - (natDec z.natAbs).length) 48 ++ natDec z.natAbs)
  else List.replicate (w - (natDec z.natAbs).length) 48 ++ natDec z.natAbs

theorem scanNat_zeros (k : Nat) (s : Bytes) : scanNat 0 (List.replicate k 48 ++ s) = scanNat 0 s := by
  induction k with
  | zero => rfl
  | succ k ih =>
    rw [List.replicate_succ, List.cons_append, scanNat, if_pos (by decide)]
    exact ih

theorem scanSign_zeros (k n : Nat) (s : Bytes) :
    scanSign (List.replicate k 48 ++ natDec n ++ s) = (false, List.replicate k 48 ++ natDec n ++ s) := by
  cases k with
  | zero => exact scanSign_natDec n s
  | succ k =>
    rw [List.replicate_succ, List.cons_append, List.cons_append]
    exact scanSign_digit (by decide)

/-- What was printed is read back. -/
theorem scanInt_padDec (w : Nat) (z : Int) {s : Bytes} (h : EndsNumber s) :
    scanInt (padDec w z ++ s) = z := by
  have hnat : ∀ k, scanNat 0 (List.replicate k 48 ++ natDec z.natAbs ++ s) = z.natAbs := fun k => by
    rw [List.append_assoc, scanNat_zeros, scanNat_natDec _ h]
  unfold padDec
  split
  · rename_i hz
    have hsign : ∀ t : Bytes, scanSign (45 :: t) = (true, t) := fun t => rfl
    rw [List.cons_append, scanInt, hsign, if_pos rfl, hnat]
    omega
  · rename_i hz
    rw [scanInt, scanSign_zeros, if_neg Bool.false_ne_true, hnat]
    omega

theorem isDigit_of_mem_zeros {k n : Nat} {c : UInt8} (h : c ∈ List.replicate k 48 ++ natDec n) :
    isDigit c = true := by
  rcases List.mem_append.mp h with h | h
  · rw [List.eq_of_mem_replicate h]
    decide
  · exact isDigit_of_mem_natDec h

theorem mem_padDec {w : Nat} {z : Int} {c : UInt8} (h : c ∈ padDec w z) : c = 45 ∨ isDigit c = true := by
  unfold padDec at h
  split at h
  · rcases List.mem_cons.mp h with rfl | h
    · exact .inl rfl
    · exact .inr (isDigit_of_mem_zeros h)
  · exact .inr (isDigit_of_mem_zeros h)

theorem le_length_padDec (w : Nat) (z : Int) : w ≤ (padDec w z).length := by
  unfold padDec
  split
  · rw [List.length_cons, List.length_append, List.length_replicate]
    omega
  · rw [List.length_append, List.length_replicate]
    omega

theorem length_decAux_le {f n k : Nat} (h : n < 10 ^ (k + 1)) : (decAux f n).length ≤ k + 1 := by
  induction f generalizing n k with
  | zero => exact Nat.zero_le _
  | succ f ih =>
    unfold decAux
    split
    · exact Nat.le_add_left 1 k
    · rename_i hn
      cases k with
      | zero => exact absurd h hn
      | succ k =>
        rw [List.length_append, List.length_singleton]
        exact Nat.succ_le_succ (ih (Nat.div_lt_of_lt_mul (by rwa [pow_succ, Nat.mul_comm] at h)))

/-- A number that fits has the width. -/
theorem length_padDec {w : Nat} {z : Int} (hz : 0 ≤ z) (h : z < 10 ^ (w + 1)) :
    (padDec (w + 1) z).length = w + 1 := by
  have hlen : (natDec z.natAbs).length ≤ w + 1 := length_decAux_le (by zify; rwa [abs_of_nonneg hz])
  rw [padDec, if_neg (not_lt.mpr hz), List.length_append, List.length_replicate]
  omega

/-- Behind the first character there are digits only. -/
theorem isDigit_of_mem_drop_padDec {w : Nat} {z : Int} {c : UInt8}
    (h : c ∈ (padDec w z).drop 1) : isDigit c = true := by
  unfold padDec at h
  split at h
  · exact isDigit_of_mem_zeros h
  · exact isDigit_of_mem_zeros (List.mem_of_mem_drop h)

/-- What stands behind the last separator has none. -/
theorem last_separator {α : Type} {c : α} {v v' p p' : List α} (hp : c ∉ p) (hp' : c ∉ p')
    (h : v ++ c :: p = v' ++ c :: p') : v = v' ∧ p = p' := by
  induction v generalizing v' with
  | nil =>
    cases v' with
    | nil => exact ⟨rfl, (List.cons.inj h).2⟩
    | cons a v' =>
      refine absurd ?_ hp
      rw [(List.cons.inj h).2]
      simp
  | cons a v ih =>
    cases v' with
    | nil =>
      refine absurd ?_ hp'
      rw [← (List.cons.inj h).2]
      simp
    | cons a' v' =>
      obtain ⟨ha, hrest⟩ := List.cons.inj h
      obtain ⟨hv, hpp⟩ := ih hrest
      exact ⟨by rw [ha, hv], hpp⟩

end Lib
end CmakeFrame
