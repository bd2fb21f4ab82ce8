import CmakeFrame.Lib.Search

/-!
# `redisAsyn/v1.0/src/RedisTools.cpp`: `split`

* `split str delim`: the non-empty pieces of `str` between the occurrences of `delim`.
* `split_append`, `split_piece`, `split_flatMap`: with a single separator, the pieces of a text that
  was made of them.
-/

namespace CmakeFrame
namespace RedisAsyn

open Lib

/-- The loop of `split`; `str` is the text from `beginIndex` on. Each turn leaves less of it, so
`fuel = length + 1` turns are enough. -/
def splitLoop (delim : Bytes) : Nat → Bytes → List Bytes
  | 0, _ => []
  | fuel + 1, str =>
    if str = [] then []
    else
      match findSub delim str with
      | none => [str]
      | some k =>
        let rest := splitLoop delim fuel (str.drop (k + delim.length))
        if k > 0 then str.take k :: rest else rest

/-- `split(str, delim, result)`. -/
def split (str delim : Bytes) : List Bytes :=
  if str = [] then []
  else if delim.headD 0 = 0 then [str]
  else splitLoop delim (str.length + 1) str

/-! ## One separator -/

theorem findSub_singleton (c : UInt8) (s : Bytes) : findSub [c] s = findByte c s := by
  induction s with
  | nil => rfl
  | cons a s ih =>
    by_cases h : c = a
    · simp [findSub, findByte, h]
    · simp [findSub, findByte, h, Ne.symm h, ih]

/-- More turns than there are characters change nothing. -/
theorem splitLoop_fuel (c : UInt8) (f g : Nat) {s : Bytes} (h : s.length < f) (h' : s.length < g) :
    splitLoop [c] f s = splitLoop [c] g s := by
  induction f generalizing g s with
  | zero => omega
  | succ f ih =>
    cases g with
    | zero => omega
    | succ g =>
      unfold splitLoop
      split
      · rfl
      · rename_i hs
        have hpos := List.length_pos_iff.mpr hs
        cases findSub [c] s with
        | none => rfl
        | some k =>
          have hlen : (s.drop (k + [c].length)).length + 1 ≤ s.length := by
            simp only [List.length_drop, List.length_singleton]
            omega
          simp only [ih g (s := s.drop (k + [c].length)) (by omega) (by omega)]

theorem split_eq {c : UInt8} (hc : c ≠ 0) (s : Bytes) :
    split s [c] = splitLoop [c] (s.length + 1) s := by
  unfold split
  split
  · rename_i hs
    simp [hs, splitLoop]
  · simp [hc]

theorem splitLoop_eq_nil_iff (c : UInt8) (fuel : Nat) {s : Bytes} (h : s.length < fuel) :
    splitLoop [c] fuel s = [] ↔ ∀ b ∈ s, b = c := by
  induction fuel generalizing s with
  | zero => omega
  | succ fuel ih =>
    cases s with
    | nil => simp [splitLoop]
    | cons a s =>
      rw [splitLoop, if_neg (List.cons_ne_nil a s), findSub_singleton]
      by_cases ha : a = c
      · have hfind : findByte c (a :: s) = some 0 := by simp [findByte, ha]
        simp only [List.length_cons] at h
        rw [hfind]
        simpa [ha] using ih (s := s) (by omega)
      · have hall : ¬ ∀ b ∈ a :: s, b = c := fun hall => ha (hall a List.mem_cons_self)
        cases hf : findByte c (a :: s) with
        | none => exact iff_of_false (List.cons_ne_nil _ _) hall
        | some k =>
          have hk : k > 0 := by
            rcases Nat.eq_zero_or_pos k with rfl | hk
            · exact absurd (by simpa using (findByte_eq_some hf).1) ha
            · exact hk
          simp only [if_pos hk]
          exact iff_of_false (List.cons_ne_nil _ _) hall

/-- A text without pieces is one of separators only. -/
theorem split_eq_nil_iff {c : UInt8} (hc : c ≠ 0) (s : Bytes) :
    split s [c] = [] ↔ ∀ b ∈ s, b = c := by
  rw [split_eq hc, splitLoop_eq_nil_iff c _ (Nat.lt_succ_self _)]

/-- A piece, a separator, and the pieces behind it. -/
theorem split_append {c : UInt8} (hc : c ≠ 0) {p : Bytes} (hp : p ≠ []) (hcp : c ∉ p) (s : Bytes) :
    split (p ++ c :: s) [c] = p :: split s [c] := by
  rw [split_eq hc, split_eq hc, splitLoop, if_neg (by simp), findSub_singleton,
    findByte_append hcp]
  have hpos := List.length_pos_iff.mpr hp
  have hdrop : (p ++ c :: s).drop (p.length + [c].length) = s := by
    rw [List.drop_append]
    simp
  simp only [hdrop, hpos, if_true, List.take_left]
  rw [splitLoop_fuel c _ (s.length + 1) (by rw [List.length_append, List.length_cons]; omega) (by omega)]

/-- A piece at the end. -/
theorem split_piece {c : UInt8} (hc : c ≠ 0) {p : Bytes} (hp : p ≠ []) (hcp : c ∉ p) :
    split p [c] = [p] := by
  rw [split_eq hc, splitLoop, if_neg hp, findSub_singleton, findByte_eq_none.mpr hcp]

/-- Pieces with a separator behind each, and what follows them. -/
theorem split_flatMap_append {c : UInt8} (hc : c ≠ 0) {ps : List Bytes}
    (hp : ∀ p ∈ ps, p ≠ [] ∧ c ∉ p) (s : Bytes) :
    split (ps.flatMap (· ++ [c]) ++ s) [c] = ps ++ split s [c] := by
  induction ps with
  | nil => rfl
  | cons p ps ih =>
    obtain ⟨h1, h2⟩ := hp p (by simp)
    rw [List.flatMap_cons, List.append_assoc, List.append_assoc, List.singleton_append,
      split_append hc h1 h2, ih fun q hq => hp q (by simp [hq]), List.cons_append]

theorem split_flatMap {c : UInt8} (hc : c ≠ 0) {ps : List Bytes} (hp : ∀ p ∈ ps, p ≠ [] ∧ c ∉ p) :
    split (ps.flatMap (· ++ [c])) [c] = ps := by
  have := split_flatMap_append hc hp []
  rwa [List.append_nil, show split [] [c] = [] from rfl, List.append_nil] at this

/-- Pieces with a separator between each two. -/
theorem split_intercalate {c : UInt8} (hc : c ≠ 0) {p : Bytes} {ps : List Bytes}
    (hp : ∀ q ∈ p :: ps, q ≠ [] ∧ c ∉ q) : split (p ++ ps.flatMap (c :: ·)) [c] = p :: ps := by
  induction ps generalizing p with
  | nil =>
    obtain ⟨h1, h2⟩ := hp p (by simp)
    simpa using split_piece hc h1 h2
  | cons q ps ih =>
    obtain ⟨h1, h2⟩ := hp p (by simp)
    rw [List.flatMap_cons, List.cons_append, split_append hc h1 h2,
      ih fun q' hq' => hp q' (List.mem_cons_of_mem p hq')]

end RedisAsyn
end CmakeFrame
