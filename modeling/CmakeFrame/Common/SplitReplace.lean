import CmakeFrame.Lib.Cuts

/-!
# `StringUtility.cpp`: `Split` and `StringReplace`

`common/StringUtility.cpp`. Both search with `std::string::find` from a position on, `Split` in a text
that stays, `StringReplace` in one that it changes in front of that position.

* `find`: `std::string::find`.
* `split`, `stringReplaceLoop`: the functions. `none` is a loop that has not ended.
* `split_eq`: `Split` appends the pieces that are not empty; `split_pieces`: joined pieces are found
  again, and what is found is made of pieces.
* `stringReplaceLoop_eq`: the text in front of the position stays as it is, and in the rest every
  piece is followed by `subStr2`; `replaces_iff`: when `StringReplace` ends.
-/

namespace CmakeFrame
namespace StringUtility

open Lib

/-- `s.find(t, pos)`; `none` is `npos`. -/
def find (t s : Bytes) (pos : Nat) : Option Nat :=
  if pos ≤ s.length then (findSub t (s.drop pos)).map (pos + ·) else none

/-! ## `Split` -/

/-- The loop of `Split`. -/
def splitLoop (str delim : Bytes) : Nat → Nat → List Bytes → Option (List Bytes)
  | 0, _, _ => none
  | fuel + 1, beginIndex, result =>
    if beginIndex < str.length then
      match find delim str beginIndex with
      | none => some (result ++ [str.drop beginIndex])
      | some endIndex =>
        let result :=
          if endIndex > beginIndex then
            result ++ [(str.drop beginIndex).take (endIndex - beginIndex)]
          else result
        splitLoop str delim fuel (endIndex + delim.length) result
    else some result

/-- `Split(str, delim, result)`, with as many turns as there are characters and one more. -/
def split (str delim : Bytes) (result : List Bytes) : Option (List Bytes) :=
  if str = [] then some result
  else if delim.headD 0 = 0 then some (result ++ [str])
  else splitLoop str delim (str.length + 1) 0 result

section Split

variable {delim : Bytes} (hd : delim ≠ [])
include hd

/-- From a position on, the loop appends the pieces of the rest. -/
theorem splitLoop_eq (str : Bytes) (fuel pos : Nat) (result : List Bytes)
    (hf : (str.drop pos).length < fuel) :
    splitLoop str delim fuel pos result =
      some (result ++ (cuts delim (str.drop pos)).filter (· ≠ [])) := by
  induction fuel generalizing pos result with
  | zero => omega
  | succ fuel ih =>
    rw [splitLoop]
    by_cases hlt : pos < str.length
    · rw [if_pos hlt, find, if_pos (Nat.le_of_lt hlt)]
      have hne : str.drop pos ≠ [] := fun h => by
        have := List.drop_eq_nil_iff.mp h
        omega
      cases hfind : findSub delim (str.drop pos) with
      | none =>
        rw [cuts_none (findSub_eq_none_iff.mp hfind), List.filter_cons_of_pos (by simpa using hlt)]
        rfl
      | some i =>
        have hdrop := drop_lt hd hfind
        have hrest : str.drop (pos + i + delim.length) = (str.drop pos).drop (i + delim.length) := by
          rw [List.drop_drop, Nat.add_assoc]
        simp only [Option.map_some]
        rw [ih _ _ (by rw [hrest]; omega), hrest, cuts_some hd hfind, Nat.add_sub_cancel_left]
        by_cases hi : i = 0
        · rw [if_neg (by omega), List.filter_cons_of_neg (by simp [hi])]
        · have htake : (str.drop pos).take i ≠ [] := by
            rw [ne_eq, List.take_eq_nil_iff, not_or]
            exact ⟨hi, hne⟩
          rw [if_pos (by omega), List.filter_cons_of_pos (by simpa using htake), List.append_assoc,
            List.singleton_append]
    · have hnil : str.drop pos = [] := List.drop_eq_nil_iff.mpr (Nat.not_lt.mp hlt)
      have hno : ¬ delim <:+: [] := fun h => hd (List.infix_nil.mp h)
      rw [if_neg hlt, hnil, cuts_none hno]
      simp

end Split

/-- `Split` appends the pieces between the occurrences of `delim` that are not empty. -/
theorem split_eq {delim : Bytes} (hd : delim.headD 0 ≠ 0) (str : Bytes) (result : List Bytes) :
    split str delim result = some (result ++ (cuts delim str).filter (· ≠ [])) := by
  have hne : delim ≠ [] := by
    rintro rfl
    exact hd rfl
  rw [split]
  by_cases hs : str = []
  · have hno : ¬ delim <:+: [] := fun h => hne (List.infix_nil.mp h)
    rw [if_pos hs, hs, cuts_none hno]
    simp
  · rw [if_neg hs, if_neg hd, splitLoop_eq hne str _ 0 result (by simp), List.drop_zero]

/-- Pieces that no occurrence of the delimiter overlaps are found again when they are joined; and any
text is the pieces that are found, in order, with occurrences of the delimiter around them. -/
theorem split_pieces :
    (∀ (delim : Bytes) (parts result : List Bytes), delim.headD 0 ≠ 0 → (∀ p ∈ parts, p ≠ []) →
      Apart delim parts → split (delim.intercalate parts) delim result = some (result ++ parts)) ∧
    ∀ (delim str : Bytes) (result : List Bytes), delim.headD 0 ≠ 0 →
      ∃ pieces, split str delim result = some (result ++ pieces) ∧
        (∀ p ∈ pieces, p ≠ [] ∧ ¬ delim <:+: p) ∧ Interleaved delim pieces str := by
  have hne : ∀ delim : Bytes, delim.headD 0 ≠ 0 → delim ≠ [] := by
    rintro delim hd rfl
    exact hd rfl
  constructor
  · intro delim parts result hd hparts hapart
    rw [split_eq hd]
    by_cases hp : parts = []
    · have hno : ¬ delim <:+: [] := fun h => hne delim hd (List.infix_nil.mp h)
      rw [hp, List.intercalate_nil, cuts_none hno]
      simp
    · rw [cuts_intercalate (hne delim hd) hp hapart hparts,
        List.filter_eq_self.mpr fun p hm => by simpa using hparts p hm]
  · intro delim str result hd
    refine ⟨_, split_eq hd str result, fun p hp => ?_, interleaved_cuts (hne delim hd) str⟩
    obtain ⟨hmem, hp⟩ := List.mem_filter.mp hp
    exact ⟨by simpa using hp, notInfix_of_mem_cuts (hne delim hd) str p hmem⟩

/-- `a`, `b` joined with `--`; and `--a---b` is cut into `a` and `-b`. -/
theorem split_pieces_sample :
    split [97, 45, 45, 98] [45, 45] [] = some [[97], [98]] ∧
      ∃ pieces, split [45, 45, 97, 45, 45, 45, 98] [45, 45] [[1]] = some ([[1]] ++ pieces) ∧
        (∀ p ∈ pieces, p ≠ [] ∧ ¬ [45, 45] <:+: p) ∧
        Interleaved [45, 45] pieces [45, 45, 97, 45, 45, 45, 98] := by
  refine ⟨split_pieces.1 [45, 45] [[97], [98]] [] (by decide) (by decide) ?_,
    split_pieces.2 [45, 45] _ [[1]] (by decide)⟩
  intro i hi l p r he
  have hocc : i = 1 := by
    have hlen := hi.length_le
    have hall : ∀ j < 3, [45, 45] <+: ([97, 45, 45, 98] : Bytes).drop j → j = 1 := by decide
    refine hall i ?_ hi
    simp only [List.length_drop] at hlen
    have : ([45, 45] : Bytes).intercalate [[97], [98]] = [97, 45, 45, 98] := by decide
    rw [this] at hlen
    simp only [List.length_cons, List.length_nil] at hlen
    omega
  rcases List.cons_eq_append_iff.mp he with ⟨rfl, h⟩ | ⟨l', rfl, h⟩
  · obtain ⟨rfl, rfl⟩ := List.cons_eq_cons.mp h
    right
    simp [start, hocc]
  · rcases List.cons_eq_append_iff.mp h with ⟨rfl, h⟩ | ⟨l'', rfl, h⟩
    · obtain ⟨rfl, rfl⟩ := List.cons_eq_cons.mp h
      left
      simp [start, hocc]
    · simp at h

/-! ## `StringReplace` -/

/-- The loop of `StringReplace`. -/
def stringReplaceLoop (subStr1 subStr2 : Bytes) : Nat → Nat → Bytes → Option Bytes
  | 0, _, _ => none
  | fuel + 1, pos, str =>
    match find subStr1 str pos with
    | none => some str
    | some pos =>
      stringReplaceLoop subStr1 subStr2 fuel (pos + subStr2.length)
        (str.take pos ++ subStr2 ++ str.drop (pos + subStr1.length))

/-- `StringReplace(subStr1, subStr2, &str)` ends and leaves `str'`. -/
def StringReplace (subStr1 subStr2 str str' : Bytes) : Prop :=
  ∃ fuel, stringReplaceLoop subStr1 subStr2 fuel 0 str = some str'

/-- What has been read stays; the rest is cut at `subStr1` and joined with `subStr2`. -/
theorem stringReplaceLoop_eq {subStr1 : Bytes} (h1 : subStr1 ≠ []) (subStr2 : Bytes) (fuel : Nat)
    (done rest : Bytes) (hf : rest.length < fuel) :
    stringReplaceLoop subStr1 subStr2 fuel done.length (done ++ rest) =
      some (done ++ subStr2.intercalate (cuts subStr1 rest)) := by
  induction fuel generalizing done rest with
  | zero => omega
  | succ fuel ih =>
    have hfind : find subStr1 (done ++ rest) done.length =
        (findSub subStr1 rest).map (done.length + ·) := by
      rw [find, if_pos (by simp), List.drop_left]
    rw [stringReplaceLoop, hfind]
    cases h : findSub subStr1 rest with
    | none =>
      rw [cuts_none (findSub_eq_none_iff.mp h), List.intercalate_singleton]
      rfl
    | some i =>
      have hdrop := drop_lt h1 h
      have htake : (done ++ rest).take (done.length + i) = done ++ rest.take i :=
        List.take_length_add_append i
      have hrest : (done ++ rest).drop (done.length + i + subStr1.length) =
          rest.drop (i + subStr1.length) := by
        rw [Nat.add_assoc, List.drop_length_add_append]
      have hpos : done.length + i + subStr2.length = (done ++ rest.take i ++ subStr2).length := by
        have := (findSub_eq_some h).1
        simp only [List.length_append, List.length_take]
        omega
      simp only [Option.map_some]
      rw [htake, hrest, hpos, ih _ _ (by omega), cuts_some h1 h, intercalate_cons (cuts_ne_nil _ _)]
      simp

/-- An empty `subStr1` is found at every position, behind what has been inserted too. -/
theorem stringReplaceLoop_nil (subStr2 : Bytes) (fuel pos : Nat) (str : Bytes)
    (h : pos ≤ str.length) : stringReplaceLoop [] subStr2 fuel pos str = none := by
  induction fuel generalizing pos str with
  | zero => rfl
  | succ fuel ih =>
    have hfind : find [] str pos = some pos := by
      rw [find, if_pos h, findSub_eq_of_first (i := 0) List.nil_prefix (Nat.zero_le _) (by simp)]
      rfl
    rw [stringReplaceLoop, hfind]
    refine ih _ _ ?_
    simp only [List.length_append, List.length_take, List.length_drop, List.length_nil]
    omega

/-- `StringReplace` ends, and if there is something to look for, what it leaves is the text with
`subStr2` for the leftmost occurrences of `subStr1`. -/
def Replaces (subStr1 subStr2 str : Bytes) : Prop :=
  ∃ str', StringReplace subStr1 subStr2 str str' ∧
    (subStr1 ≠ [] → ∃ ps, subStr1.intercalate ps = str ∧ Leftmost subStr1 ps ∧
      str' = subStr2.intercalate ps)

/-- For every text, `StringReplace` does so exactly if `subStr1` is not empty. -/
theorem replaces_iff (subStr1 subStr2 str : Bytes) :
    Replaces subStr1 subStr2 str ↔ subStr1 ≠ [] := by
  constructor
  · rintro ⟨str', ⟨fuel, hend⟩, -⟩ rfl
    rw [stringReplaceLoop_nil subStr2 fuel 0 str (Nat.zero_le _)] at hend
    cases hend
  · intro h1
    have hloop := stringReplaceLoop_eq h1 subStr2 (str.length + 1) [] str (Nat.lt_succ_self _)
    exact ⟨_, ⟨_, hloop⟩, fun _ =>
      ⟨cuts subStr1 str, intercalate_cuts h1 str, leftmost_cuts h1 str, rfl⟩⟩

/-- An empty `subStr1` with `x` for it: the loop inserts one `x` after the other in front of `a`. -/
theorem replaces_nil_fails : ¬ Replaces [] [120] [97] := fun h =>
  (replaces_iff [] [120] [97]).mp h rfl

end StringUtility
end CmakeFrame
