import Mathlib.Data.List.Basic

/-!
# The words of a text

* `words sep s`: the pieces of `s` between separators, without the empty ones.
* `wordsFrom sep cur s`: the same for a reader that has read `cur` of a word when it gets to `s`.
  `wordsFrom_sep` and `wordsFrom_cons` are its steps.
* `flatten_words`: words are made of the elements that are no separators.
* `words_intercalate`: a text that was made of words.
-/

namespace CmakeFrame
namespace Lib

variable {α : Type} [DecidableEq α] {sep : α}

def words (sep : α) (s : List α) : List (List α) := (s.splitOn sep).filter (· ≠ [])

def wordsFrom (sep : α) (cur s : List α) : List (List α) :=
  ((s.splitOn sep).modifyHead (cur ++ ·)).filter (· ≠ [])

theorem wordsFrom_nil_left (s : List α) : wordsFrom sep [] s = words sep s := by
  have hid : (fun t : List α => [] ++ t) = id := funext fun t => List.nil_append t
  rw [wordsFrom, words, hid, List.modifyHead_id]
  rfl

theorem wordsFrom_nil (cur : List α) : wordsFrom sep cur [] = if cur = [] then [] else [cur] := by
  unfold wordsFrom
  by_cases h : cur = [] <;> simp [h]

/-- A separator ends the word. -/
theorem wordsFrom_sep (cur s : List α) :
    wordsFrom sep cur (sep :: s) = (if cur = [] then [] else [cur]) ++ words sep s := by
  unfold wordsFrom words
  rw [List.splitOn_eq_splitOnP, List.splitOnP_cons_eq_if_modifyHead, if_pos (by simp)]
  by_cases h : cur = [] <;> simp [h, List.splitOn_eq_splitOnP]

/-- Any other element belongs to it. -/
theorem wordsFrom_cons {a : α} (h : a ≠ sep) (cur s : List α) :
    wordsFrom sep cur (a :: s) = wordsFrom sep (cur ++ [a]) s := by
  unfold wordsFrom
  rw [List.splitOn_eq_splitOnP, List.splitOnP_cons_eq_if_modifyHead, if_neg (by simpa using h),
    List.modifyHead_modifyHead, List.splitOn_eq_splitOnP]
  have hfun : (fun t => cur ++ t) ∘ List.cons a = fun t => (cur ++ [a]) ++ t := by
    funext t
    simp
  rw [hfun]

theorem flatten_wordsFrom (cur s : List α) :
    (wordsFrom sep cur s).flatten = cur ++ s.filter (· ≠ sep) := by
  induction s generalizing cur with
  | nil =>
    rw [wordsFrom_nil]
    split
    · rename_i h
      simp [h]
    · simp
  | cons a s ih =>
    by_cases h : a = sep
    · subst h
      rw [wordsFrom_sep, List.flatten_append, ← wordsFrom_nil_left, ih]
      split
      · rename_i hcur
        simp [hcur]
      · simp
    · rw [wordsFrom_cons h, ih]
      simp [h]

theorem flatten_words (s : List α) : (words sep s).flatten = s.filter (· ≠ sep) := by
  rw [← wordsFrom_nil_left, flatten_wordsFrom, List.nil_append]

/-- Words with a separator between them are the words of that text. -/
theorem words_intercalate {ws : List (List α)} (hne : ∀ w ∈ ws, w ≠ [])
    (hsep : ∀ w ∈ ws, sep ∉ w) : words sep ([sep].intercalate ws) = ws := by
  cases ws with
  | nil => simp [words]
  | cons w ws =>
    rw [words, List.splitOn_intercalate sep hsep (List.cons_ne_nil w ws), List.filter_eq_self]
    simpa using hne

theorem filter_intercalate (ws : List (List α)) :
    ([sep].intercalate ws).filter (· ≠ sep) = ws.flatten.filter (· ≠ sep) := by
  induction ws with
  | nil => rfl
  | cons w ws ih =>
    cases ws with
    | nil => simp
    | cons w' ws =>
      rw [List.intercalate_cons_cons, List.flatten_cons, List.filter_append, List.filter_append, ih,
        List.filter_append]
      simp

end Lib
end CmakeFrame
