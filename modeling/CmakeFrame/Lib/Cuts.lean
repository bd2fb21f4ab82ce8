import CmakeFrame.Lib.Search

/-!
# Cutting a text at the occurrences of a pattern

* `findSub_first`, `findSub_eq_of_first`: `findSub` gives the first occurrence, and nothing else;
  `findSub_append`: it does not look at what follows.
* `cuts t s`: the pieces of `s` between the leftmost occurrences of `t` that do not overlap.
  `cuts_none` and `cuts_some` are its steps.
* `intercalate_cuts`: the pieces with `t` between them are the text. `Leftmost`: in each piece there
  is no `t`, and none begins in it before the one that ends it.
* `cuts_intercalate`: the pieces of a text that was made of pieces. `Apart`: no occurrence of the
  pattern overlaps one of them.
* `Interleaved`: a text is pieces, in order, with occurrences of the pattern around them.
-/

namespace CmakeFrame
namespace Lib

variable {α : Type} [DecidableEq α] {t s : List α}

/-! ## The first occurrence -/

theorem findSub_first {i : Nat} (h : findSub t s = some i) : ∀ j < i, ¬ t <+: s.drop j := by
  rintro j hj ⟨r, hr⟩
  obtain ⟨k, hk, he⟩ := findSub_le t (s.take j) r
  rw [List.append_assoc, hr, List.take_append_drop, h] at he
  cases he
  rw [List.length_take] at hk
  omega

theorem findSub_eq_of_first {i : Nat} (hi : t <+: s.drop i) (hle : i ≤ s.length)
    (hno : ∀ j < i, ¬ t <+: s.drop j) : findSub t s = some i := by
  obtain ⟨r, hr⟩ := hi
  obtain ⟨k, hk, he⟩ := findSub_le t (s.take i) r
  rw [List.append_assoc, hr, List.take_append_drop] at he
  rw [List.length_take, Nat.min_eq_left hle] at hk
  rcases Nat.lt_or_eq_of_le hk with hlt | rfl
  · exact absurd (findSub_eq_some he).2 (hno k hlt)
  · exact he

theorem findSub_eq_none_iff : findSub t s = none ↔ ¬ t <:+: s := by
  rw [← findSub_isSome, Option.not_isSome_iff_eq_none]

/-- What stands in front of the first occurrence has none. -/
theorem notInfix_take {i : Nat} (ht : t ≠ []) (h : findSub t s = some i) : ¬ t <:+: s.take i := by
  rintro ⟨f, r, hfr⟩
  have hle := (findSub_eq_some h).1
  have hlen := congrArg List.length hfr
  have hpos := List.length_pos_iff.mpr ht
  simp only [List.length_append, List.length_take] at hlen
  refine findSub_first h f.length (by omega) ⟨r ++ s.drop i, ?_⟩
  conv => rhs; rw [← List.take_append_drop i s, ← hfr]
  simp

/-- Each turn leaves less of the text, so `fuel = length + 1` turns are enough. -/
def cutsLoop (t : List α) : Nat → List α → List (List α)
  | 0, s => [s]
  | fuel + 1, s =>
    match findSub t s with
    | none => [s]
    | some i => s.take i :: cutsLoop t fuel (s.drop (i + t.length))

/-- The pieces of `s` between the occurrences of `t`. -/
def cuts (t s : List α) : List (List α) := cutsLoop t (s.length + 1) s

theorem drop_lt {i : Nat} (ht : t ≠ []) (h : findSub t s = some i) :
    (s.drop (i + t.length)).length < s.length := by
  have hle := (findSub_eq_some h).2.length_le
  have hpos := List.length_pos_iff.mpr ht
  rw [List.length_drop] at hle ⊢
  omega

theorem cutsLoop_fuel (ht : t ≠ []) {f g : Nat} {s : List α} (hf : s.length < f)
    (hg : s.length < g) : cutsLoop t f s = cutsLoop t g s := by
  induction f generalizing g s with
  | zero => omega
  | succ f ih =>
    obtain ⟨g, rfl⟩ : ∃ k, g = k + 1 := ⟨g - 1, by omega⟩
    simp only [cutsLoop]
    cases h : findSub t s with
    | none => rfl
    | some i =>
      have hlt := drop_lt ht h
      exact congrArg _ (ih (by omega) (by omega))

theorem cuts_none (h : ¬ t <:+: s) : cuts t s = [s] := by
  rw [cuts, cutsLoop, findSub_eq_none_iff.mpr h]

theorem cuts_some {i : Nat} (ht : t ≠ []) (h : findSub t s = some i) :
    cuts t s = s.take i :: cuts t (s.drop (i + t.length)) := by
  rw [cuts, cutsLoop, h]
  exact congrArg _ (cutsLoop_fuel ht (drop_lt ht h) (Nat.lt_succ_self _))

/-- Induction on a text, cut at its first occurrence. -/
theorem cuts_induction {P : List α → Prop} (ht : t ≠ []) (hnone : ∀ s, ¬ t <:+: s → P s)
    (hsome : ∀ s i, findSub t s = some i → P (s.drop (i + t.length)) → P s) (s : List α) : P s := by
  induction hn : s.length using Nat.strong_induction_on generalizing s with
  | _ n ih =>
    cases h : findSub t s with
    | none => exact hnone s (findSub_eq_none_iff.mp h)
    | some i => exact hsome s i h (ih _ (hn ▸ drop_lt ht h) _ rfl)

theorem cuts_ne_nil (t s : List α) : cuts t s ≠ [] := by
  rw [cuts, cutsLoop]
  split <;> exact List.cons_ne_nil _ _

omit [DecidableEq α] in
theorem intercalate_cons {p : List α} {ps : List (List α)} (h : ps ≠ []) (u : List α) :
    u.intercalate (p :: ps) = p ++ u ++ u.intercalate ps := by
  obtain ⟨q, r, rfl⟩ := List.exists_cons_of_ne_nil h
  rw [List.intercalate_cons_cons]

theorem append_drop {i : Nat} (h : findSub t s = some i) :
    s.take i ++ t ++ s.drop (i + t.length) = s := by
  obtain ⟨r, hr⟩ := (findSub_eq_some h).2
  have hd : s.drop (i + t.length) = r := by
    rw [← List.drop_drop, ← hr, List.drop_left]
  rw [hd, List.append_assoc, hr, List.take_append_drop]

/-- The pieces with the pattern between them are the text. -/
theorem intercalate_cuts (ht : t ≠ []) (s : List α) : t.intercalate (cuts t s) = s := by
  induction s using cuts_induction ht with
  | hnone s h => rw [cuts_none h, List.intercalate_singleton]
  | hsome s i h ih => rw [cuts_some ht h, intercalate_cons (cuts_ne_nil _ _), ih, append_drop h]

/-- The occurrences between the pieces are the leftmost ones: none begins before them. -/
def Leftmost (t : List α) : List (List α) → Prop
  | [] => False
  | [p] => ¬ t <:+: p
  | p :: q :: ps => findSub t (t.intercalate (p :: q :: ps)) = some p.length ∧ Leftmost t (q :: ps)

theorem leftmost_cuts (ht : t ≠ []) (s : List α) : Leftmost t (cuts t s) := by
  induction s using cuts_induction ht with
  | hnone s h =>
    rw [cuts_none h]
    exact h
  | hsome s i h ih =>
    obtain ⟨q, ps, hq⟩ := List.exists_cons_of_ne_nil (cuts_ne_nil t (s.drop (i + t.length)))
    have hs := intercalate_cuts ht s
    rw [cuts_some ht h, hq] at hs ⊢
    rw [hq] at ih
    refine ⟨?_, ih⟩
    rw [hs, h, List.length_take, Nat.min_eq_left (findSub_eq_some h).1]

/-- There is no occurrence within a piece. -/
theorem notInfix_of_mem_cuts (ht : t ≠ []) (s : List α) : ∀ p ∈ cuts t s, ¬ t <:+: p := by
  induction s using cuts_induction ht with
  | hnone s h => simpa [cuts_none h] using h
  | hsome s i h ih =>
    rw [cuts_some ht h]
    exact List.forall_mem_cons.mpr ⟨notInfix_take ht h, ih⟩

/-! ## Pieces of a joined text -/

/-- Where the piece behind `l` begins. -/
def start (t : List α) (l : List (List α)) : Nat := (l.flatMap (· ++ t)).length

/-- No occurrence of `t` in the joined pieces overlaps a piece. -/
def Apart (t : List α) (ps : List (List α)) : Prop :=
  ∀ i, t <+: (t.intercalate ps).drop i → ∀ l p r, ps = l ++ p :: r →
    i + t.length ≤ start t l ∨ start t l + p.length ≤ i

omit [DecidableEq α] in
theorem Apart.tail {p : List α} {ps : List (List α)} (h : Apart t (p :: ps)) (hps : ps ≠ []) :
    Apart t ps := by
  intro i hi l q r he
  have hdrop : (t.intercalate (p :: ps)).drop (p.length + t.length + i) =
      (t.intercalate ps).drop i := by
    rw [intercalate_cons hps, ← List.drop_drop, List.drop_left' (by simp)]
  have := h (p.length + t.length + i) (hdrop ▸ hi) (p :: l) q r (by rw [he, List.cons_append])
  simp only [start, List.flatMap_cons, List.length_append] at this ⊢
  omega

/-- Pieces that no occurrence overlaps are found again. -/
theorem cuts_intercalate (ht : t ≠ []) {ps : List (List α)} (hne : ps ≠ []) (h : Apart t ps)
    (hp : ∀ p ∈ ps, p ≠ []) : cuts t (t.intercalate ps) = ps := by
  have hpos := List.length_pos_iff.mpr ht
  induction ps with
  | nil => exact absurd rfl hne
  | cons p ps ih =>
    have hplen := List.length_pos_iff.mpr (hp p (by simp))
    cases ps with
    | nil =>
      rw [List.intercalate_singleton]
      refine cuts_none ?_
      rintro ⟨f, r, hfr⟩
      have hlen := congrArg List.length hfr
      simp only [List.length_append] at hlen
      have hocc : t <+: (t.intercalate [p]).drop f.length := by
        rw [List.intercalate_singleton, ← hfr, List.append_assoc, List.drop_left]
        exact List.prefix_append t r
      have := h f.length hocc [] p [] rfl
      simp only [start, List.flatMap_nil, List.length_nil] at this
      omega
    | cons q ps =>
      have hfind : findSub t (t.intercalate (p :: q :: ps)) = some p.length := by
        refine findSub_eq_of_first ?_ ?_ fun j hj hocc => ?_
        · rw [List.intercalate_cons_cons, List.append_assoc, List.drop_left]
          exact List.prefix_append t _
        · rw [List.intercalate_cons_cons, List.append_assoc, List.length_append]
          omega
        · have := h j hocc [] p (q :: ps) rfl
          simp only [start, List.flatMap_nil, List.length_nil] at this
          omega
      rw [cuts_some ht hfind, List.intercalate_cons_cons, List.drop_left' (by simp),
        ih (List.cons_ne_nil q ps) (h.tail (List.cons_ne_nil q ps)) fun x hx => hp x (by simp [hx]),
        List.append_assoc, List.take_left]

/-! ## Pieces and occurrences in order -/

/-- `s` is the pieces `ps`, in order, with occurrences of `t` around them, at least one between each
two. -/
inductive Interleaved (t : List α) : List (List α) → List α → Prop
  | nil : Interleaved t [] []
  | occurrence {ps : List (List α)} {s : List α} : Interleaved t ps s → Interleaved t ps (t ++ s)
  | last (p : List α) : Interleaved t [p] p
  | piece (p : List α) {ps : List (List α)} {s : List α} :
    Interleaved t ps s → Interleaved t (p :: ps) (p ++ t ++ s)

/-- The pieces that are not empty. -/
theorem interleaved_cuts (ht : t ≠ []) (s : List α) :
    Interleaved t ((cuts t s).filter (· ≠ [])) s := by
  induction s using cuts_induction ht with
  | hnone s h =>
    rw [cuts_none h]
    by_cases hs : s = []
    · simpa [hs] using Interleaved.nil
    · simpa [hs] using Interleaved.last s
  | hsome s i h ih =>
    have happ := append_drop h
    rw [cuts_some ht h]
    by_cases hi : s.take i = []
    · rw [hi, List.nil_append] at happ
      rw [List.filter_cons_of_neg (by simp [hi])]
      have hs := ih.occurrence
      rwa [happ] at hs
    · rw [List.filter_cons_of_pos (by simp [hi])]
      have hs := ih.piece (s.take i)
      rwa [happ] at hs

end Lib
end CmakeFrame
