import CmakeFrame.Lib.Search
import Mathlib.Algebra.Order.BigOperators.Group.List
import Mathlib.Algebra.Order.Group.Nat
import Mathlib.Data.List.Count
import Mathlib.Data.List.Forall2
import Mathlib.Tactic.Common

/-!
# Pieces with a separator between them

`List.splitOn` cuts a list at a separator and `List.intercalate` puts pieces together. Pieces in which
the separator stands are put together as well, but cut into more of them.

* `length_splitOn_intercalate_iff`: there are as many pieces again exactly when the separator stands in
  none of them.
* `infix_intercalate_iff`: a text without the separator stands in one of the pieces or nowhere.
* `length_lines_flatMap_iff`: lines are as many again exactly when none holds a line end.
* `mapM_eq_some_iff`: pieces that are read one by one.
-/

namespace CmakeFrame
namespace Lib

variable {α : Type} {x : α}

/-! ## A separator -/

section Cut

variable [DecidableEq α]

theorem length_splitOn (x : α) (l : List α) : (l.splitOn x).length = l.count x + 1 := by
  induction l with
  | nil => simp
  | cons a l ih =>
    rw [List.splitOn_cons_eq_if_modifyHead, List.count_cons]
    split
    · rw [List.length_cons, ih]
    · rw [List.length_modifyHead, ih, Nat.add_zero]

theorem count_intercalate {ls : List (List α)} (h : ls ≠ []) :
    ([x].intercalate ls).count x + 1 = ls.length + (ls.map (List.count x)).sum := by
  induction ls with
  | nil => exact absurd rfl h
  | cons l ls ih =>
    cases ls with
    | nil => simp [Nat.add_comm]
    | cons l' ls =>
      have := ih (List.cons_ne_nil l' ls)
      rw [List.intercalate_cons_cons, List.count_append, List.count_append, List.count_singleton_self,
        List.length_cons, List.map_cons, List.sum_cons]
      omega

/-- More pieces than there were means that a piece was cut. -/
theorem length_splitOn_intercalate_iff {ls : List (List α)} (h : ls ≠ []) :
    (([x].intercalate ls).splitOn x).length = ls.length ↔ ∀ l ∈ ls, x ∉ l := by
  constructor
  · intro hlen l hl hx
    have hcount := count_intercalate (x := x) h
    rw [length_splitOn] at hlen
    have hpos := List.count_pos_iff.mpr hx
    have hle := List.single_le_sum (fun _ _ => Nat.zero_le _) _
      (List.mem_map_of_mem (f := List.count x) hl)
    omega
  · intro hnone
    rw [List.splitOn_intercalate _ hnone h]

end Cut

/-! ## A text without the separator -/

theorem infix_append_cons_iff {t a b : List α} (hx : x ∉ t) :
    t <:+: a ++ x :: b ↔ t <:+: a ∨ t <:+: b := by
  constructor
  · rintro ⟨p, s, h⟩
    obtain ⟨a', ha, -⟩ | ⟨c, hpt, hb⟩ := List.append_eq_append_iff.mp h
    · exact .inl ⟨p, a', ha.symm⟩
    cases c with
    | nil => exact .inl ⟨p, [], by rw [hpt, List.append_nil, List.append_nil]⟩
    | cons y c =>
      obtain ⟨rfl, rfl⟩ := List.cons.inj hb
      obtain ⟨a', -, rfl⟩ | ⟨d, -, hd⟩ := List.append_eq_append_iff.mp hpt
      · exact absurd (by simp) hx
      cases d with
      | nil => exact absurd (by rw [← show x :: c = t from hd]; exact List.mem_cons_self) hx
      | cons z d =>
        obtain ⟨-, rfl⟩ := List.cons.inj hd
        exact .inr ⟨d, s, rfl⟩
  · rintro (h | h)
    · exact h.trans (List.prefix_append a _).isInfix
    · exact h.trans ((List.suffix_cons x b).isInfix.trans (List.suffix_append a _).isInfix)

theorem infix_intercalate_iff {t : List α} (ht : t ≠ []) (hx : x ∉ t) (ls : List (List α)) :
    t <:+: [x].intercalate ls ↔ ∃ l ∈ ls, t <:+: l := by
  induction ls with
  | nil => simp [List.intercalate_nil, ht]
  | cons l ls ih =>
    cases ls with
    | nil => simp
    | cons l' ls =>
      rw [List.intercalate_cons_cons, List.append_assoc, List.singleton_append,
        infix_append_cons_iff hx, ih]
      simp only [List.exists_mem_cons_iff]

/-! ## Lines -/

/-- A text in front of a line end gives a line, and one more for each line end in it. -/
theorem length_lines_append (l r : Bytes) : (lines r).length + 1 ≤ (lines (l ++ crlf ++ r)).length ∧
    (crlf <:+: l → (lines r).length + 2 ≤ (lines (l ++ crlf ++ r)).length) := by
  induction hn : l.length using Nat.strong_induction_on generalizing l with
  | _ n ih =>
    obtain h | ⟨l₁, l₂, rfl, h₁⟩ := cut_crlf l
    · rw [lines_cons h, List.length_cons]
      exact ⟨le_rfl, fun hc => absurd hc h⟩
    · have hlt : l₂.length < n := by
        rw [← hn]
        simp only [crlf, List.length_append, List.length_cons, List.length_nil]
        omega
      have hmore := (ih _ hlt l₂ rfl).1
      rw [List.append_assoc (l₁ ++ crlf), List.append_assoc (l₁ ++ crlf), lines_cons h₁,
        List.length_cons]
      exact ⟨by omega, fun _ => by omega⟩

theorem length_lines_flatMap_iff (ls : List Bytes) :
    (lines (ls.flatMap (· ++ crlf))).length = ls.length ↔ ∀ l ∈ ls, ¬ crlf <:+: l := by
  constructor
  · -- No line is lost, so that one with a line end in it makes too many.
    have hmany : ∀ ls : List Bytes, ls.length ≤ (lines (ls.flatMap (· ++ crlf))).length ∧
        ((∃ l ∈ ls, crlf <:+: l) → ls.length < (lines (ls.flatMap (· ++ crlf))).length) := by
      intro ls
      induction ls with
      | nil => simp
      | cons l ls ih =>
        obtain ⟨hle, hlt⟩ := length_lines_append l (ls.flatMap (· ++ crlf))
        rw [List.flatMap_cons, List.length_cons, List.exists_mem_cons_iff]
        refine ⟨by omega, fun h => h.elim (fun hl => ?_) fun hls => ?_⟩
        · have := hlt hl
          omega
        · have := ih.2 hls
          omega
    intro hlen l hl hc
    have := (hmany ls).2 ⟨l, hl, hc⟩
    omega
  · intro h
    have hl := (lines_join h (t := []) (by decide)).1
    rw [List.append_nil] at hl
    rw [hl]

/-! ## Reading -/

theorem mapM_eq_some_iff {β : Type} {f : α → Option β} {l : List α} {l' : List β} :
    l.mapM f = some l' ↔ List.Forall₂ (fun a b => f a = some b) l l' := by
  induction l generalizing l' with
  | nil => simp [eq_comm]
  | cons a l ih =>
    rw [List.mapM_cons, List.forall₂_cons_left_iff]
    simp only [Option.bind_eq_bind, Option.bind_eq_some_iff, Option.pure_def, Option.some.injEq, ← ih]
    constructor
    · rintro ⟨b, hb, bs, hbs, rfl⟩
      exact ⟨b, bs, hb, hbs, rfl⟩
    · rintro ⟨b, bs, hb, hbs, rfl⟩
      exact ⟨b, hb, bs, hbs, rfl⟩

end Lib
end CmakeFrame
