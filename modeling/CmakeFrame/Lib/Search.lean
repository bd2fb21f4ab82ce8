import CmakeFrame.Lib.Decimal

/-!
# Searching a byte string

* `findSub t s`: the position of the first occurrence of `t` in `s`.
* `findByte c s`: the same for one element, as the character loops of C code compute it.
* `crlf`: the line end; a text without one, followed by one, is one line (`findSub_crlf`).
* `lines s`: the lines of `s`, each ended by CR LF; what follows the last one is dropped.
* `lineTail s`: that rest; `lines_lineTail`: a text is its lines and the rest; `lines_join`: the lines
  and the rest of lines and a rest. `pieces s` counts the rest as a line unless it is empty;
  `pieces_append`: text behind whole lines is one more piece.
-/

namespace CmakeFrame
namespace Lib

section Generic

variable {α : Type} [DecidableEq α]

/-- The position of the first `c`. -/
def findByte (c : α) : List α → Option Nat
  | [] => none
  | a :: s => if a = c then some 0 else (findByte c s).map (· + 1)

/-- The position of the first occurrence of `t`. -/
def findSub (t : List α) : List α → Option Nat
  | [] => if t = [] then some 0 else none
  | a :: s => if t.isPrefixOf (a :: s) then some 0 else (findSub t s).map (· + 1)

/-- The first `c` stands behind a text without one. -/
theorem findByte_append {c : α} {f : List α} (h : c ∉ f) (r : List α) :
    findByte c (f ++ c :: r) = some f.length := by
  induction f with
  | nil => simp [findByte]
  | cons a f ih =>
    simp only [List.mem_cons, not_or] at h
    simp [findByte, Ne.symm h.1, ih h.2]

theorem findByte_eq_none {c : α} {s : List α} : findByte c s = none ↔ c ∉ s := by
  induction s with
  | nil => simp [findByte]
  | cons a s ih =>
    unfold findByte
    split
    · rename_i h; simp [h]
    · rename_i h; simp [ih, Ne.symm h]

/-- A position that `findByte` returns splits the text at its first `c`. -/
theorem findByte_eq_some {c : α} {s : List α} {i : Nat} (h : findByte c s = some i) :
    s = s.take i ++ c :: s.drop (i + 1) ∧ c ∉ s.take i := by
  induction s generalizing i with
  | nil => simp [findByte] at h
  | cons a s ih =>
    unfold findByte at h
    split at h
    · rename_i hac
      cases h
      simp [hac]
    · rename_i hac
      obtain ⟨j, hj, rfl⟩ := Option.map_eq_some_iff.mp h
      obtain ⟨h1, h2⟩ := ih hj
      refine ⟨?_, ?_⟩
      · simp only [List.take_succ_cons, List.drop_succ_cons, List.cons_append, List.cons.injEq,
          true_and]
        exact h1
      · simp [List.take_succ_cons, h2, Ne.symm hac]

/-- A position that `findSub` returns is one of an occurrence. -/
theorem findSub_eq_some {t s : List α} {i : Nat} (h : findSub t s = some i) :
    i ≤ s.length ∧ t <+: s.drop i := by
  induction s generalizing i with
  | nil =>
    unfold findSub at h
    split at h
    · rename_i ht; cases h; simp [ht]
    · cases h
  | cons a s ih =>
    unfold findSub at h
    split at h
    · rename_i hp
      cases h
      exact ⟨Nat.zero_le _, List.isPrefixOf_iff_prefix.mp hp⟩
    · obtain ⟨j, hj, rfl⟩ := Option.map_eq_some_iff.mp h
      obtain ⟨h1, h2⟩ := ih hj
      exact ⟨by simpa using h1, by simpa using h2⟩

/-- An occurrence behind `f` is found at `f.length` at the latest. -/
theorem findSub_le (t f r : List α) : ∃ i ≤ f.length, findSub t (f ++ t ++ r) = some i := by
  induction f with
  | nil =>
    refine ⟨0, Nat.le_refl _, ?_⟩
    cases h : [] ++ t ++ r with
    | nil => simp_all [findSub]
    | cons a s =>
      have : t <+: a :: s := by rw [← h]; simp
      simp [findSub, List.isPrefixOf_iff_prefix.mpr this]
  | cons a f ih =>
    obtain ⟨i, hi, he⟩ := ih
    by_cases hp : t.isPrefixOf (a :: (f ++ t ++ r)) = true
    · exact ⟨0, Nat.zero_le _, by simp only [List.cons_append, findSub, hp, if_true]⟩
    · refine ⟨i + 1, by simpa using hi, ?_⟩
      simp only [List.cons_append, findSub, hp, he]
      rfl

theorem findSub_eq_none {t s : List α} (h : findSub t s = none) : ¬ t <:+: s := by
  rintro ⟨f, r, rfl⟩
  obtain ⟨i, -, hi⟩ := findSub_le t f r
  rw [hi] at h
  cases h

theorem findSub_isSome {t s : List α} : (findSub t s).isSome = true ↔ t <:+: s := by
  constructor
  · intro h
    obtain ⟨i, hi⟩ := Option.isSome_iff_exists.mp h
    obtain ⟨-, hp⟩ := findSub_eq_some hi
    exact hp.isInfix.trans (List.drop_suffix i s).isInfix
  · intro h
    by_contra hno
    rw [Option.not_isSome_iff_eq_none] at hno
    exact findSub_eq_none hno h

end Generic

/-! ## Lines -/

/-- The line end, CR LF. -/
def crlf : Bytes := [13, 10]

/-- A text without CR LF, followed by CR LF, ends there. A CR at its end does not matter: the CR
behind it is not LF. -/
theorem findSub_crlf {f : Bytes} (h : ¬ crlf <:+: f) (r : Bytes) :
    findSub crlf (f ++ crlf ++ r) = some f.length := by
  induction f with
  | nil => simp [findSub, crlf]
  | cons a f ih =>
    have hf : ¬ crlf <:+: f := fun hc => h (hc.trans (List.infix_cons (List.infix_refl f)))
    have hp : crlf.isPrefixOf (a :: (f ++ crlf ++ r)) = false := by
      rw [Bool.eq_false_iff, ne_eq, List.isPrefixOf_iff_prefix]
      intro hc
      cases f with
      | nil => simp [crlf] at hc
      | cons b f =>
        simp only [crlf, List.cons_append, List.cons_prefix_cons] at hc
        obtain ⟨rfl, rfl, -⟩ := hc
        exact h ⟨[], f, rfl⟩
    simp only [List.cons_append, findSub, hp, ih hf]
    rfl

/-- A text that holds a CR LF ends before its own end. -/
theorem findSub_crlf_lt {f : Bytes} (h : crlf <:+: f) (r : Bytes) :
    ∃ i < f.length, findSub crlf (f ++ r) = some i := by
  obtain ⟨a, b, rfl⟩ := h
  obtain ⟨i, hi, he⟩ := findSub_le crlf a (b ++ r)
  refine ⟨i, ?_, by simpa using he⟩
  simp only [crlf, List.length_append, List.length_cons, List.length_nil]
  omega

/-- The lines of `s`, found one after the other. Each takes two bytes at least, so
`fuel = s.length + 1` turns are enough. -/
def splitLines : Nat → Bytes → List Bytes
  | 0, _ => []
  | fuel + 1, s =>
    match findSub crlf s with
    | none => []
    | some n => s.take n :: splitLines fuel (s.drop (n + 2))

/-- The CR LF-delimited lines of `s`, without their CR LF. -/
def lines (s : Bytes) : List Bytes := splitLines (s.length + 1) s

theorem splitLines_fuel {fuel fuel' : Nat} {s : Bytes} (h : s.length < fuel)
    (h' : s.length < fuel') : splitLines fuel s = splitLines fuel' s := by
  induction fuel generalizing s fuel' with
  | zero => omega
  | succ fuel ih =>
    obtain ⟨fuel', rfl⟩ : ∃ k, fuel' = k + 1 := ⟨fuel' - 1, by omega⟩
    simp only [splitLines]
    cases hn : findSub crlf s with
    | none => rfl
    | some n =>
      have hp := (findSub_eq_some hn).2.length_le
      have hlt : (s.drop (n + 2)).length < s.length := by
        simp only [crlf, List.length_cons, List.length_nil, List.length_drop] at hp ⊢
        omega
      exact congrArg _ (ih (by omega) (by omega))

theorem lines_eq {fuel : Nat} {s : Bytes} (h : s.length < fuel) : splitLines fuel s = lines s :=
  splitLines_fuel h (Nat.lt_succ_self _)

/-- The first line. -/
theorem lines_cons {l : Bytes} (h : ¬ crlf <:+: l) (r : Bytes) :
    lines (l ++ crlf ++ r) = l :: lines r := by
  rw [lines]
  simp only [splitLines, findSub_crlf h]
  have hd : (l ++ crlf ++ r).drop (l.length + 2) = r := List.drop_left' (by simp [crlf])
  rw [hd, lines_eq (by simp [crlf]; omega), List.append_assoc, List.take_left]

theorem lines_nil : lines [] = [] := rfl

/-- Whole lines, one after the other. -/
theorem lines_flatMap {α : Type} (line : α → Bytes) {xs : List α}
    (h : ∀ x ∈ xs, ¬ crlf <:+: line x) (r : Bytes) :
    lines (xs.flatMap (fun x => line x ++ crlf) ++ r) = xs.map line ++ lines r := by
  induction xs with
  | nil => rfl
  | cons x xs ih =>
    rw [List.flatMap_cons, List.append_assoc, lines_cons (h x (by simp)),
      ih fun y hy => h y (by simp [hy]), List.map_cons, List.cons_append]

/-- A text has no CR LF, or it starts with a line that ends at its first one. -/
theorem cut_crlf (s : Bytes) : ¬ crlf <:+: s ∨ ∃ l r, s = l ++ crlf ++ r ∧ ¬ crlf <:+: l := by
  cases hn : findSub crlf s with
  | none => exact .inl (findSub_eq_none hn)
  | some n =>
    obtain ⟨hle, r, hr⟩ := findSub_eq_some hn
    refine .inr ⟨s.take n, r, ?_, fun hc => ?_⟩
    · rw [List.append_assoc, hr, List.take_append_drop]
    · obtain ⟨i, hi, he⟩ := findSub_crlf_lt hc (s.drop n)
      rw [List.take_append_drop, hn, Option.some.injEq] at he
      rw [List.length_take, Nat.min_eq_left hle] at hi
      omega

theorem lines_of_notIn {s : Bytes} (h : ¬ crlf <:+: s) : lines s = [] := by
  have hn : findSub crlf s = none := by
    rw [← Option.not_isSome_iff_eq_none]
    exact fun hs => h (findSub_isSome.mp hs)
  simp only [lines, splitLines, hn]

/-- What follows the last line. -/
def lineTail (s : Bytes) : Bytes := s.drop ((lines s).flatMap (· ++ crlf)).length

/-- The lines of lines. -/
theorem lines_join {ls : List Bytes} (hls : ∀ l ∈ ls, ¬ crlf <:+: l) {t : Bytes}
    (ht : ¬ crlf <:+: t) :
    lines (ls.flatMap (· ++ crlf) ++ t) = ls ∧ lineTail (ls.flatMap (· ++ crlf) ++ t) = t := by
  have hl : lines (ls.flatMap (· ++ crlf) ++ t) = ls := by
    have := lines_flatMap id hls t
    rw [lines_of_notIn ht, List.append_nil, List.map_id] at this
    exact this
  refine ⟨hl, ?_⟩
  rw [lineTail, hl, List.drop_left]

/-- A text is cut at its leftmost CR LFs: the lines, and a rest, with no CR LF in any of them. -/
theorem lines_lineTail (s : Bytes) :
    s = (lines s).flatMap (· ++ crlf) ++ lineTail s ∧ (∀ l ∈ lines s, ¬ crlf <:+: l) ∧
      ¬ crlf <:+: lineTail s := by
  suffices h : ∃ (ls : List Bytes) (t : Bytes), s = ls.flatMap (· ++ crlf) ++ t ∧
      (∀ l ∈ ls, ¬ crlf <:+: l) ∧ ¬ crlf <:+: t by
    obtain ⟨ls, t, rfl, hls, ht⟩ := h
    obtain ⟨h1, h2⟩ := lines_join hls ht
    rw [h1, h2]
    exact ⟨rfl, hls, ht⟩
  induction hn : s.length using Nat.strong_induction_on generalizing s with
  | _ n ih =>
    rcases cut_crlf s with h | ⟨l, r, rfl, hl⟩
    · exact ⟨[], s, rfl, by simp, h⟩
    · have hlt : r.length < n := by
        rw [← hn]
        simp only [crlf, List.length_append, List.length_cons, List.length_nil]
        omega
      obtain ⟨ls, t, rfl, hls, ht⟩ := ih _ hlt r rfl
      refine ⟨l :: ls, t, by simp, ?_, ht⟩
      exact List.forall_mem_cons.mpr ⟨hl, hls⟩

/-- The lines, and the rest if there is one. -/
def pieces (s : Bytes) : List Bytes := lines s ++ if lineTail s = [] then [] else [lineTail s]

theorem pieces_join {ls : List Bytes} (hls : ∀ l ∈ ls, ¬ crlf <:+: l) {t : Bytes}
    (ht : ¬ crlf <:+: t) :
    pieces (ls.flatMap (· ++ crlf) ++ t) = ls ++ if t = [] then [] else [t] := by
  obtain ⟨h1, h2⟩ := lines_join hls ht
  rw [pieces, h1, h2]

/-- A text without a rest gains one piece: a line with its line end, or a rest that is not empty. -/
theorem pieces_append {s l : Bytes} (hs : lineTail s = []) (hl : ¬ crlf <:+: l) :
    pieces (s ++ (l ++ crlf)) = pieces s ++ [l] ∧ (l ≠ [] → pieces (s ++ l) = pieces s ++ [l]) := by
  obtain ⟨he, hls, -⟩ := lines_lineTail s
  have hp : pieces s = lines s := by rw [pieces, hs, if_pos rfl, List.append_nil]
  rw [hs, List.append_nil] at he
  constructor
  · have hall : ∀ l' ∈ lines s ++ [l], ¬ crlf <:+: l' := by
      intro l' hm
      rcases List.mem_append.mp hm with hm | hm
      · exact hls l' hm
      · rwa [List.mem_singleton.mp hm]
    have h := pieces_join hall (t := []) (by simp [crlf])
    rw [List.flatMap_append, ← he, if_pos rfl, List.append_nil, List.append_nil] at h
    rw [hp, ← h]
    simp
  · intro hne
    have h := pieces_join hls hl
    rwa [← he, if_neg hne, ← hp] at h

/-- A text of whole lines. -/
def Whole (s : Bytes) : Prop :=
  ∃ ls : List Bytes, (∀ l ∈ ls, ¬ crlf <:+: l) ∧ s = ls.flatMap (· ++ crlf)

theorem whole_nil : Whole [] := ⟨[], by simp, rfl⟩

/-- One more line behind whole lines. -/
theorem Whole.append {s l : Bytes} (h : Whole s) (hl : ¬ crlf <:+: l) :
    Whole (s ++ (l ++ crlf)) ∧ lines (s ++ (l ++ crlf)) = lines s ++ [l] := by
  obtain ⟨ls, hls, rfl⟩ := h
  refine ⟨⟨ls ++ [l], ?_, by simp⟩, ?_⟩
  · intro l' hl'
    rcases List.mem_append.mp hl' with h | h
    · exact hls l' h
    · rw [List.mem_singleton.mp h]
      exact hl
  · have h1 := lines_flatMap id hls (l ++ crlf)
    have h2 := lines_flatMap id hls []
    have h3 := lines_cons hl []
    simp only [id_eq, List.map_id, List.append_nil, lines_nil] at h1 h2 h3
    rw [h1, h2, h3]

end Lib
end CmakeFrame
