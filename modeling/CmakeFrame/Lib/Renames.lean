import Mathlib.Logic.Function.Basic

/-!
# Renaming a list of files

Names stand for files and directories. A run of `rename` moves the files of a list, each to a name
that is a function of its own one, and no target is on the list.

* `Names.rename`: the call of POSIX for a file, with a flag for a file that it replaces.
* `renameAll`: the calls for a list.
* `renameAll_frame`, `renameAll_source`, `renameAll_target`: what becomes of a name.
* `renameAll_replaces`, `renameAll_free`: whether a file is replaced.
-/

namespace CmakeFrame
namespace Lib

/-- What a name stands for. -/
inductive Node (γ : Type) where
  | file (content : γ)
  | dir
  deriving DecidableEq, Repr

/-- The names of a file system. -/
abbrev Names (ν γ : Type) := ν → Option (Node γ)

variable {ν γ : Type} [DecidableEq ν]

/-- `rename(a, b)` of a file, and whether a file `b` is replaced. There has to be a file `a`, and `b`
cannot be a directory. -/
def Names.rename (n : Names ν γ) (a b : ν) : Names ν γ × Bool :=
  match n a, n b with
  | some (.file c), none => (Function.update (Function.update n a none) b (some (.file c)), false)
  | some (.file c), some (.file _) =>
    (Function.update (Function.update n a none) b (some (.file c)), true)
  | _, _ => (n, false)

/-- `rename(s, t s)` for each `s` of the list. -/
def renameAll (t : ν → ν) : List ν → Names ν γ → Names ν γ × Bool
  | [], n => (n, false)
  | s :: l, n =>
    let r := renameAll t l (n.rename s (t s)).1
    (r.1, (n.rename s (t s)).2 || r.2)

/-! ## One call -/

section Rename

variable {n : Names ν γ} {a b p : ν} {c : γ}

theorem rename_missing (ha : n a = none) : n.rename a b = (n, false) := by
  rw [Names.rename, ha]

theorem rename_onto_dir (hb : n b = some .dir) : n.rename a b = (n, false) := by
  rw [Names.rename, hb]
  cases n a with
  | none => rfl
  | some x => cases x <;> rfl

theorem rename_moves (ha : n a = some (.file c)) (hb : n b ≠ some .dir) :
    (n.rename a b).1 = Function.update (Function.update n a none) b (some (.file c)) := by
  rw [Names.rename, ha]
  cases hx : n b with
  | none => rfl
  | some x =>
    cases x with
    | file c' => rfl
    | dir => exact absurd hx hb

theorem rename_replaces {c' : γ} (ha : n a = some (.file c)) (hb : n b = some (.file c')) :
    (n.rename a b).2 = true := by
  rw [Names.rename, ha, hb]

theorem rename_free (hb : n b = none) : (n.rename a b).2 = false := by
  rw [Names.rename, hb]
  cases n a with
  | none => rfl
  | some x => cases x <;> rfl

/-- Either nothing happens, or a file is moved. -/
theorem rename_cases (n : Names ν γ) (a b : ν) : (n.rename a b).1 = n ∨
    ∃ c, n a = some (.file c) ∧ n b ≠ some .dir ∧
      (n.rename a b).1 = Function.update (Function.update n a none) b (some (.file c)) := by
  by_cases hb : n b = some .dir
  · exact .inl (by rw [rename_onto_dir hb])
  · cases ha : n a with
    | none => exact .inl (by rw [rename_missing ha])
    | some x =>
      cases x with
      | file c => exact .inr ⟨c, rfl, hb, rename_moves ha hb⟩
      | dir => exact .inl (by rw [Names.rename, ha])

/-- Directories stay, and none come up. -/
theorem rename_dir : (n.rename a b).1 p = some .dir ↔ n p = some .dir := by
  obtain h | ⟨c, ha, hb, h⟩ := rename_cases n a b
  · rw [h]
  · rw [h]
    by_cases hpb : p = b
    · subst hpb
      rw [Function.update_self]
      exact iff_of_false (by simp) hb
    · rw [Function.update_of_ne hpb]
      by_cases hpa : p = a
      · subst hpa
        rw [Function.update_self, ha]
        exact iff_of_false (by simp) (by simp)
      · rw [Function.update_of_ne hpa]

/-- Other names keep what they stand for. -/
theorem rename_frame (hpa : p = a → n b = some .dir) (hpb : p = b → n a = none ∨ n p = some .dir) :
    (n.rename a b).1 p = n p := by
  obtain h | ⟨c, ha, hb, h⟩ := rename_cases n a b
  · rw [h]
  · have hne : p ≠ b := by
      rintro rfl
      rcases hpb rfl with hx | hx
      · rw [ha] at hx
        cases hx
      · exact hb hx
    rw [h, Function.update_of_ne hne, Function.update_of_ne fun hx => hb (hpa hx)]

/-- A file that is not the source is a file afterwards. -/
theorem rename_file (hpa : p ≠ a) (hp : ∃ c, n p = some (.file c)) :
    ∃ c, (n.rename a b).1 p = some (.file c) := by
  obtain h | ⟨c, ha, hb, h⟩ := rename_cases n a b
  · rwa [h]
  · rw [h]
    by_cases hpb : p = b
    · exact ⟨c, by rw [hpb, Function.update_self]⟩
    · rwa [Function.update_of_ne hpb, Function.update_of_ne hpa]

/-- The source of a file that can be moved is free afterwards. -/
theorem rename_source (hab : a ≠ b) (ha : n a ≠ some .dir) (hb : n b ≠ some .dir) :
    (n.rename a b).1 a = none := by
  cases hx : n a with
  | none =>
    rw [rename_missing hx]
    exact hx
  | some x =>
    cases x with
    | file c => rw [rename_moves hx hb, Function.update_of_ne hab, Function.update_self]
    | dir => exact absurd hx ha

end Rename

/-! ## A list of calls -/

section RenameAll

variable {t : ν → ν} {l : List ν} {n : Names ν γ}

/-- A name stays as it is if it is on the list only with a directory for a target, and a target only
of files that are not there, or a directory. -/
theorem renameAll_frame (hl : ∀ s ∈ l, t s ∉ l) {p : ν} (hp : p ∈ l → n (t p) = some .dir)
    (ht : ∀ s ∈ l, t s = p → n s = none ∨ n p = some .dir) : (renameAll t l n).1 p = n p := by
  induction l generalizing n with
  | nil => rfl
  | cons a l ih =>
    have hstep : (n.rename a (t a)).1 p = n p := by
      refine rename_frame ?_ ?_
      · rintro rfl
        exact hp List.mem_cons_self
      · intro hpa
        exact ht a List.mem_cons_self hpa.symm
    refine Eq.trans (ih ?_ ?_ ?_) hstep
    · intro s hs hmem
      exact hl s (List.mem_cons_of_mem _ hs) (List.mem_cons_of_mem _ hmem)
    · intro hmem
      rw [rename_dir]
      exact hp (List.mem_cons_of_mem _ hmem)
    · intro s hs hsp
      rw [hstep]
      refine (ht s (List.mem_cons_of_mem _ hs) hsp).imp_left fun hnone => ?_
      by_cases hsa : s = a
      · rw [rename_missing (hsa ▸ hnone)]
        exact hnone
      · rw [rename_frame (fun h => absurd h hsa), hnone]
        intro h
        exact absurd (h ▸ List.mem_cons_of_mem _ hs) (hl a List.mem_cons_self)

/-- A file that can be moved is gone from its name. -/
theorem renameAll_source (hl : ∀ s ∈ l, t s ∉ l) {s : ν} (hs : s ∈ l) (hfile : n s ≠ some .dir)
    (ht : n (t s) ≠ some .dir) : (renameAll t l n).1 s = none := by
  induction l generalizing n with
  | nil => cases hs
  | cons a l ih =>
    have hl' : ∀ s ∈ l, t s ∉ l := fun s hs hmem =>
      hl s (List.mem_cons_of_mem _ hs) (List.mem_cons_of_mem _ hmem)
    by_cases hmem : s ∈ l
    · exact ih hl' hmem (mt rename_dir.mp hfile) (mt rename_dir.mp ht)
    · obtain rfl : s = a := (List.mem_cons.mp hs).resolve_right hmem
      have hne : s ≠ t s := fun h => hl s hs (h ▸ hs)
      refine (renameAll_frame hl' (fun h => absurd h hmem) ?_).trans (rename_source hne hfile ht)
      intro s' hs' h
      exact absurd (h ▸ hs) (hl s' (List.mem_cons_of_mem _ hs'))

/-- A file whose target is free, and no target of another file, is found there. -/
theorem renameAll_target (hl : ∀ s ∈ l, t s ∉ l) {s : ν} (hs : s ∈ l) {c : γ}
    (hc : n s = some (.file c)) (hfree : n (t s) = none) (hone : ∀ s' ∈ l, t s' = t s → s' = s) :
    (renameAll t l n).1 (t s) = some (.file c) := by
  induction l generalizing n with
  | nil => cases hs
  | cons a l ih =>
    have hl' : ∀ s ∈ l, t s ∉ l := fun s hs hmem =>
      hl s (List.mem_cons_of_mem _ hs) (List.mem_cons_of_mem _ hmem)
    have hts : n (t s) ≠ some .dir := by rw [hfree]; simp
    by_cases hsa : s = a
    · subst hsa
      have hmoved : (n.rename s (t s)).1 (t s) = some (.file c) := by
        rw [rename_moves hc hts, Function.update_self]
      refine Eq.trans (renameAll_frame hl' ?_ ?_) hmoved
      · intro hmem
        exact absurd (List.mem_cons_of_mem _ hmem) (hl s hs)
      · intro s' hs' h
        obtain rfl := hone s' (List.mem_cons_of_mem _ hs') h
        have hne : s' ≠ t s' := fun h => hl s' hs (h ▸ hs)
        exact .inl (rename_source hne (by rw [hc]; simp) hts)
    · have hmem : s ∈ l := (List.mem_cons.mp hs).resolve_left hsa
      refine ih hl' hmem ?_ ?_ fun s' hs' => hone s' (List.mem_cons_of_mem _ hs')
      · rw [rename_frame (fun h => absurd h hsa), hc]
        intro h
        exact absurd (h ▸ hs) (hl a List.mem_cons_self)
      · rw [rename_frame, hfree]
        · intro h
          exact absurd (h ▸ List.mem_cons_self) (hl s hs)
        · intro h
          exact absurd (hone a List.mem_cons_self h.symm).symm hsa

/-- A file whose target is a file replaces one. -/
theorem renameAll_replaces (hl : ∀ s ∈ l, t s ∉ l) {s : ν} (hs : s ∈ l)
    (hc : ∃ c, n s = some (.file c)) (ht : ∃ c, n (t s) = some (.file c)) :
    (renameAll t l n).2 = true := by
  induction l generalizing n with
  | nil => cases hs
  | cons a l ih =>
    have hl' : ∀ s ∈ l, t s ∉ l := fun s hs hmem =>
      hl s (List.mem_cons_of_mem _ hs) (List.mem_cons_of_mem _ hmem)
    show ((n.rename a (t a)).2 || _) = true
    by_cases hsa : s = a
    · subst hsa
      obtain ⟨c, hc⟩ := hc
      obtain ⟨c', ht⟩ := ht
      rw [rename_replaces hc ht, Bool.true_or]
    · have hmem : s ∈ l := (List.mem_cons.mp hs).resolve_left hsa
      rw [ih hl' hmem (rename_file hsa hc) (rename_file ?_ ht), Bool.or_true]
      intro h
      exact hl s hs (h ▸ List.mem_cons_self)

/-- No file is replaced if each target is a directory, or free and the target of one file only. -/
theorem renameAll_free (hl : ∀ s ∈ l, t s ∉ l) (hfile : ∀ s ∈ l, n s ≠ some .dir)
    (hfree : ∀ s ∈ l, n s = none ∨ n (t s) = some .dir ∨
      n (t s) = none ∧ ∀ s' ∈ l, t s' = t s → s' = s) : (renameAll t l n).2 = false := by
  induction l generalizing n with
  | nil => rfl
  | cons a l ih =>
    have hl' : ∀ s ∈ l, t s ∉ l := fun s hs hmem =>
      hl s (List.mem_cons_of_mem _ hs) (List.mem_cons_of_mem _ hmem)
    have hhead : (n.rename a (t a)).2 = false := by
      obtain ha | hdir | ⟨hnone, -⟩ := hfree a List.mem_cons_self
      · rw [rename_missing ha]
      · rw [rename_onto_dir hdir]
      · exact rename_free hnone
    show ((n.rename a (t a)).2 || _) = false
    rw [hhead, Bool.false_or]
    refine ih hl' ?_ ?_
    · intro s hs
      exact mt rename_dir.mp (hfile s (List.mem_cons_of_mem _ hs))
    · intro s hs
      have hs' : s ∈ a :: l := List.mem_cons_of_mem _ hs
      have hne : ∀ s' ∈ a :: l, s ≠ t s' := fun s' hm h => hl s' hm (h ▸ hs')
      obtain hnone | hdir | ⟨hnone, hone⟩ := hfree s hs'
      · left
        by_cases hsa : s = a
        · rw [rename_missing (hsa ▸ hnone)]
          exact hnone
        · rw [rename_frame (fun h => absurd h hsa), hnone]
          exact fun h => absurd h (hne a List.mem_cons_self)
      · exact .inr (.inl (rename_dir.mpr hdir))
      · by_cases hsa : s = a
        · subst hsa
          exact .inl (rename_source (hne s hs') (hfile s hs') (by rw [hnone]; simp))
        · refine .inr (.inr ⟨?_, fun s' hm => hone s' (List.mem_cons_of_mem _ hm)⟩)
          rw [rename_frame, hnone]
          · intro h
            exact absurd (h ▸ List.mem_cons_self) (hl s hs')
          · intro h
            exact absurd (hone a List.mem_cons_self h.symm).symm hsa

end RenameAll

end Lib
end CmakeFrame
