import CmakeFrame.Lib.Search

/-!
# Files behind handles

The part of a POSIX file system that append-only writers use, over any type `ν` of file names.
A file is a number, given out in creation order: what an open stream stands for. A name points to
at most one file; a file without a name has been replaced by a rename and is gone for good.

* `Disk.fopen`, `Disk.append`, `Disk.rename`: `fopen(…, "ab+")`, `fwrite`, `rename`. Whether a call
  fails is the caller's business; these are the calls that succeed.
* `Disk.Grows`: nothing but new empty files; `fopen` and `rename` do no more to the contents.
* `Disk.Named`: every file still has its name, so that nothing is lost.
* `Disk.Unique`: a name is the name of one file; all calls keep that.
-/

namespace CmakeFrame
namespace Lib

/-- The files created so far, `0` to `size - 1`, with their names and contents. `opened` is the
history of the names that were opened. -/
structure Disk (ν : Type) where
  size : Nat
  name : Nat → Option ν
  data : Nat → Bytes
  opened : List ν

namespace Disk

variable {ν : Type}

/-- No file yet. -/
def empty : Disk ν := ⟨0, fun _ => none, fun _ => [], []⟩

/-- `fwrite` of `s` to the stream of file `h`. -/
def append (d : Disk ν) (h : Nat) (s : Bytes) : Disk ν :=
  { d with data := Function.update d.data h (d.data h ++ s) }

/-- `d'` is `d` with, at most, new empty files. -/
structure Grows (d d' : Disk ν) : Prop where
  size_le : d.size ≤ d'.size
  data_eq : ∀ i < d.size, d'.data i = d.data i
  data_new : ∀ i < d'.size, d.size ≤ i → d'.data i = []

theorem Grows.refl (d : Disk ν) : Grows d d :=
  ⟨Nat.le_refl _, fun _ _ => rfl, fun i h1 h2 => absurd h1 (by omega)⟩

theorem Grows.trans {d₁ d₂ d₃ : Disk ν} (h : Grows d₁ d₂) (h' : Grows d₂ d₃) : Grows d₁ d₃ := by
  refine ⟨Nat.le_trans h.size_le h'.size_le, fun i hi => ?_, fun i hi hle => ?_⟩
  · rw [h'.data_eq i (Nat.lt_of_lt_of_le hi h.size_le), h.data_eq i hi]
  · by_cases h2 : i < d₂.size
    · rw [h'.data_eq i h2, h.data_new i h2 hle]
    · exact h'.data_new i hi (by omega)

/-- Every file has a name. -/
def Named (d : Disk ν) : Prop := ∀ i < d.size, d.name i ≠ none

/-- No file is called `n`. -/
def Free (d : Disk ν) (n : ν) : Prop := ∀ i < d.size, d.name i ≠ some n

/-- A name points to one file at most. -/
def Unique (d : Disk ν) : Prop :=
  ∀ i < d.size, ∀ j < d.size, ∀ n, d.name i = some n → d.name j = some n → i = j

theorem unique_empty : (empty : Disk ν).Unique := fun i hi => absurd hi (Nat.not_lt_zero i)

/-! ## What all files hold together -/

section All

variable {β : Type}

/-- Files that hold nothing add nothing. -/
theorem flatMap_range_of_le {g : Nat → List β} {m n : Nat} (hmn : m ≤ n)
    (h : ∀ i < n, m ≤ i → g i = []) : (List.range n).flatMap g = (List.range m).flatMap g := by
  induction n, hmn using Nat.le_induction with
  | base => rfl
  | succ n hmn ih =>
    rw [List.range_succ, List.flatMap_append, ih fun i hi hm => h i (by omega) hm]
    simp [h n (Nat.lt_succ_self n) hmn]

/-- What one file gains, all files together gain. -/
theorem flatMap_range_perm {g g' : Nat → List β} {n h : Nat} {x : List β} (hh : h < n)
    (hg : ∀ i, i ≠ h → g' i = g i) (hx : g' h = g h ++ x) :
    ((List.range n).flatMap g').Perm ((List.range n).flatMap g ++ x) := by
  induction n with
  | zero => exact absurd hh (Nat.not_lt_zero h)
  | succ n ih =>
    simp only [List.range_succ, List.flatMap_append, List.flatMap_cons, List.flatMap_nil,
      List.append_nil]
    by_cases hn : h = n
    · subst hn
      rw [hx, List.append_assoc, List.flatMap_congr fun i hi => hg i ?_]
      have := List.mem_range.mp hi
      omega
    · rw [hg n (Ne.symm hn)]
      refine ((ih (by omega)).append_right _).trans ?_
      rw [List.append_assoc, List.append_assoc]
      exact List.Perm.append_left _ List.perm_append_comm

end All

section Names

variable [DecidableEq ν]

/-- The file that `n` points to. -/
def find? (d : Disk ν) (n : ν) : Option Nat :=
  (List.range d.size).find? (fun i => d.name i = some n)

/-- `fopen(n, "ab+")`: the file called `n`, created if there is none. -/
def fopen (d : Disk ν) (n : ν) : Nat × Disk ν :=
  match d.find? n with
  | some h => (h, { d with opened := d.opened ++ [n] })
  | none => (d.size, ⟨d.size + 1, Function.update d.name d.size (some n),
      Function.update d.data d.size [], d.opened ++ [n]⟩)

/-- `rename(a, b)`: fails if there is no `a`; a file called `b` loses its name. -/
def rename (d : Disk ν) (a b : ν) : Bool × Disk ν :=
  match d.find? a with
  | none => (false, d)
  | some h =>
    (true, { d with name := fun i =>
      if i = h then some b else if d.name i = some b then none else d.name i })

theorem of_find?_eq_some {d : Disk ν} {n : ν} {h : Nat} (hf : d.find? n = some h) :
    h < d.size ∧ d.name h = some n := by
  refine ⟨List.mem_range.mp (List.mem_of_find?_eq_some hf), ?_⟩
  simpa using List.find?_some hf

theorem find?_eq_none {d : Disk ν} {n : ν} : d.find? n = none ↔ d.Free n := by
  simp [find?, Free, List.find?_eq_none]

/-- A name that only file `h` carries points to `h`. -/
theorem find?_eq_some {d : Disk ν} {n : ν} {h : Nat} (hh : h < d.size) (hn : d.name h = some n)
    (hu : ∀ i < d.size, d.name i = some n → i = h) : d.find? n = some h := by
  cases hf : d.find? n with
  | none => exact absurd hn (find?_eq_none.mp hf h hh)
  | some i =>
    obtain ⟨hi, hin⟩ := of_find?_eq_some hf
    rw [hu i hi hin]

@[simp] theorem rename_size (d : Disk ν) (a b : ν) : (d.rename a b).2.size = d.size := by
  unfold rename
  split <;> rfl

@[simp] theorem rename_data (d : Disk ν) (a b : ν) : (d.rename a b).2.data = d.data := by
  unfold rename
  split <;> rfl

@[simp] theorem rename_opened (d : Disk ν) (a b : ν) : (d.rename a b).2.opened = d.opened := by
  unfold rename
  split <;> rfl

/-- A rename of file `h` to a name that no other file has. -/
theorem rename_name {d : Disk ν} {a b : ν} {h : Nat} (hf : d.find? a = some h)
    (hb : ∀ i < d.size, i ≠ h → d.name i ≠ some b) :
    (d.rename a b).1 = true ∧ (d.rename a b).2.name h = some b ∧
      ∀ i < d.size, i ≠ h → (d.rename a b).2.name i = d.name i := by
  unfold rename
  rw [hf]
  refine ⟨rfl, by simp, fun i hi hne => ?_⟩
  simp [hne, hb i hi hne]

/-- Opening a free name creates a file. -/
theorem fopen_free {d : Disk ν} {n : ν} (h : d.Free n) :
    d.fopen n = (d.size, ⟨d.size + 1, Function.update d.name d.size (some n),
      Function.update d.data d.size [], d.opened ++ [n]⟩) := by
  rw [fopen, find?_eq_none.mpr h]

@[simp] theorem fopen_opened (d : Disk ν) (n : ν) : (d.fopen n).2.opened = d.opened ++ [n] := by
  unfold fopen
  split <;> rfl

theorem name_rename {d : Disk ν} {a b : ν} {h : Nat} (hf : d.find? a = some h) (i : Nat) :
    (d.rename a b).2.name i
      = if i = h then some b else if d.name i = some b then none else d.name i := by
  simp [rename, hf]

theorem rename_free {d : Disk ν} {a : ν} (h : d.Free a) (b : ν) : (d.rename a b).2 = d := by
  rw [rename, find?_eq_none.mpr h]

/-- The file that is opened has the name. -/
theorem name_fopen_self (d : Disk ν) (n : ν) : (d.fopen n).2.name (d.fopen n).1 = some n := by
  unfold fopen
  split
  · rename_i h hf
    exact (of_find?_eq_some hf).2
  · simp

/-- Opening a file renames none. -/
theorem name_fopen (d : Disk ν) (n : ν) {i : Nat} (hi : i < d.size) :
    (d.fopen n).2.name i = d.name i := by
  unfold fopen
  split
  · rfl
  · exact Function.update_of_ne (by omega) _ _

/-! ## Contents -/

theorem fopen_grows (d : Disk ν) (n : ν) : Grows d (d.fopen n).2 := by
  unfold fopen
  split
  · exact ⟨Nat.le_refl _, fun _ _ => rfl, fun i h1 h2 => absurd h1 (by simpa using h2)⟩
  · refine ⟨Nat.le_succ _, fun i hi => ?_, fun i hi hle => ?_⟩
    · exact Function.update_of_ne (by omega) _ _
    · have : i = d.size := by simp only at hi; omega
      simp [this]

theorem fopen_lt (d : Disk ν) (n : ν) : (d.fopen n).1 < (d.fopen n).2.size := by
  unfold fopen
  split
  · rename_i h hf
    exact (of_find?_eq_some hf).1
  · exact Nat.lt_succ_self _

theorem rename_grows (d : Disk ν) (a b : ν) : Grows d (d.rename a b).2 :=
  ⟨by simp, by simp, fun i h1 h2 => absurd h1 (by simpa using h2)⟩

/-! ## Names -/

theorem Named.fopen {d : Disk ν} (h : d.Named) (n : ν) : (d.fopen n).2.Named := by
  unfold Disk.fopen
  split
  · exact h
  · intro i hi
    by_cases hs : i = d.size
    · simp [hs]
    · simp only [Function.update_of_ne hs]
      exact h i (by simp only at hi; omega)

/-- A rename to a free name takes no file's name away. -/
theorem Named.rename {d : Disk ν} (h : d.Named) {b : ν} (hb : d.Free b) (a : ν) :
    (d.rename a b).2.Named := by
  unfold Disk.rename
  split
  · exact h
  · intro i hi
    simp only
    split
    · simp
    · rw [if_neg (hb i hi)]
      exact h i hi

theorem Free.fopen {d : Disk ν} {m n : ν} (h : d.Free m) (hne : m ≠ n) : (d.fopen n).2.Free m := by
  unfold Disk.fopen
  split
  · exact h
  · intro i hi
    by_cases hs : i = d.size
    · simp [hs, Ne.symm hne]
    · simp only [Function.update_of_ne hs]
      exact h i (by simp only at hi; omega)

theorem Free.rename {d : Disk ν} {m b : ν} (h : d.Free m) (hne : m ≠ b) (a : ν) :
    (d.rename a b).2.Free m := by
  unfold Disk.rename
  split
  · exact h
  · intro i hi
    simp only
    split
    · simp [Ne.symm hne]
    · split
      · simp
      · exact h i hi

/-! ## A name is the name of one file -/

theorem Unique.find? {d : Disk ν} (h : d.Unique) {n : ν} {i : Nat} (hi : i < d.size)
    (hn : d.name i = some n) : d.find? n = some i :=
  find?_eq_some hi hn fun _ hj hjn => h _ hj _ hi n hjn hn

theorem Unique.fopen {d : Disk ν} (h : d.Unique) (n : ν) : (d.fopen n).2.Unique := by
  cases hf : d.find? n with
  | some i =>
    rw [Disk.fopen, hf]
    exact h
  | none =>
    have hfree := find?_eq_none.mp hf
    rw [fopen_free hfree]
    intro i hi j hj m him hjm
    simp only [Function.update_apply] at him hjm
    have hlt : ∀ k < d.size + 1, k ≠ d.size → k < d.size := by
      intro k hk hne
      omega
    split at him <;> split at hjm
    · rename_i hie hje
      rw [hie, hje]
    · rename_i hie hje
      cases him
      exact absurd hjm (hfree j (hlt j hj hje))
    · rename_i hie hje
      cases hjm
      exact absurd him (hfree i (hlt i hi hie))
    · rename_i hie hje
      exact h i (hlt i hi hie) j (hlt j hj hje) m him hjm

theorem Unique.rename {d : Disk ν} (h : d.Unique) (a b : ν) : (d.rename a b).2.Unique := by
  cases hf : d.find? a with
  | none =>
    rw [rename_free (find?_eq_none.mp hf)]
    exact h
  | some k =>
    intro i hi j hj m him hjm
    rw [rename_size] at hi hj
    rw [name_rename hf] at him hjm
    grind [Unique]

end Names

end Disk

end Lib
end CmakeFrame
