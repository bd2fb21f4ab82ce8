import CmakeFrame.Lib.Decimal
import Mathlib.Data.Set.Insert
import Mathlib.Data.List.Basic

/-!
# Paths, and programs that make directories

A program is a list of steps, each of which tests whether a path is there and makes the directory if it is
not. Other programs may make directories in between, and nobody removes any.

* `names`: the names that stand in a path. A path with ".." is not modelled, and there are no links.
* `Tree`, `Tree.mkdir`: directories and other files.
* `Instr`: the steps; `Leads`: with the directories `K` to begin with, each step finds the directory above
  its own, and the end has what is asked for.
* `reaches_of_slashes`: the directory above a path is named by the path up to its last slash.
-/

namespace CmakeFrame
namespace Lib

/-- The names of a path; an empty name and "." name nothing. -/
def names (path : Bytes) : List Bytes := (path.splitOn 47).filter fun c => c ≠ [] ∧ c ≠ [46]

theorem names_append (v p : Bytes) : names (v ++ 47 :: p) = names v ++ names p := by
  rw [names, List.splitOn_append_cons_self, List.filter_append]
  rfl

theorem names_of_notMem {p : Bytes} (h : 47 ∉ p) : names p = [] ∨ names p = [p] := by
  rw [names, List.splitOn_eq_singleton h]
  by_cases hp : p ≠ [] ∧ p ≠ [46]
  · exact .inr (by simp [hp])
  · exact .inl (by simpa using hp)

@[simp]
theorem names_nil : names [] = [] := rfl

/-! ## Directories -/

/-- Directories and other files, by the names that lead to them; the root is always there. -/
structure Tree where
  dirs : List (List Bytes)
  files : List (List Bytes)

namespace Tree

def isDir (t : Tree) (q : List Bytes) : Bool := q = [] || t.dirs.contains q

/-- Where the names of a path lead. -/
def place (cwd : List Bytes) (path : Bytes) : List Bytes :=
  if path.head? = some 47 then names path else cwd ++ names path

/-- `access(path, F_OK)` -/
def access (t : Tree) (cwd : List Bytes) (path : Bytes) : Bool :=
  path ≠ [] && (t.isDir (place cwd path) || t.files.contains (place cwd path))

/-- `mkdir`; without `granted` it fails for another reason. -/
def mkdir (t : Tree) (cwd : List Bytes) (path : Bytes) (granted : Bool) : Bool × Tree :=
  if granted ∧ path ≠ [] ∧ t.access cwd path = false ∧ t.isDir (place cwd path).dropLast = true then
    (true, { t with dirs := place cwd path :: t.dirs })
  else (false, t)

variable {t : Tree} {cwd : List Bytes} {path : Bytes} {granted : Bool}

theorem mkdir_isDir {q : List Bytes} (h : t.isDir q = true) :
    (t.mkdir cwd path granted).2.isDir q = true := by
  unfold mkdir
  split
  · rw [isDir, Bool.or_eq_true] at h ⊢
    exact h.imp_right fun hq => by simpa using Or.inr (by simpa using hq)
  · exact h

theorem mkdir_files : (t.mkdir cwd path granted).2.files = t.files := by
  unfold mkdir
  split <;> rfl

end Tree

/-! ## Programs -/

/-- A step of a program. -/
inductive Instr
  /-- Test the path, and make it if it is not there. -/
  | ensure (path : Bytes)
  /-- Leave the next `n` steps out if the path is there. -/
  | skipIf (path : Bytes) (n : Nat)
  deriving DecidableEq

def Instr.path : Instr → Bytes
  | .ensure path | .skipIf path _ => path

/-- A directory of `K`, or one right below. -/
def Reaches (K : Set (List Bytes)) (q : List Bytes) : Prop :=
  q ∈ K ∨ ∃ r ∈ K, ∃ p, q = r ++ [p]

/-- With the directories `K`, a program finds each directory above the one that it makes, and ends with
what meets `post`. -/
inductive Leads (post : Set (List Bytes) → Prop) : Set (List Bytes) → List Instr → Prop
  | done {K : Set (List Bytes)} : post K → Leads post K []
  | ensure {K : Set (List Bytes)} {path : Bytes} {rest : List Instr} :
    Reaches K (names path) → Leads post (insert (names path) K) rest →
      Leads post K (.ensure path :: rest)
  | skipIf {K : Set (List Bytes)} {path : Bytes} {n : Nat} {rest : List Instr} :
    Leads post K rest → Leads post (insert (names path) K) (rest.drop n) →
      Leads post K (.skipIf path n :: rest)

/-- If the paths that end before a slash of `u` are there, so is the directory above `u`. -/
theorem reaches_of_slashes {K : Set (List Bytes)} {u : Bytes} (hroot : [] ∈ K)
    (h : ∀ j < u.length, u[j]? = some 47 → names (u.take j) ∈ K) : Reaches K (names u) := by
  by_cases hu : 47 ∈ u
  · -- `u` up to its last slash
    obtain ⟨p, v, hsplit, hp⟩ := List.eq_append_cons_of_mem (List.mem_reverse.mpr hu)
    have huv : u = v.reverse ++ 47 :: p.reverse := by
      have := congrArg List.reverse hsplit
      simpa using this
    have hv : names v.reverse ∈ K := by
      have := h v.reverse.length (by rw [huv]; simp) (by rw [huv]; simp)
      rwa [huv, List.take_left] at this
    have hp' : (47 : UInt8) ∉ p.reverse := fun hm => hp (List.mem_reverse.mp hm)
    rw [huv, names_append]
    rcases names_of_notMem hp' with hn | hn
    · rw [hn, List.append_nil]
      exact .inl hv
    · exact .inr ⟨_, hv, _, by rw [hn]⟩
  · rcases names_of_notMem hu with hn | hn
    · exact .inl (by rwa [hn])
    · exact .inr ⟨[], hroot, u, by rw [hn]; rfl⟩

end Lib
end CmakeFrame
