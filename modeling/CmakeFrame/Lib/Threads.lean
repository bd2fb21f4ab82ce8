import Mathlib.Data.List.Basic
import Mathlib.Algebra.GroupWithZero.Nat
import Mathlib.Tactic.Common

/-!
# Threads at their places

The threads of a pool run the same code, so which is which does not matter: a list of the places
where they are. A step moves one of them.

* `moved l w w'`: a thread moves from `w` to `w'`.
* `countP_moved`: how many threads are at the places of a kind; `mem_moved_of_ne`: who is where.
* `sum_map_set`, `countP_set`: the same for threads that are told apart, and for a sum over all of
  them; `set_cases`: who is where; `map_set_of_eq`, `filterMap_set_perm`: for what they hold.
-/

namespace CmakeFrame
namespace Lib

variable {τ : Type} [DecidableEq τ] {l : List τ} {w w' x : τ}

/-- A thread moves from `w` to `w'`. -/
def moved (l : List τ) (w w' : τ) : List τ := w' :: l.erase w

theorem countP_erase_add (h : w ∈ l) (p : τ → Bool) :
    (l.erase w).countP p + (if p w then 1 else 0) = l.countP p := by
  rw [(List.perm_cons_erase h).countP_eq p, List.countP_cons]

theorem countP_moved (h : w ∈ l) (w' : τ) (p : τ → Bool) :
    (moved l w w').countP p + (if p w then 1 else 0) = l.countP p + if p w' then 1 else 0 := by
  rw [moved, List.countP_cons, ← countP_erase_add h p]
  omega

theorem mem_moved_of_ne (h : x ∈ l) (hne : x ≠ w) : x ∈ moved l w w' :=
  List.mem_cons_of_mem _ ((List.mem_erase_of_ne hne).mpr h)

/-- A thread is where it was, or it is the one that has moved. -/
theorem set_cases {α : Type} {l : List α} {i j : Nat} {a b : α}
    (h : (l.set i a)[j]? = some b) : j = i ∧ b = a ∨ j ≠ i ∧ l[j]? = some b := by
  rw [List.getElem?_set] at h
  by_cases hij : i = j
  · subst hij
    rw [if_pos rfl] at h
    split at h
    · cases h
      exact .inl ⟨rfl, rfl⟩
    · cases h
  · rw [if_neg hij] at h
    exact .inr ⟨Ne.symm hij, h⟩

/-- Thread `i` goes on with what it holds. -/
theorem map_set_of_eq {α β : Type} {f : α → β} {l : List α} {i : Nat} {a b : α} (h : l[i]? = some a)
    (hb : f b = f a) : (l.set i b).map f = l.map f := by
  obtain ⟨hlt, rfl⟩ := List.getElem?_eq_some_iff.mp h
  have hlt' : i < (l.map f).length := by rwa [List.length_map]
  rw [List.map_set, hb, ← List.getElem_map f (h := hlt'), List.set_getElem_self]

/-- Thread `i` goes from `a` to `b`. -/
theorem sum_map_set {α : Type} (f : α → Nat) {l : List α} {i : Nat} {a : α} (h : l[i]? = some a)
    (b : α) : ((l.set i b).map f).sum + f a = (l.map f).sum + f b := by
  induction l generalizing i with
  | nil => simp at h
  | cons x l ih =>
    cases i with
    | zero =>
      obtain rfl : x = a := by simpa using h
      simp only [List.set_cons_zero, List.map_cons, List.sum_cons]
      omega
    | succ i =>
      have := ih (i := i) (by simpa using h)
      simp only [List.set_cons_succ, List.map_cons, List.sum_cons]
      omega

theorem sum_map_ite {α : Type} (p : α → Bool) (l : List α) :
    (l.map fun x => if p x then 1 else 0).sum = l.countP p := by
  induction l with
  | nil => rfl
  | cons x l ih =>
    rw [List.map_cons, List.sum_cons, ih, List.countP_cons]
    omega

theorem countP_set {α : Type} (p : α → Bool) {l : List α} {i : Nat} {a : α} (h : l[i]? = some a)
    (b : α) :
    (l.set i b).countP p + (if p a then 1 else 0) = l.countP p + if p b then 1 else 0 := by
  rw [← sum_map_ite, ← sum_map_ite]
  exact sum_map_set (fun x => if p x then 1 else 0) h b

theorem filterMap_cons_append {α β : Type} (f : α → Option β) (a : α) (l : List α) :
    (a :: l).filterMap f = (f a).toList ++ l.filterMap f := by
  rw [List.filterMap_cons]
  cases f a <;> rfl

/-- What all threads hold, when thread `i` goes from `a` to `b`. -/
theorem filterMap_set_perm {α β : Type} (f : α → Option β) {l : List α} {i : Nat} {a : α}
    (h : l[i]? = some a) (b : α) :
    ((l.set i b).filterMap f ++ (f a).toList).Perm (l.filterMap f ++ (f b).toList) := by
  induction l generalizing i with
  | nil => simp at h
  | cons x l ih =>
    cases i with
    | zero =>
      obtain rfl : x = a := by simpa using h
      rw [List.set_cons_zero, filterMap_cons_append, filterMap_cons_append]
      calc ((f b).toList ++ l.filterMap f) ++ (f x).toList
          |>.Perm ((f x).toList ++ ((f b).toList ++ l.filterMap f)) := List.perm_append_comm
        _ |>.Perm ((f x).toList ++ (l.filterMap f ++ (f b).toList)) :=
            List.perm_append_comm.append_left _
        _ |>.Perm (((f x).toList ++ l.filterMap f) ++ (f b).toList) := by rw [List.append_assoc]
    | succ i =>
      have := ih (i := i) (by simpa using h)
      rw [List.set_cons_succ, filterMap_cons_append, filterMap_cons_append, List.append_assoc,
        List.append_assoc]
      exact this.append_left _

end Lib
end CmakeFrame
