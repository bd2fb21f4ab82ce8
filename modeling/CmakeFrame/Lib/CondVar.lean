import CmakeFrame.Lib.Threads

/-!
# Condition variables

A thread that waits on a condition variable gives its mutex back and goes to sleep in one step. A
notification wakes only who is asleep at that moment; it is not kept for those who come later.

The threads of a program are a list of the places `π` where they are. Some places are sleep on the
condition variable, and who is woken there goes on at another place, where it takes the mutex again.

* `CondVar.notify`: one sleeper wakes, which one is chosen from outside; nothing happens if there is
  none.
* `CondVar.notifyAll`: all sleepers wake (`notifyAll_awake`).
* `mem_notify`, `mem_notifyAll`: who is where behind a notification; `filterMap_notify` and
  `filterMap_notifyAll`: what the threads hold, if waking changes nothing of it.
* `countP_asleep_notify`: how many sleep behind `notify`; `countP_notify`, `countP_notifyAll`,
  `map_notify`: what the threads have in common with those before, if waking changes nothing of it.
-/

namespace CmakeFrame
namespace Lib

/-- Which places are sleep, and where a sleeper goes on. -/
structure CondVar (π : Type) where
  asleep : π → Bool
  wake : π → π
  awake : ∀ p, asleep p = true → asleep (wake p) = false

namespace CondVar

variable {π : Type} (c : CondVar π)

/-- A thread at `p` is woken if it sleeps. -/
def rouse (p : π) : π := if c.asleep p then c.wake p else p

def notifyAll (l : List π) : List π := l.map c.rouse

/-- Thread `i` is the one that wakes; `none` says that there is nobody to wake. -/
def notify (l : List π) : Option Nat → Option (List π)
  | none => if l.any c.asleep then none else some l
  | some i =>
    match l[i]? with
    | none => none
    | some p => if c.asleep p then some (l.set i (c.wake p)) else none

variable {c} {l l' : List π} {p : π} {w : Option Nat}

theorem asleep_rouse (p : π) : c.asleep (c.rouse p) = false := by
  unfold rouse
  split
  · rename_i h
    exact c.awake p h
  · rename_i h
    exact Bool.eq_false_iff.mpr h

/-- What waking does not change of a thread. -/
theorem apply_rouse {α : Type} {f : π → α} (hf : ∀ p, c.asleep p → f (c.wake p) = f p) (p : π) :
    f (c.rouse p) = f p := by
  unfold rouse
  split
  · rename_i hs
    exact hf p hs
  · rfl

/-- Nobody sleeps behind `notifyAll`. -/
theorem notifyAll_awake (h : p ∈ c.notifyAll l) : c.asleep p = false := by
  obtain ⟨q, -, rfl⟩ := List.mem_map.mp h
  exact asleep_rouse q

theorem mem_notifyAll (h : p ∈ c.notifyAll l) : p ∈ l ∨ ∃ q ∈ l, c.asleep q ∧ p = c.wake q := by
  obtain ⟨q, hq, rfl⟩ := List.mem_map.mp h
  unfold rouse
  split
  · rename_i hs
    exact .inr ⟨q, hq, hs, rfl⟩
  · exact .inl hq

/-- What `notify` does: nothing, or one sleeper wakes. -/
theorem notify_cases (h : c.notify l w = some l') :
    (l' = l ∧ ∀ p ∈ l, c.asleep p = false) ∨
    ∃ i p, l[i]? = some p ∧ c.asleep p ∧ l' = l.set i (c.wake p) := by
  cases w with
  | none =>
    simp only [notify] at h
    split at h
    · cases h
    · rename_i hany
      cases h
      refine .inl ⟨rfl, ?_⟩
      simpa using hany
  | some i =>
    simp only [notify] at h
    split at h
    · cases h
    · rename_i p hp
      split at h
      · rename_i hs
        cases h
        exact .inr ⟨i, p, hp, hs, rfl⟩
      · cases h

theorem mem_notify (h : c.notify l w = some l') (hp : p ∈ l') :
    p ∈ l ∨ ∃ q ∈ l, c.asleep q ∧ p = c.wake q := by
  rcases notify_cases h with ⟨rfl, -⟩ | ⟨i, q, hi, hs, rfl⟩
  · exact .inl hp
  · rcases List.mem_or_eq_of_mem_set hp with hp | rfl
    · exact .inl hp
    · exact .inr ⟨q, List.mem_of_getElem? hi, hs, rfl⟩

section

variable {α : Type} {f : π → Option α}

/-- A thread that is set to a place where it holds the same. -/
theorem filterMap_set {i : Nat} {q : π} (h : l[i]? = some p) (hf : f q = f p) :
    (l.set i q).filterMap f = l.filterMap f := by
  induction l generalizing i with
  | nil => simp at h
  | cons x l ih =>
    cases i with
    | zero =>
      obtain rfl : x = p := by simpa using h
      simp [List.filterMap_cons, hf]
    | succ i => simp [List.filterMap_cons, ih (i := i) (by simpa using h)]

theorem filterMap_notify (hf : ∀ p, c.asleep p → f (c.wake p) = f p)
    (h : c.notify l w = some l') : l'.filterMap f = l.filterMap f := by
  rcases notify_cases h with ⟨rfl, -⟩ | ⟨i, q, hi, hs, rfl⟩
  · rfl
  · exact filterMap_set hi (hf q hs)

theorem filterMap_notifyAll (hf : ∀ p, c.asleep p → f (c.wake p) = f p) :
    (c.notifyAll l).filterMap f = l.filterMap f := by
  rw [notifyAll, List.filterMap_map]
  congr 1
  funext p
  exact apply_rouse hf p

end

/-- At most one sleeper is woken, and one is if there is any. -/
theorem countP_asleep_notify (h : c.notify l w = some l') :
    l'.countP c.asleep = l.countP c.asleep - 1 := by
  rcases notify_cases h with ⟨rfl, hnone⟩ | ⟨i, p, hi, hs, rfl⟩
  · have hzero : l'.countP c.asleep = 0 := by
      rw [List.countP_eq_zero]
      intro p hp
      rw [hnone p hp]
      exact Bool.false_ne_true
    rw [hzero]
  · have hset := countP_set c.asleep hi (c.wake p)
    rw [hs, c.awake p hs] at hset
    simp only [if_true, Bool.false_eq_true, if_false] at hset
    omega

section

variable {f : π → Bool}

theorem countP_notify (hf : ∀ p, c.asleep p → f (c.wake p) = f p) (h : c.notify l w = some l') :
    l'.countP f = l.countP f := by
  rcases notify_cases h with ⟨rfl, -⟩ | ⟨i, p, hi, hs, rfl⟩
  · rfl
  · have hset := countP_set f hi (c.wake p)
    rw [hf p hs] at hset
    exact Nat.add_right_cancel hset

theorem countP_notifyAll (hf : ∀ p, c.asleep p → f (c.wake p) = f p) :
    (c.notifyAll l).countP f = l.countP f := by
  rw [notifyAll, List.countP_map]
  congr 1
  funext p
  exact apply_rouse hf p

end

theorem map_notify {α : Type} {f : π → α} (hf : ∀ p, c.asleep p → f (c.wake p) = f p)
    (h : c.notify l w = some l') : l'.map f = l.map f := by
  rcases notify_cases h with ⟨rfl, -⟩ | ⟨i, p, hi, hs, rfl⟩
  · rfl
  · exact map_set_of_eq hi (hf p hs)

end CondVar

end Lib
end CmakeFrame
