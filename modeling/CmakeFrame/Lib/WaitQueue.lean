import CmakeFrame.Lib.CondVar
import CmakeFrame.Lib.Sys
import CmakeFrame.Lib.Threads

/-!
# Queues that are waited on and closed

Threads take elements from a queue and sleep on a condition variable while it is empty. To end
them, a flag is set and all sleepers are woken. A thread tests the flag and goes to sleep in two
steps, with the mutex in its hands; who sets the flag does not take the mutex.

* `Turn.loop`: the loop of a thread that takes.
* `Closable`: the operations of a queue and what they do to its elements and its flag.
* `Closable.system`: any number of takers, insertions and exits, in every order.
* `Closable.Fifo`, `Closable.fifo`: what was inserted is what was taken and then what is in the
  queue.
* `Closable.held_next`, `Closable.held_again`: what was taken is held until the thread comes again.
* `Closable.Drained`: once it is closed, nobody sleeps on the empty queue, or is about to.
* `Closable.NoGap`: `notifyAll` does not fall between a test of the flag and the sleep.
* `Closable.drained`: with that, a closed queue is `Drained`; `Closable.notifyAll_drained`: and the
  call that closes it leaves it so exactly then.
-/

namespace CmakeFrame
namespace Lib

/-- One turn of the loop that takes from a queue. -/
inductive Turn (σ α : Type) where
  | took (a : α) (q : σ)
  /-- The queue is empty and the flag is set. -/
  | exits
  /-- The queue is empty and the flag is not set: the thread goes on to sleep. -/
  | waits

namespace Turn

variable {σ α : Type} {queue : List α} {isExit : Bool} {pop : List α → σ}

/-- The turn of the usual loop: while the queue is empty, the thread returns if the flag is set and
waits if not; `pop` is the queue with the elements that are left. -/
def loop (queue : List α) (isExit : Bool) (pop : List α → σ) : Turn σ α :=
  match queue with
  | [] => if isExit then .exits else .waits
  | a :: rest => .took a (pop rest)

theorem loop_took {a : α} {q : σ} (h : loop queue isExit pop = .took a q) :
    ∃ rest, queue = a :: rest ∧ q = pop rest := by
  unfold loop at h
  split at h
  · split at h <;> cases h
  · rename_i rest
    cases h
    exact ⟨rest, rfl, rfl⟩

theorem loop_exits (h : loop queue isExit pop = .exits) : queue = [] ∧ isExit = true := by
  unfold loop at h
  split at h
  · split at h
    · rename_i he
      exact ⟨rfl, he⟩
    · cases h
  · cases h

theorem loop_waits (h : loop queue isExit pop = .waits) : queue = [] ∧ isExit = false := by
  unfold loop at h
  split at h
  · split at h
    · cases h
    · rename_i he
      exact ⟨rfl, Bool.eq_false_iff.mpr he⟩
  · cases h

end Turn

/-- A queue of elements `α` with an exit flag. -/
structure Closable (σ α : Type) where
  contents : σ → List α
  isExit : σ → Bool
  insert : σ → α → σ
  turn : σ → Turn σ α
  exit : σ → σ
  contents_insert : ∀ q a, contents (insert q a) = contents q ++ [a]
  isExit_insert : ∀ q a, isExit (insert q a) = isExit q
  contents_exit : ∀ q, contents (exit q) = contents q
  isExit_exit : ∀ q, isExit (exit q) = true
  took : ∀ q a q', turn q = .took a q' → contents q = a :: contents q' ∧ isExit q' = isExit q
  exits : ∀ q, turn q = .exits → contents q = [] ∧ isExit q = true
  waits : ∀ q, turn q = .waits → contents q = [] ∧ isExit q = false

/-- Where a thread is that takes from the queue. -/
inductive Taker (α : Type) where
  /-- It waits for the mutex, at its first turn or woken. -/
  | ready
  /-- It has the mutex, has found the flag clear and goes to sleep next. -/
  | sleepy
  | asleep
  /-- It has an element, or nothing because the queue is closed. -/
  | done (a : Option α)
  deriving DecidableEq, Repr

namespace Taker

variable {α : Type}

def isAsleep : Taker α → Bool
  | .asleep => true
  | .ready | .sleepy | .done _ => false

def isSleepy : Taker α → Bool
  | .sleepy => true
  | .ready | .asleep | .done _ => false

/-- What it has taken. -/
def holds : Taker α → Option α
  | .done a => a
  | .ready | .sleepy | .asleep => none

/-- The condition variable of the queue. -/
def notEmpty : CondVar (Taker α) where
  asleep := isAsleep
  wake _ := .ready
  awake _ _ := rfl

theorem holds_wake (p : Taker α) (h : notEmpty.asleep p) :
    (notEmpty.wake p).holds = p.holds := by
  cases p with
  | asleep => rfl
  | ready | sleepy | done a => cases h

end Taker

/-- `flagged` counts the exit calls that have set the flag and not yet woken the sleepers; `closed`
says that one has come back. `inserted` and `taken` are history. -/
structure Closing (σ α : Type) where
  q : σ
  takers : List (Taker α)
  flagged : Nat
  closed : Bool
  inserted : List α
  taken : List α

inductive ClosingAct (α : Type) where
  /-- One more thread takes. -/
  | call
  /-- A thread that has come back takes again. -/
  | again (i : Nat)
  /-- An insertion, with the thread that its `notify` wakes. -/
  | insert (a : α) (w : Option Nat)
  /-- One turn of the loop of thread `i`. -/
  | turn (i : Nat)
  /-- Thread `i` gives the mutex back and sleeps. -/
  | sleep (i : Nat)
  /-- An exit call sets the flag. -/
  | exit
  /-- It wakes the sleepers, and comes back. -/
  | notifyAll

namespace Closing

variable {σ α : Type}

/-- Nobody has the mutex. -/
def free (s : Closing σ α) : Bool := ! s.takers.any Taker.isSleepy

/-- What the threads have taken and not yet come back for. -/
def held (s : Closing σ α) : List α := s.takers.filterMap Taker.holds

end Closing

namespace Closable

variable {σ α : Type} (K : Closable σ α)

/-- The turn of thread `i`, which has the mutex for it. -/
def take (s : Closing σ α) (i : Nat) : Closing σ α :=
  match K.turn s.q with
  | .took a q =>
    { s with q, takers := s.takers.set i (.done (some a)), taken := s.taken ++ [a] }
  | .exits => { s with takers := s.takers.set i (.done none) }
  | .waits => { s with takers := s.takers.set i .sleepy }

def next (s : Closing σ α) : ClosingAct α → Option (Closing σ α)
  | .call => some { s with takers := s.takers ++ [.ready] }
  | .again i =>
    match s.takers[i]? with
    | some (.done _) => some { s with takers := s.takers.set i .ready }
    | _ => none
  | .insert a w =>
    if s.free then
      (Taker.notEmpty.notify s.takers w).map fun takers =>
        { s with q := K.insert s.q a, takers, inserted := s.inserted ++ [a] }
    else none
  | .turn i =>
    match s.takers[i]? with
    | some .ready => if s.free then some (K.take s i) else none
    | _ => none
  | .sleep i =>
    match s.takers[i]? with
    | some .sleepy => some { s with takers := s.takers.set i .asleep }
    | _ => none
  | .exit => some { s with q := K.exit s.q, flagged := s.flagged + 1 }
  | .notifyAll =>
    if 0 < s.flagged then
      some { s with
        takers := Taker.notEmpty.notifyAll s.takers
        flagged := s.flagged - 1
        closed := true }
    else none

/-- The queue `q` and those who use it. -/
def system (q : σ) : Sys (Closing σ α) (ClosingAct α) where
  init := ⟨q, [], 0, false, K.contents q, []⟩
  next := K.next

/-- The elements come out as they went in, each once. -/
def Fifo (s : Closing σ α) : Prop := s.inserted = s.taken ++ K.contents s.q

/-- Nobody sleeps on the empty queue once it is closed, and nobody is about to. -/
structure Drained (s : Closing σ α) : Prop where
  awake : s.closed → K.contents s.q = [] → ∀ t ∈ s.takers, t ≠ .asleep ∧ t ≠ .sleepy
  fifo : K.Fifo s

/-- Nobody stands between the test of the flag and its sleep when the sleepers are woken. -/
def NoGap (s : Closing σ α) : ClosingAct α → Prop
  | .notifyAll => s.free
  | _ => True

instance (s : Closing σ α) (a : ClosingAct α) : Decidable (NoGap s a) := by
  cases a <;> unfold NoGap <;> infer_instance

/-! ## What a step does -/

section

variable {K} {s s' : Closing σ α}

/-- A turn takes the first element, or moves thread `i` only. -/
theorem take_cases (s : Closing σ α) (i : Nat) :
    (∃ a q, K.contents s.q = a :: K.contents q ∧ K.isExit q = K.isExit s.q ∧
      K.take s i = { s with
        q, takers := s.takers.set i (.done (some a)), taken := s.taken ++ [a] }) ∨
    (K.contents s.q = [] ∧ K.isExit s.q = true ∧
      K.take s i = { s with takers := s.takers.set i (.done none) }) ∨
    (K.contents s.q = [] ∧ K.isExit s.q = false ∧
      K.take s i = { s with takers := s.takers.set i .sleepy }) := by
  unfold take
  cases h : K.turn s.q with
  | took a q =>
    obtain ⟨hc, he⟩ := K.took s.q a q h
    exact .inl ⟨a, q, hc, he, rfl⟩
  | exits =>
    obtain ⟨hc, he⟩ := K.exits s.q h
    exact .inr (.inl ⟨hc, he, rfl⟩)
  | waits =>
    obtain ⟨hc, he⟩ := K.waits s.q h
    exact .inr (.inr ⟨hc, he, rfl⟩)

/-- What each step does, with its guard. -/
inductive Does (K : Closable σ α) (s : Closing σ α) : ClosingAct α → Closing σ α → Prop
  | call : Does K s .call { s with takers := s.takers ++ [.ready] }
  | again {i : Nat} {r : Option α} (hr : s.takers[i]? = some (.done r)) :
    Does K s (.again i) { s with takers := s.takers.set i .ready }
  | insert {x : α} {w : Option Nat} {takers : List (Taker α)} (hfree : s.free)
    (hn : Taker.notEmpty.notify s.takers w = some takers) :
    Does K s (.insert x w) { s with q := K.insert s.q x, takers, inserted := s.inserted ++ [x] }
  | turn {i : Nat} (hr : s.takers[i]? = some .ready) (hfree : s.free) :
    Does K s (.turn i) (K.take s i)
  | sleep {i : Nat} (hs : s.takers[i]? = some .sleepy) :
    Does K s (.sleep i) { s with takers := s.takers.set i .asleep }
  | exit : Does K s .exit { s with q := K.exit s.q, flagged := s.flagged + 1 }
  | notifyAll (hpos : 0 < s.flagged) : Does K s .notifyAll { s with
      takers := Taker.notEmpty.notifyAll s.takers, flagged := s.flagged - 1, closed := true }

theorem does_of_next {a : ClosingAct α} (h : K.next s a = some s') : Does K s a s' := by
  cases a with
  | call =>
    cases h
    exact .call
  | again i =>
    simp only [next] at h
    split at h
    · rename_i hr
      cases h
      exact .again hr
    · cases h
  | insert x w =>
    simp only [next] at h
    split at h
    · rename_i hfree
      obtain ⟨takers, hn, rfl⟩ := Option.map_eq_some_iff.mp h
      exact .insert hfree hn
    · cases h
  | turn i =>
    simp only [next] at h
    split at h
    · rename_i hr
      split at h
      · rename_i hfree
        cases h
        exact .turn hr hfree
      · cases h
    · cases h
  | sleep i =>
    simp only [next] at h
    split at h
    · rename_i hs
      cases h
      exact .sleep hs
    · cases h
  | exit =>
    cases h
    exact .exit
  | notifyAll =>
    simp only [next] at h
    split at h
    · rename_i hpos
      cases h
      exact .notifyAll hpos
    · cases h

/-! ## The order of the elements -/

theorem Fifo.next (hi : K.Fifo s) {a : ClosingAct α} (h : K.next s a = some s') :
    K.Fifo s' := by
  unfold Fifo at hi ⊢
  cases does_of_next h with
  | call | again | sleep | notifyAll => exact hi
  | insert hfree hn => simp only [K.contents_insert, hi, List.append_assoc]
  | @turn i hr hfree =>
    rcases K.take_cases s i with ⟨a, q, hc, -, heq⟩ | ⟨-, -, heq⟩ | ⟨-, -, heq⟩
    · rw [heq]
      simp only [hi, hc, List.append_assoc, List.singleton_append]
    · rw [heq]
      exact hi
    · rw [heq]
      exact hi
  | exit => simp only [K.contents_exit, hi]

/-- What was inserted is what was taken, in that order, and then what is in the queue. -/
theorem fifo {q : σ} (h : (K.system q).Reach s) : K.Fifo s :=
  Sys.Reach.inv (S := K.system q) (I := K.Fifo) rfl (fun _ _ _ hi hs => hi.next hs) h

/-- Only an insertion adds to what was inserted. -/
theorem inserted_next {a : ClosingAct α} (ha : ∀ x w, a ≠ .insert x w) (h : K.next s a = some s') :
    s'.inserted = s.inserted := by
  cases does_of_next h with
  | call | again | sleep | exit | notifyAll => rfl
  | insert hfree hn => exact absurd rfl (ha _ _)
  | @turn i hr hfree =>
    rcases K.take_cases s i with ⟨a, q, -, -, heq⟩ | ⟨-, -, heq⟩ | ⟨-, -, heq⟩ <;> rw [heq]

/-- A thread holds what it takes until it comes again. -/
theorem held_next {a : ClosingAct α} (ha : ∀ i, a ≠ .again i) (h : K.next s a = some s') :
    ∃ x, s'.taken = s.taken ++ x ∧ s'.held.Perm (s.held ++ x) := by
  -- a move of thread `i` that takes nothing and gives nothing away
  have hset : ∀ {i t t'}, s.takers[i]? = some t → t.holds = none → t'.holds = none →
      ((s.takers.set i t').filterMap Taker.holds).Perm s.held := by
    intro i t t' hi ht ht'
    simpa [ht, ht', Closing.held] using filterMap_set_perm Taker.holds hi t'
  cases does_of_next h with
  | call =>
    refine ⟨[], by simp, ?_⟩
    have hnone : (Taker.ready : Taker α).holds = none := rfl
    simp [Closing.held, hnone]
  | again hr => exact absurd rfl (ha _)
  | insert hfree hn =>
    refine ⟨[], by simp, ?_⟩
    have := CondVar.filterMap_notify Taker.holds_wake hn
    simp [Closing.held, this]
  | @turn i hr hfree =>
    rcases K.take_cases s i with ⟨a, q, -, -, heq⟩ | ⟨-, -, heq⟩ | ⟨-, -, heq⟩
    · refine ⟨[a], by rw [heq], ?_⟩
      rw [heq]
      simpa [Taker.holds, Closing.held] using filterMap_set_perm Taker.holds hr (.done (some a))
    · refine ⟨[], by rw [heq]; simp, ?_⟩
      rw [heq, List.append_nil]
      exact hset hr rfl rfl
    · refine ⟨[], by rw [heq]; simp, ?_⟩
      rw [heq, List.append_nil]
      exact hset hr rfl rfl
  | sleep hs =>
    refine ⟨[], by simp, ?_⟩
    rw [List.append_nil]
    exact hset hs rfl rfl
  | exit =>
    refine ⟨[], by simp, ?_⟩
    simp [Closing.held]
  | notifyAll hpos =>
    refine ⟨[], by simp, ?_⟩
    have := CondVar.filterMap_notifyAll (l := s.takers) Taker.holds_wake
    simp [Closing.held, this]

/-- A thread that comes again gives away what it held. -/
theorem held_again {i : Nat} {r : Option α} (hr : s.takers[i]? = some (.done r)) :
    (({ s with takers := s.takers.set i .ready } : Closing σ α).held ++ r.toList).Perm s.held := by
  simpa [Taker.holds, Closing.held] using filterMap_set_perm Taker.holds hr .ready

/-! ## Who sleeps -/

/-- The flag is set before a call has woken the sleepers, and then nobody sleeps or is about to. -/
structure Quiet (K : Closable σ α) (s : Closing σ α) : Prop where
  flag : 0 < s.flagged ∨ s.closed → K.isExit s.q = true
  quiet : s.closed → ∀ t ∈ s.takers, t.isAsleep = false ∧ t.isSleepy = false

theorem free_iff : s.free = true ↔ ∀ t ∈ s.takers, t.isSleepy = false := by
  simp [Closing.free]

namespace Quiet

/-- Thread `i` goes to a place where it neither sleeps nor is about to. -/
theorem set (hi : Quiet K s) {q : σ} (hq : K.isExit q = K.isExit s.q) {i : Nat} {t : Taker α}
    (ht : t.isAsleep = false ∧ t.isSleepy = false) {inserted taken : List α} :
    Quiet K { s with q, takers := s.takers.set i t, inserted, taken } where
  flag := fun hf => hq.trans (hi.flag hf)
  quiet := by
    intro hc t' ht'
    rcases List.mem_or_eq_of_mem_set ht' with ht' | rfl
    · exact hi.quiet hc t' ht'
    · exact ht

/-- Before the first call has woken the sleepers, a thread may go anywhere. -/
theorem of_not_closed (hi : Quiet K s) (hc : s.closed = false) {takers : List (Taker α)} :
    Quiet K { s with takers } where
  flag := hi.flag
  quiet := by
    intro hc'
    exact absurd hc' (by simp [hc])

theorem next (hi : Quiet K s) {a : ClosingAct α} (hg : NoGap s a) (h : K.next s a = some s') :
    Quiet K s' := by
  cases does_of_next h with
  | call =>
    refine ⟨hi.flag, ?_⟩
    intro hc t ht
    rcases List.mem_append.mp ht with ht | ht
    · exact hi.quiet hc t ht
    · rw [List.mem_singleton.mp ht]
      exact ⟨rfl, rfl⟩
  | again hr => exact hi.set rfl ⟨rfl, rfl⟩
  | insert hfree hn =>
    refine ⟨fun hf => (K.isExit_insert _ _).trans (hi.flag hf), ?_⟩
    intro hc t ht
    rcases CondVar.mem_notify hn ht with ht | ⟨t', ht', -, rfl⟩
    · exact hi.quiet hc t ht
    · exact ⟨rfl, rfl⟩
  | @turn i hr hfree =>
    rcases K.take_cases s i with ⟨a, q, -, he, heq⟩ | ⟨-, -, heq⟩ | ⟨-, he, heq⟩
    · rw [heq]
      exact hi.set he ⟨rfl, rfl⟩
    · rw [heq]
      exact hi.set rfl ⟨rfl, rfl⟩
    · -- the flag is clear, so nobody has closed the queue
      rw [heq]
      apply hi.of_not_closed
      by_contra hc
      rw [hi.flag (.inr (by simpa using hc))] at he
      cases he
  | sleep hs =>
    apply hi.of_not_closed
    by_contra hc
    have := (hi.quiet (by simpa using hc) _ (List.mem_of_getElem? hs)).2
    cases this
  | exit => exact ⟨fun _ => K.isExit_exit _, hi.quiet⟩
  | notifyAll hpos =>
    refine ⟨fun _ => hi.flag (.inl hpos), ?_⟩
    intro _ t ht
    refine ⟨CondVar.notifyAll_awake ht, ?_⟩
    rcases CondVar.mem_notifyAll ht with ht | ⟨t', ht', -, rfl⟩
    · exact free_iff.mp hg t ht
    · rfl

end Quiet

theorem Drained.of_quiet (hi : Quiet K s) (hf : K.Fifo s) : K.Drained s where
  awake := by
    intro hc _ t ht
    obtain ⟨ha, hs⟩ := hi.quiet hc t ht
    constructor
    · rintro rfl
      cases ha
    · rintro rfl
      cases hs
  fifo := hf

/-- In every run without a gap: once the queue is closed nobody sleeps on it. -/
theorem drained {q : σ} (h : ((K.system q).only NoGap).Reach s) : K.Drained s := by
  have hi : Quiet K s ∧ K.Fifo s := by
    refine Sys.Reach.inv_only (I := fun s => Quiet K s ∧ K.Fifo s) ?_
      (fun _ _ _ hi hg hs => ⟨hi.1.next hg hs, hi.2.next hs⟩) h
    refine ⟨⟨?_, ?_⟩, rfl⟩
    · intro hf
      simp [system] at hf
    · intro hc
      cases hc
  exact .of_quiet hi.1 hi.2

/-- A call that wakes the sleepers of an empty queue leaves it drained exactly if nobody stands
between its test and its sleep. -/
theorem notifyAll_drained (hi : K.Fifo s)
    (hempty : K.contents s.q = []) (h : K.next s .notifyAll = some s') :
    K.Drained s' ↔ NoGap s .notifyAll := by
  cases does_of_next h
  constructor
  · intro hd
    apply free_iff.mpr
    intro t ht
    cases t with
    | sleepy =>
      have hmem : Taker.sleepy ∈ Taker.notEmpty.notifyAll s.takers :=
        List.mem_map.mpr ⟨.sleepy, ht, rfl⟩
      exact absurd rfl (hd.awake rfl hempty _ hmem).2
    | ready | asleep | done a => rfl
  · intro hg
    refine ⟨?_, hi⟩
    intro _ _ t ht
    have ha := CondVar.notifyAll_awake ht
    constructor
    · rintro rfl
      cases ha
    · rintro rfl
      rcases CondVar.mem_notifyAll ht with ht | ⟨t', -, -, heq⟩
      · cases free_iff.mp hg _ ht
      · cases heq

end

end Closable

end Lib
end CmakeFrame
