import CmakeFrame.Lib.CondVar
import CmakeFrame.Lib.Sys
import CmakeFrame.Lib.Threads
import Mathlib.Data.List.Nodup
import Mathlib.Data.List.Range

/-!
# `common/ThreadPool.cpp`

Callers of `run` and `TryRun` put tasks into a queue of bounded length, and the workers take them out
and run them while `running_` is set. `stop` clears `running_`, wakes the workers that sleep on the
empty queue, and joins them. A worker that is inside `take` at that moment still takes a task, if
there is one; what the queue holds beyond that stays, and who sleeps on the full queue is woken only
by a worker that takes a task.

* `ThreadPool`, its steps, and `poolSystem`: the interleavings of any number of workers and callers
  with one `stop`. A task is numbered like the call that brought it.
* `Orderly`: what a user of the pool expects; `PoolInv`: what every step keeps.
* `InTime`: the condition on a step; `Enough`: the workers inside `take` are enough for the tasks that
  `stop` owes and for the callers that sleep; `enough_next_iff`: what one step does to it.
* `pool_orderly`: every run whose steps all meet the condition, and of the runs to the return of
  `stop` no others.
-/

namespace CmakeFrame
namespace Common

open Lib

/-- Where a worker is: at the test of `running_`, at the lock of `take`, asleep in it, running a task,
and behind its loop. -/
inductive WorkerPc
  | check
  | take
  | asleep
  | running (task : Nat)
  | ended
deriving DecidableEq

/-- The worker takes one more task, if there is one. -/
def WorkerPc.insideTake : WorkerPc → Bool
  | .take | .asleep => true
  | .check | .running _ | .ended => false

/-- The task that the worker runs. -/
def WorkerPc.task : WorkerPc → Option Nat
  | .running task => some task
  | .check | .take | .asleep | .ended => none

inductive CallKind
  | run
  | TryRun
deriving DecidableEq

/-- Where a caller is: before the test of `threads_`, at the lock, asleep on the full queue, behind
the lock, and behind the call. -/
inductive CallPc
  | entering
  | locking
  | asleep
  | leaving (ret : Bool)
  | returned (ret : Bool)
deriving DecidableEq

/-- The pool has the task, or has run it. -/
def CallPc.accepted : CallPc → Bool
  | .leaving ret | .returned ret => ret
  | .entering | .locking | .asleep => false

/-- A call of `run` or `TryRun`. -/
structure Call where
  kind : CallKind
  pc : CallPc
deriving DecidableEq

def Call.asleep (c : Call) : Bool := c.pc = .asleep

/-- Where `stop` is. -/
inductive StopPc
  | before
  | called
  | joining
  | returned
deriving DecidableEq

/-- Behind the lock of `stop`. -/
def StopPc.down : StopPc → Bool
  | .before | .called => false
  | .joining | .returned => true

/-- `notEmpty_` -/
def notEmpty_ : CondVar WorkerPc where
  asleep pc := pc = .asleep
  wake _ := .take
  awake _ _ := rfl

/-- `notFull_` -/
def notFull_ : CondVar Call where
  asleep := Call.asleep
  wake c := { c with pc := .locking }
  awake _ _ := rfl

/-- The pool, its workers and its callers. Of the history, `inserted` and `taken` are what went into
the queue and came out, `accepted` and `done` the tasks that were accepted and those that were run to
their end, and `due` those whose call had returned before `stop` was called. -/
structure ThreadPool where
  maxQueueSize_ : Nat
  running_ : Bool
  queue_ : List Nat
  workers : List WorkerPc
  calls : List Call
  stop : StopPc
  inserted : List Nat
  taken : List Nat
  accepted : List Nat
  done : List Nat
  due : List Nat

namespace ThreadPool

def isFull (s : ThreadPool) : Bool := 0 < s.maxQueueSize_ ∧ s.maxQueueSize_ ≤ s.queue_.length

/-- Worker `j` goes to `pc`. -/
def goWorker (s : ThreadPool) (j : Nat) (pc : WorkerPc) : ThreadPool :=
  { s with workers := s.workers.set j pc }

/-- Caller `i`, which is `c`, goes to `pc`. -/
def goCall (s : ThreadPool) (i : Nat) (c : Call) (pc : CallPc) : ThreadPool :=
  { s with calls := s.calls.set i { c with pc } }

/-- `queue_.push_back(task); notEmpty_.notify();`, which wakes worker `w`. -/
def push (s : ThreadPool) (i : Nat) (c : Call) (w : Option Nat) : Option ThreadPool :=
  (notEmpty_.notify s.workers w).map fun workers => { s.goCall i c (.leaving true) with
    queue_ := s.queue_ ++ [i]
    workers
    inserted := s.inserted ++ [i]
    accepted := s.accepted ++ [i] }

/-- `task = queue_.front(); queue_.pop_front();` by worker `j`. -/
def pop (s : ThreadPool) (j task : Nat) (rest : List Nat) : ThreadPool :=
  { s.goWorker j (.running task) with queue_ := rest, taken := s.taken ++ [task] }

/-- `take` by worker `j`, from the lock on: the worker falls asleep, returns without a task, or takes
one and wakes caller `w`. -/
def take (s : ThreadPool) (j : Nat) (w : Option Nat) : Option ThreadPool :=
  match s.queue_ with
  | [] => some (s.goWorker j (if s.running_ then .asleep else .check))
  | task :: rest =>
    if 0 < s.maxQueueSize_ then
      (notFull_.notify s.calls w).map fun calls => { s.pop j task rest with calls }
    else some (s.pop j task rest)

/-- `runInThread`, a step of worker `j`. -/
def workerStep (s : ThreadPool) (j : Nat) (w : Option Nat) : WorkerPc → Option ThreadPool
  | .check => some (s.goWorker j (if s.running_ then .take else .ended))
  | .take => s.take j w
  | .running task => some { s.goWorker j .check with done := s.done ++ [task] }
  | .asleep | .ended => none

/-- `run` and `TryRun`, a step of call `i`. Without workers the caller runs the task. -/
def callStep (s : ThreadPool) (i : Nat) (c : Call) (w : Option Nat) : Option ThreadPool :=
  match c.pc with
  | .entering =>
    if s.workers.isEmpty then some { s.goCall i c (.leaving true) with
      accepted := s.accepted ++ [i]
      done := s.done ++ [i] }
    else some (s.goCall i c .locking)
  | .locking =>
    if s.isFull then
      match c.kind with
      | .run => some (s.goCall i c .asleep)
      | .TryRun => some (s.goCall i c (.leaving false))
    else s.push i c w
  | .leaving ret => some (s.goCall i c (.returned ret))
  | .asleep | .returned _ => none

/-- The calls that have returned and whose task was accepted. -/
def returnedCalls (s : ThreadPool) : List Nat :=
  (List.range s.calls.length).filter fun i => s.calls[i]?.any fun c => c.pc = .returned true

def stopStep (s : ThreadPool) : Option ThreadPool :=
  match s.stop with
  | .before => some { s with stop := .called, due := s.returnedCalls }
  | .called => some { s with
      stop := .joining
      running_ := false
      workers := notEmpty_.notifyAll s.workers }
  | .joining =>
    if s.workers.all fun pc => pc = .ended then some { s with stop := .returned } else none
  | .returned => none

end ThreadPool

inductive PoolAct
  | call (kind : CallKind)
  | callStep (i : Nat) (w : Option Nat)
  | worker (j : Nat) (w : Option Nat)
  | stop

namespace ThreadPool

def next (s : ThreadPool) : PoolAct → Option ThreadPool
  | .call kind => some { s with calls := s.calls ++ [⟨kind, .entering⟩] }
  | .callStep i w => s.calls[i]?.bind fun c => s.callStep i c w
  | .worker j w => s.workers[j]?.bind (s.workerStep j w)
  | .stop => s.stopStep

/-- How many workers are inside `take`. -/
def inTake (s : ThreadPool) : Nat := s.workers.countP WorkerPc.insideTake

/-- How many callers of `run` sleep. -/
def sleepers (s : ThreadPool) : Nat := s.calls.countP Call.asleep

end ThreadPool

/-- A pool that was started with `numThreads` threads. -/
def poolSystem (numThreads maxQueueSize : Nat) : Sys ThreadPool PoolAct where
  init := ⟨maxQueueSize, true, [], List.replicate numThreads .check, [], .before, [], [], [], [], []⟩
  next := ThreadPool.next

/-- What a user of the pool expects of it. -/
structure Orderly (s : ThreadPool) : Prop where
  bound : 0 < s.maxQueueSize_ → s.queue_.length ≤ s.maxQueueSize_
  fifo : s.taken ++ s.queue_ = s.inserted
  once : (s.workers.filterMap WorkerPc.task ++ s.done).Nodup
  ran : s.stop = .returned → ∀ task ∈ s.due, task ∈ s.done
  awake : s.stop = .returned → ∀ c ∈ s.calls, c.pc ≠ .asleep

/-- The workers inside `take` are enough for the tasks in the queue that are due and for the callers
that sleep. -/
def Enough (s : ThreadPool) : Prop :=
  (∀ task ∈ s.queue_.drop s.inTake, s.due.contains task = false) ∧ s.sleepers ≤ s.inTake

/-- The condition on a step: when `stop` takes the lock, the workers inside `take` are enough, and from
then on no worker leaves `take` without a task and no caller falls asleep where that would make them
too few for the callers that sleep. -/
def InTime (s : ThreadPool) : PoolAct → Prop
  | .stop => s.stop = .called → Enough s
  | .worker j _ => s.running_ = false → s.workers[j]? = some .take → s.queue_ = [] →
    s.sleepers < s.inTake
  | .callStep i _ => s.running_ = false → s.calls[i]? = some ⟨.run, .locking⟩ → s.isFull = true →
    s.sleepers < s.inTake
  | .call _ => True

instance (s : ThreadPool) : Decidable (Enough s) := inferInstanceAs (Decidable (_ ∧ _))

instance (s : ThreadPool) : (a : PoolAct) → Decidable (InTime s a)
  | .stop => inferInstanceAs (Decidable (s.stop = .called → _))
  | .worker _ _ => inferInstanceAs (Decidable (s.running_ = false → _))
  | .callStep _ _ => inferInstanceAs (Decidable (s.running_ = false → _))
  | .call _ => inferInstanceAs (Decidable True)

/-! ## What every step keeps -/

namespace ThreadPool

/-- Which calls the pool has accepted the task of. -/
def marks (s : ThreadPool) : List Bool := s.calls.map fun c => c.pc.accepted

end ThreadPool

/-- The queue is a queue of bounded length, each accepted task is in it, run by a worker or done, who
sleeps on the full queue has a bound to wait for, and the places of the workers agree with `running_`
and `stop`. -/
structure PoolInv (s : ThreadPool) : Prop where
  bound : 0 < s.maxQueueSize_ → s.queue_.length ≤ s.maxQueueSize_
  fifo : s.taken ++ s.queue_ = s.inserted
  tasks : (s.workers.filterMap WorkerPc.task ++ s.done ++ s.queue_).Perm s.accepted
  nodup : s.accepted.Nodup
  mem : ∀ i, i ∈ s.accepted ↔ s.marks[i]? = some true
  due : ∀ i ∈ s.due, i ∈ s.accepted
  waits : ∀ c ∈ s.calls, c.pc = .asleep → 0 < s.maxQueueSize_
  flag : s.running_ = !s.stop.down
  awake : s.running_ = false → ∀ pc ∈ s.workers, pc ≠ .asleep
  ended : s.stop = .returned → ∀ pc ∈ s.workers, pc = .ended

section

variable {s s' : ThreadPool} {i j task : Nat} {rest : List Nat} {c : Call} {pc pc' : WorkerPc}
  {cpc : CallPc} {w : Option Nat} {cs : List Call} {ws : List WorkerPc}

theorem PoolInv.init (numThreads maxQueueSize : Nat) :
    PoolInv (poolSystem numThreads maxQueueSize).init where
  bound _ := Nat.zero_le _
  fifo := rfl
  tasks := by
    have hnone : (List.replicate numThreads WorkerPc.check).filterMap WorkerPc.task = [] := by
      rw [List.filterMap_eq_nil_iff]
      intro pc hpc
      rw [List.eq_of_mem_replicate hpc]
      rfl
    show ((List.replicate numThreads WorkerPc.check).filterMap WorkerPc.task ++ [] ++ []).Perm []
    rw [hnone]
    exact List.Perm.refl []
  nodup := List.nodup_nil
  mem i := by simp [poolSystem, ThreadPool.marks]
  due := by simp [poolSystem]
  waits := by simp [poolSystem]
  flag := rfl
  awake h := Bool.noConfusion h
  ended h := StopPc.noConfusion h

/-- The calls change, but not which of them are accepted. -/
theorem PoolInv.ofCalls (hi : PoolInv s)
    (h : ∀ i : Nat, (cs.map fun c => c.pc.accepted)[i]? = some true ↔ s.marks[i]? = some true)
    (hwaits : ∀ c ∈ cs, c.pc = .asleep → 0 < s.maxQueueSize_) : PoolInv { s with calls := cs } :=
  { hi with mem := fun i => (hi.mem i).trans (h i).symm, waits := hwaits }

theorem PoolInv.waits_goCall (hi : PoolInv s) (h : cpc = .asleep → 0 < s.maxQueueSize_) :
    ∀ c' ∈ (s.goCall i c cpc).calls, c'.pc = .asleep → 0 < s.maxQueueSize_ := by
  intro c' hc' hpc
  rcases List.mem_or_eq_of_mem_set hc' with hc' | rfl
  · exact hi.waits c' hc' hpc
  · exact h hpc

theorem PoolInv.goCall (hi : PoolInv s) (hc : s.calls[i]? = some c)
    (h : cpc.accepted = c.pc.accepted) (hwaits : cpc = .asleep → 0 < s.maxQueueSize_) :
    PoolInv (s.goCall i c cpc) := by
  have hmarks : ((s.calls.set i { c with pc := cpc }).map fun c => c.pc.accepted) = s.marks :=
    map_set_of_eq hc h
  refine hi.ofCalls (fun k => ?_) (hi.waits_goCall hwaits)
  rw [hmarks]

/-- A new call has not been accepted. -/
theorem PoolInv.call (hi : PoolInv s) (kind : CallKind) :
    PoolInv { s with calls := s.calls ++ [⟨kind, .entering⟩] } := by
  refine hi.ofCalls (fun k => ?_) fun c hc hpc => ?_
  · rw [List.map_append, List.getElem?_append]
    split
    · rfl
    · rename_i hk
      have hnone : s.marks[k]? = none := List.getElem?_eq_none (Nat.not_lt.mp hk)
      rw [hnone]
      constructor
      · intro h
        have := List.mem_of_getElem? h
        simp [CallPc.accepted] at this
      · intro h
        cases h
  · rcases List.mem_append.mp hc with hc | hc
    · exact hi.waits c hc hpc
    · rw [List.mem_singleton.mp hc] at hpc
      cases hpc

/-- Call `i` is accepted, which it was not before. -/
theorem PoolInv.accept (hi : PoolInv s) (hc : s.calls[i]? = some c) (hnew : c.pc.accepted = false) :
    (s.accepted ++ [i]).Nodup ∧
      ∀ k, k ∈ s.accepted ++ [i] ↔ (s.goCall i c (.leaving true)).marks[k]? = some true := by
  have hmark : s.marks[i]? = some false := by
    rw [ThreadPool.marks, List.getElem?_map, hc]
    exact congrArg some hnew
  have hnot : i ∉ s.accepted := by
    rw [hi.mem, hmark]
    simp
  have hset : (s.goCall i c (.leaving true)).marks = s.marks.set i true := List.map_set
  constructor
  · exact List.nodup_append.mpr ⟨hi.nodup, List.nodup_singleton i, fun a ha b hb hab => by
      rw [List.mem_singleton.mp hb] at hab
      exact hnot (hab ▸ ha)⟩
  · intro k
    have hlt : i < s.marks.length := (List.getElem?_eq_some_iff.mp hmark).1
    rw [hset, List.mem_append, hi.mem k, List.mem_singleton, List.getElem?_set]
    by_cases hik : i = k
    · simp [hik, hik ▸ hlt]
    · rw [if_neg hik]
      exact or_iff_left (Ne.symm hik)

/-- A worker that sleeps has no task. -/
theorem notEmpty_task (p : WorkerPc) (hp : notEmpty_.asleep p = true) :
    (notEmpty_.wake p).task = p.task := by
  rw [of_decide_eq_true hp]
  rfl

/-- The task of call `i` goes into the queue. -/
theorem PoolInv.push (hi : PoolInv s) (hc : s.calls[i]? = some c) (hnew : c.pc.accepted = false)
    (hfull : s.isFull = false) (h : s.push i c w = some s') : PoolInv s' := by
  obtain ⟨ws, hws, rfl⟩ := Option.map_eq_some_iff.mp h
  obtain ⟨hnodup, hmem⟩ := hi.accept hc hnew
  refine ⟨?_, ?_, ?_, hnodup, hmem, ?_, hi.waits_goCall (fun h => by cases h), hi.flag, ?_, ?_⟩
  · intro hmax
    have hlt : ¬ (0 < s.maxQueueSize_ ∧ s.maxQueueSize_ ≤ s.queue_.length) :=
      of_decide_eq_false hfull
    show (s.queue_ ++ [i]).length ≤ s.maxQueueSize_
    rw [List.length_append, List.length_singleton]
    have hmax' : 0 < s.maxQueueSize_ := hmax
    omega
  · show s.taken ++ (s.queue_ ++ [i]) = s.inserted ++ [i]
    rw [← List.append_assoc, hi.fifo]
  · show (ws.filterMap WorkerPc.task ++ s.done ++ (s.queue_ ++ [i])).Perm (s.accepted ++ [i])
    rw [CondVar.filterMap_notify notEmpty_task hws, ← List.append_assoc]
    exact hi.tasks.append_right [i]
  · exact fun k hk => List.mem_append_left _ (hi.due k hk)
  · intro hr q hq
    rcases CondVar.mem_notify hws hq with hq | ⟨p, -, -, rfl⟩
    · exact hi.awake hr q hq
    · exact fun h => WorkerPc.noConfusion h
  · intro hs q hq
    rcases CondVar.mem_notify hws hq with hq | ⟨p, hp, hsleep, -⟩
    · exact hi.ended hs q hq
    · have hend := hi.ended hs p hp
      rw [hend] at hsleep
      exact absurd hsleep (by decide)

/-- Worker `j` goes on with what it holds. -/
theorem PoolInv.goWorker (hi : PoolInv s) (hj : s.workers[j]? = some pc) (hpc : pc ≠ .ended)
    (htask : pc'.task = pc.task) (hasleep : s.running_ = false → pc' ≠ .asleep) :
    PoolInv (s.goWorker j pc') := by
  have hmem : pc ∈ s.workers := List.mem_of_getElem? hj
  refine { hi with tasks := ?_, awake := fun hr q hq => ?_, ended := fun hs => ?_ }
  · show ((s.workers.set j pc').filterMap WorkerPc.task ++ s.done ++ s.queue_).Perm s.accepted
    rw [CondVar.filterMap_set hj htask]
    exact hi.tasks
  · rcases List.mem_or_eq_of_mem_set hq with hq | rfl
    · exact hi.awake hr q hq
    · exact hasleep hr
  · exact absurd (hi.ended hs pc hmem) hpc

/-- The caller runs the task itself. -/
theorem PoolInv.direct (hi : PoolInv s) (hc : s.calls[i]? = some c) (hnew : c.pc.accepted = false) :
    PoolInv { s.goCall i c (.leaving true) with
      accepted := s.accepted ++ [i]
      done := s.done ++ [i] } := by
  obtain ⟨hnodup, hmem⟩ := hi.accept hc hnew
  refine ⟨hi.bound, hi.fifo, ?_, hnodup, hmem, ?_, hi.waits_goCall (fun h => by cases h), hi.flag,
    hi.awake, hi.ended⟩
  · show (s.workers.filterMap WorkerPc.task ++ (s.done ++ [i]) ++ s.queue_).Perm (s.accepted ++ [i])
    rw [← List.append_assoc, List.append_assoc _ [i]]
    refine List.Perm.trans (List.perm_append_comm.append_left _) ?_
    rw [← List.append_assoc]
    exact hi.tasks.append_right [i]
  · exact fun k hk => List.mem_append_left _ (hi.due k hk)

/-- Worker `j` takes the first task. -/
theorem PoolInv.pop (hi : PoolInv s) (hj : s.workers[j]? = some .take)
    (hq : s.queue_ = task :: rest) : PoolInv (s.pop j task rest) := by
  have hmem : WorkerPc.take ∈ s.workers := List.mem_of_getElem? hj
  refine { hi with bound := ?_, fifo := ?_, tasks := ?_, awake := ?_, ended := ?_ }
  · intro hmax
    have hle := hi.bound hmax
    rw [hq, List.length_cons] at hle
    exact Nat.le_of_succ_le hle
  · show s.taken ++ [task] ++ rest = s.inserted
    rw [List.append_assoc, List.singleton_append, ← hq]
    exact hi.fifo
  · have hset : ((s.workers.set j (.running task)).filterMap WorkerPc.task).Perm
        (s.workers.filterMap WorkerPc.task ++ [task]) := by
      have := filterMap_set_perm WorkerPc.task hj (.running task)
      rwa [show WorkerPc.take.task = none from rfl, Option.toList_none, List.append_nil] at this
    show ((s.workers.set j (.running task)).filterMap WorkerPc.task ++ s.done ++ rest).Perm s.accepted
    refine List.Perm.trans ?_ hi.tasks
    rw [hq]
    calc (s.workers.set j (.running task)).filterMap WorkerPc.task ++ s.done ++ rest
        |>.Perm (s.workers.filterMap WorkerPc.task ++ [task] ++ s.done ++ rest) :=
          (hset.append_right _).append_right _
      _ |>.Perm (s.workers.filterMap WorkerPc.task ++ s.done ++ [task] ++ rest) := by
          rw [List.append_assoc _ [task], List.append_assoc _ s.done]
          exact (List.perm_append_comm.append_left _).append_right _
      _ |>.Perm (s.workers.filterMap WorkerPc.task ++ s.done ++ task :: rest) := by
          rw [List.append_assoc _ [task], List.singleton_append]
  · intro hr q hq
    rcases List.mem_or_eq_of_mem_set hq with hq | rfl
    · exact hi.awake hr q hq
    · exact fun h => WorkerPc.noConfusion h
  · intro hs
    exact absurd (hi.ended hs _ hmem) (by decide)

/-- Worker `j` has run its task. -/
theorem PoolInv.finish (hi : PoolInv s) (hj : s.workers[j]? = some (.running task)) :
    PoolInv { s.goWorker j .check with done := s.done ++ [task] } := by
  have hmem : WorkerPc.running task ∈ s.workers := List.mem_of_getElem? hj
  refine { hi with tasks := ?_, awake := ?_, ended := ?_ }
  · have hset : ((s.workers.set j .check).filterMap WorkerPc.task ++ [task]).Perm
        (s.workers.filterMap WorkerPc.task) := by
      have := filterMap_set_perm WorkerPc.task hj .check
      rwa [show WorkerPc.check.task = none from rfl, Option.toList_none, List.append_nil] at this
    show ((s.workers.set j .check).filterMap WorkerPc.task ++ (s.done ++ [task]) ++ s.queue_).Perm
      s.accepted
    refine List.Perm.trans (List.Perm.append_right _ ?_) hi.tasks
    calc (s.workers.set j .check).filterMap WorkerPc.task ++ (s.done ++ [task])
        |>.Perm ((s.workers.set j .check).filterMap WorkerPc.task ++ ([task] ++ s.done)) :=
          List.perm_append_comm.append_left _
      _ |>.Perm (s.workers.filterMap WorkerPc.task ++ s.done) := by
          rw [← List.append_assoc]
          exact hset.append_right _
  · intro hr q hq
    rcases List.mem_or_eq_of_mem_set hq with hq | rfl
    · exact hi.awake hr q hq
    · exact fun h => WorkerPc.noConfusion h
  · intro hs
    exact absurd (hi.ended hs _ hmem) (by simp)

/-- Who sleeps on the full queue is woken or not, and the task of each call stays where it is. -/
theorem PoolInv.notified (hi : PoolInv s) (h : notFull_.notify s.calls w = some cs) :
    PoolInv { s with calls := cs } := by
  have hwake : ∀ c, notFull_.asleep c → (notFull_.wake c).pc.accepted = c.pc.accepted := by
    intro c hc
    have hpc : c.pc = .asleep := of_decide_eq_true hc
    rw [hpc]
    rfl
  have hmarks : (cs.map fun c => c.pc.accepted) = s.marks := CondVar.map_notify hwake h
  refine hi.ofCalls (fun k => ?_) fun c hc hpc => ?_
  · rw [hmarks]
  · rcases CondVar.mem_notify h hc with hc | ⟨c', -, -, rfl⟩
    · exact hi.waits c hc hpc
    · cases hpc

theorem PoolInv.take (hi : PoolInv s) (hj : s.workers[j]? = some .take)
    (h : s.take j w = some s') : PoolInv s' := by
  unfold ThreadPool.take at h
  split at h
  · cases h
    refine hi.goWorker hj (by decide) ?_ fun hr => ?_
    · split <;> rfl
    · rw [hr]
      decide
  · rename_i task rest hq
    have hpop := hi.pop hj hq
    split at h
    · obtain ⟨cs, hcs, rfl⟩ := Option.map_eq_some_iff.mp h
      exact hpop.notified hcs
    · cases h
      exact hpop

theorem PoolInv.workerStep (hi : PoolInv s) (hj : s.workers[j]? = some pc)
    (h : s.workerStep j w pc = some s') : PoolInv s' := by
  cases pc with
  | check =>
    cases h
    refine hi.goWorker hj (by decide) ?_ fun _ => ?_
    · split <;> rfl
    · split <;> decide
  | take => exact hi.take hj h
  | running task =>
    cases h
    exact hi.finish hj
  | asleep | ended => cases h

theorem PoolInv.callStep (hi : PoolInv s) (hc : s.calls[i]? = some c)
    (h : s.callStep i c w = some s') : PoolInv s' := by
  unfold ThreadPool.callStep at h
  split at h
  · rename_i hpc
    have hnew : c.pc.accepted = false := by rw [hpc]; rfl
    split at h
    · cases h
      exact hi.direct hc hnew
    · cases h
      exact hi.goCall hc hnew.symm fun h => by cases h
  · rename_i hpc
    have hnew : c.pc.accepted = false := by rw [hpc]; rfl
    split at h
    · rename_i hfull
      split at h
      · cases h
        exact hi.goCall hc hnew.symm fun _ => (of_decide_eq_true hfull).1
      · cases h
        exact hi.goCall hc hnew.symm fun h => by cases h
    · rename_i hfull
      exact hi.push hc hnew (Bool.eq_false_iff.mpr hfull) h
  · rename_i ret hpc
    cases h
    refine hi.goCall hc ?_ fun h => by cases h
    rw [hpc]
    rfl
  · cases h
  · cases h

theorem PoolInv.stopStep (hi : PoolInv s) (h : s.stopStep = some s') : PoolInv s' := by
  unfold ThreadPool.stopStep at h
  split at h
  · rename_i hs
    cases h
    refine { hi with due := ?_, flag := ?_, ended := fun h => StopPc.noConfusion h }
    · intro k hk
      obtain ⟨-, hret⟩ := List.mem_filter.mp hk
      rw [hi.mem, ThreadPool.marks, List.getElem?_map]
      cases hc : s.calls[k]? with
      | none =>
        rw [hc] at hret
        cases hret
      | some c =>
        rw [hc] at hret
        have hpc : c.pc = .returned true := of_decide_eq_true hret
        rw [Option.map_some, hpc]
        rfl
    · rw [hi.flag, hs]
      rfl
  · cases h
    refine ⟨hi.bound, hi.fifo, ?_, hi.nodup, hi.mem, hi.due, hi.waits, rfl, ?_,
      fun h => StopPc.noConfusion h⟩
    · show ((notEmpty_.notifyAll s.workers).filterMap WorkerPc.task ++ s.done ++ s.queue_).Perm
        s.accepted
      rw [CondVar.filterMap_notifyAll notEmpty_task]
      exact hi.tasks
    · intro _ pc hpc hsleep
      have hawake := CondVar.notifyAll_awake hpc
      rw [hsleep] at hawake
      cases hawake
  · rename_i hs
    split at h
    · rename_i hall
      cases h
      refine { hi with flag := ?_, ended := fun _ pc hpc => ?_ }
      · rw [hi.flag, hs]
        rfl
      · exact of_decide_eq_true (List.all_eq_true.mp hall pc hpc)
    · cases h
  · cases h

theorem PoolInv.next {a : PoolAct} (hi : PoolInv s) (h : s.next a = some s') : PoolInv s' := by
  cases a with
  | call kind =>
    cases h
    exact hi.call kind
  | callStep i w =>
    obtain ⟨c, hc, h⟩ := Option.bind_eq_some_iff.mp h
    exact hi.callStep hc h
  | worker j w =>
    obtain ⟨pc, hj, h⟩ := Option.bind_eq_some_iff.mp h
    exact hi.workerStep hj h
  | stop => exact hi.stopStep h

end

theorem poolInv {numThreads maxQueueSize : Nat} {s : ThreadPool}
    (h : (poolSystem numThreads maxQueueSize).Reach s) : PoolInv s :=
  h.inv (PoolInv.init numThreads maxQueueSize) fun _ _ _ hi hs => hi.next hs

/-! ## The workers that `stop` finds in `take` -/

section

variable {s s' : ThreadPool} {i j task : Nat} {rest : List Nat} {c : Call} {pc pc' : WorkerPc}
  {cpc : CallPc} {w : Option Nat} {cs : List Call} {a : PoolAct}

theorem inTake_goWorker (hj : s.workers[j]? = some pc) (pc' : WorkerPc) :
    (s.goWorker j pc').inTake + (if pc.insideTake then 1 else 0) =
      s.inTake + if pc'.insideTake then 1 else 0 :=
  countP_set WorkerPc.insideTake hj pc'

theorem sleepers_goCall (hc : s.calls[i]? = some c) (cpc : CallPc) :
    (s.goCall i c cpc).sleepers + (if c.asleep then 1 else 0) =
      s.sleepers + if ({ c with pc := cpc } : Call).asleep then 1 else 0 :=
  countP_set Call.asleep hc { c with pc := cpc }

theorem enough_congr (hq : s'.queue_ = s.queue_) (hd : s'.due = s.due) (hm : s'.inTake = s.inTake)
    (hs : s'.sleepers = s.sleepers) : Enough s' ↔ Enough s := by
  unfold Enough
  rw [hq, hd, hm, hs]

theorem enough_goWorker (hj : s.workers[j]? = some pc) (h : pc'.insideTake = pc.insideTake) :
    Enough (s.goWorker j pc') ↔ Enough s := by
  have hin := inTake_goWorker hj pc'
  rw [h] at hin
  exact enough_congr rfl rfl (Nat.add_right_cancel hin) rfl

theorem enough_goCall (hc : s.calls[i]? = some c) (hold : c.asleep = false) (hnew : cpc ≠ .asleep) :
    Enough (s.goCall i c cpc) ↔ Enough s := by
  have hsleep := sleepers_goCall hc cpc
  have hawake : ({ c with pc := cpc } : Call).asleep = false := decide_eq_false hnew
  rw [hold, hawake] at hsleep
  exact enough_congr rfl rfl rfl (Nat.add_right_cancel hsleep)

/-- A caller falls asleep. -/
theorem enough_sleep (hc : s.calls[i]? = some c) (hold : c.asleep = false) :
    Enough (s.goCall i c .asleep) ↔ s.sleepers < s.inTake ∧ Enough s := by
  have hsleep : (s.goCall i c .asleep).sleepers = s.sleepers + 1 := by
    have := sleepers_goCall hc .asleep
    rw [hold] at this
    exact this
  show (∀ task ∈ s.queue_.drop s.inTake, s.due.contains task = false) ∧
    (s.goCall i c .asleep).sleepers ≤ s.inTake ↔ s.sleepers < s.inTake ∧ Enough s
  rw [hsleep, Enough]
  constructor
  · rintro ⟨htasks, hle⟩
    exact ⟨hle, htasks, Nat.le_of_succ_le hle⟩
  · rintro ⟨hlt, htasks, -⟩
    exact ⟨htasks, hlt⟩

/-- A worker leaves `take` without a task. -/
theorem enough_leave (hj : s.workers[j]? = some .take) (hq : s.queue_ = []) :
    Enough (s.goWorker j .check) ↔ s.sleepers < s.inTake ∧ Enough s := by
  have hin : (s.goWorker j .check).inTake + 1 = s.inTake := inTake_goWorker hj .check
  have hdrop : ∀ n, s.queue_.drop n = [] := fun n => by rw [hq, List.drop_nil]
  show (∀ task ∈ s.queue_.drop (s.goWorker j .check).inTake, s.due.contains task = false) ∧
    s.sleepers ≤ (s.goWorker j .check).inTake ↔ s.sleepers < s.inTake ∧ Enough s
  rw [Enough, hdrop, hdrop, ← hin]
  constructor
  · rintro ⟨htasks, hle⟩
    exact ⟨Nat.lt_succ_of_le hle, htasks, Nat.le_succ_of_le hle⟩
  · rintro ⟨hlt, htasks, -⟩
    exact ⟨htasks, Nat.le_of_lt_succ hlt⟩

/-- A worker takes a task and wakes a caller. -/
theorem enough_pop (hj : s.workers[j]? = some .take) (hq : s.queue_ = task :: rest)
    (hcs : cs.countP Call.asleep = s.sleepers - 1) :
    Enough { s.pop j task rest with calls := cs } ↔ Enough s := by
  have hin : (s.goWorker j (.running task)).inTake + 1 = s.inTake :=
    inTake_goWorker hj (.running task)
  show (∀ t ∈ rest.drop (s.goWorker j (.running task)).inTake, s.due.contains t = false) ∧
    cs.countP Call.asleep ≤ (s.goWorker j (.running task)).inTake ↔ Enough s
  rw [Enough, hcs, hq, ← hin, List.drop_succ_cons]
  refine and_congr_right' ?_
  omega

/-- A task that goes into the queue behind the call of `stop` is not due. -/
theorem enough_push (hi : PoolInv s) (hc : s.calls[i]? = some c) (hpc : c.pc = .locking)
    (h : s.push i c w = some s') : Enough s' ↔ Enough s := by
  obtain ⟨ws, hws, rfl⟩ := Option.map_eq_some_iff.mp h
  have hin : ws.countP WorkerPc.insideTake = s.inTake := by
    refine CondVar.countP_notify (fun p hp => ?_) hws
    rw [of_decide_eq_true hp]
    rfl
  have hsleep : (s.goCall i c (.leaving true)).sleepers = s.sleepers := by
    have := sleepers_goCall hc (.leaving true)
    rw [Call.asleep, hpc] at this
    exact this
  have hdue : s.due.contains i = false := by
    rw [Bool.eq_false_iff]
    intro hmem
    have hmark := (hi.mem i).mp (hi.due i (List.contains_iff_mem.mp hmem))
    rw [ThreadPool.marks, List.getElem?_map, hc, Option.map_some, hpc] at hmark
    cases hmark
  show (∀ task ∈ (s.queue_ ++ [i]).drop (ws.countP WorkerPc.insideTake),
      s.due.contains task = false) ∧
    (s.goCall i c (.leaving true)).sleepers ≤ ws.countP WorkerPc.insideTake ↔ Enough s
  rw [hin, hsleep, Enough]
  refine and_congr_left' ?_
  rw [List.drop_append]
  constructor
  · exact fun h task htask => h task (List.mem_append_left _ htask)
  · intro h task htask
    rcases List.mem_append.mp htask with htask | htask
    · exact h task htask
    · rw [List.mem_singleton.mp (List.mem_of_mem_drop htask)]
      exact hdue

theorem enough_lock : Enough { s with
    stop := .joining
    running_ := false
    workers := notEmpty_.notifyAll s.workers } ↔ Enough s := by
  refine enough_congr rfl rfl ?_ rfl
  refine CondVar.countP_notifyAll fun p hp => ?_
  rw [of_decide_eq_true hp]
  rfl

/-- A step that changes nothing of all that. -/
theorem stillEnough_of_quiet (hrun : s'.running_ = s.running_) (hin : InTime s a)
    (h : Enough s' ↔ Enough s) :
    (s'.running_ = false → Enough s') ↔ InTime s a ∧ (s.running_ = false → Enough s) := by
  rw [hrun, h]
  exact (and_iff_right hin).symm

/-- A step before `stop` takes the lock. -/
theorem stillEnough_of_running (hr : s.running_ = true) (hr' : s'.running_ = true)
    (hin : InTime s a) :
    (s'.running_ = false → Enough s') ↔ InTime s a ∧ (s.running_ = false → Enough s) := by
  simp [hr, hr', hin]

theorem enough_take (hi : PoolInv s) (hj : s.workers[j]? = some .take)
    (h : s.take j w = some s') : (s'.running_ = false → Enough s') ↔
      InTime s (.worker j w) ∧ (s.running_ = false → Enough s) := by
  unfold ThreadPool.take at h
  split at h
  · rename_i hq
    cases h
    by_cases hr : s.running_ = true
    · exact stillEnough_of_running hr hr fun h => absurd hr (by rw [h]; decide)
    · have hr : s.running_ = false := Bool.eq_false_iff.mpr hr
      have hin : InTime s (.worker j w) ↔ s.sleepers < s.inTake :=
        ⟨fun h => h hr hj hq, fun h _ _ _ => h⟩
      rw [hin, hr, if_neg Bool.false_ne_true]
      exact (forall_prop_of_true hr).trans ((enough_leave hj hq).trans (by simp))
  · rename_i task rest hq
    have hin : InTime s (.worker j w) := by
      intro _ _ hnil
      rw [hq] at hnil
      cases hnil
    split at h
    · obtain ⟨cs, hcs, rfl⟩ := Option.map_eq_some_iff.mp h
      exact stillEnough_of_quiet rfl hin (enough_pop hj hq (CondVar.countP_asleep_notify hcs))
    · rename_i hmax
      cases h
      have hzero : s.sleepers = 0 := by
        rw [ThreadPool.sleepers, List.countP_eq_zero]
        intro c hc hsleep
        exact hmax (hi.waits c hc (of_decide_eq_true hsleep))
      exact stillEnough_of_quiet rfl hin (enough_pop hj hq (by
        show s.sleepers = s.sleepers - 1
        rw [hzero]))

theorem enough_workerStep (hi : PoolInv s) (hj : s.workers[j]? = some pc)
    (h : s.workerStep j w pc = some s') : (s'.running_ = false → Enough s') ↔
      InTime s (.worker j w) ∧ (s.running_ = false → Enough s) := by
  have hin : pc ≠ .take → InTime s (.worker j w) := by
    intro hpc _ htake _
    rw [hj] at htake
    exact absurd (Option.some.inj htake) hpc
  cases pc with
  | check =>
    cases h
    have hin : InTime s (.worker j w) := hin (by decide)
    by_cases hr : s.running_ = true
    · exact stillEnough_of_running hr hr hin
    · rw [if_neg hr]
      exact stillEnough_of_quiet rfl hin (enough_goWorker hj rfl)
  | take => exact enough_take hi hj h
  | running task =>
    cases h
    exact stillEnough_of_quiet rfl (hin (by simp)) (enough_goWorker hj rfl)
  | asleep | ended => cases h

theorem enough_callStep (hi : PoolInv s) (hc : s.calls[i]? = some c)
    (h : s.callStep i c w = some s') : (s'.running_ = false → Enough s') ↔
      InTime s (.callStep i w) ∧ (s.running_ = false → Enough s) := by
  have hin : (c = ⟨.run, .locking⟩ → s.isFull = false) → InTime s (.callStep i w) := by
    intro hno _ hcall hfull
    rw [hc] at hcall
    rw [hno (Option.some.inj hcall)] at hfull
    cases hfull
  obtain ⟨kind, cpc⟩ := c
  cases cpc with
  | entering =>
    have hin := hin fun h => by cases h
    simp only [ThreadPool.callStep] at h
    split at h
    · cases h
      exact stillEnough_of_quiet rfl hin (enough_goCall hc rfl (by decide))
    · cases h
      exact stillEnough_of_quiet rfl hin (enough_goCall hc rfl (by decide))
  | locking =>
    simp only [ThreadPool.callStep] at h
    split at h
    · rename_i hfull
      cases kind with
      | run =>
        cases h
        by_cases hr : s.running_ = true
        · exact stillEnough_of_running hr hr fun h => absurd hr (by rw [h]; decide)
        · have hr : s.running_ = false := Bool.eq_false_iff.mpr hr
          have hin : InTime s (.callStep i w) ↔ s.sleepers < s.inTake :=
            ⟨fun h => h hr hc hfull, fun h _ _ _ => h⟩
          rw [hin, hr]
          exact (forall_prop_of_true hr).trans ((enough_sleep hc rfl).trans (by simp))
      | TryRun =>
        cases h
        exact stillEnough_of_quiet rfl (hin fun h => by cases h) (enough_goCall hc rfl (by decide))
    · rename_i hfull
      have hfull := Bool.eq_false_iff.mpr hfull
      have hpush := enough_push hi hc rfl h
      obtain ⟨ws, -, rfl⟩ := Option.map_eq_some_iff.mp h
      exact stillEnough_of_quiet rfl (hin fun _ => hfull) hpush
  | leaving ret =>
    cases h
    exact stillEnough_of_quiet rfl (hin fun h => by cases h) (enough_goCall hc rfl (by simp))
  | asleep | returned ret => cases h

theorem enough_stopStep (hi : PoolInv s) (h : s.stopStep = some s') :
    (s'.running_ = false → Enough s') ↔
      InTime s .stop ∧ (s.running_ = false → Enough s) := by
  have hin : s.stop ≠ .called → InTime s .stop := fun hne h => absurd h hne
  unfold ThreadPool.stopStep at h
  split at h
  · rename_i hs
    cases h
    have hr : s.running_ = true := by rw [hi.flag, hs]; rfl
    exact stillEnough_of_running hr hr (hin (by rw [hs]; decide))
  · rename_i hs
    cases h
    have hr : s.running_ = true := by rw [hi.flag, hs]; rfl
    have hin : InTime s .stop ↔ Enough s := ⟨fun h => h hs, fun h _ => h⟩
    rw [hin, and_iff_left (fun h => absurd hr (by rw [h]; decide))]
    exact (forall_prop_of_true rfl).trans enough_lock
  · rename_i hs
    split at h
    · cases h
      exact stillEnough_of_quiet rfl (hin (by rw [hs]; decide)) (enough_congr rfl rfl rfl rfl)
    · cases h
  · cases h

/-- **One step**: behind the lock of `stop` the workers are enough exactly if they were before and the
step meets the condition. -/
theorem enough_next_iff (hi : PoolInv s) (h : s.next a = some s') :
    (s'.running_ = false → Enough s') ↔ InTime s a ∧ (s.running_ = false → Enough s) := by
  cases a with
  | call kind =>
    cases h
    refine stillEnough_of_quiet rfl trivial (enough_congr rfl rfl rfl ?_)
    exact List.countP_append
  | callStep i w =>
    obtain ⟨c, hc, h⟩ := Option.bind_eq_some_iff.mp h
    exact enough_callStep hi hc h
  | worker j w =>
    obtain ⟨pc, hj, h⟩ := Option.bind_eq_some_iff.mp h
    exact enough_workerStep hi hj h
  | stop => exact enough_stopStep hi h

/-! ## Runs -/

theorem PoolInv.once (hi : PoolInv s) : (s.workers.filterMap WorkerPc.task ++ s.done).Nodup :=
  (List.nodup_append.mp (hi.tasks.nodup_iff.mpr hi.nodup)).1

/-- When `stop` has returned no worker runs. -/
theorem PoolInv.stopped (hi : PoolInv s) (hs : s.stop = .returned) :
    s.running_ = false ∧ s.inTake = 0 ∧ (s.done ++ s.queue_).Perm s.accepted := by
  have hended := hi.ended hs
  refine ⟨?_, ?_, ?_⟩
  · rw [hi.flag, hs]
    rfl
  · rw [ThreadPool.inTake, List.countP_eq_zero]
    intro pc hpc
    rw [hended pc hpc]
    decide
  · have hnone : s.workers.filterMap WorkerPc.task = [] := by
      rw [List.filterMap_eq_nil_iff]
      intro pc hpc
      rw [hended pc hpc]
      rfl
    have htasks := hi.tasks
    rwa [hnone, List.nil_append] at htasks

theorem PoolInv.orderly (hi : PoolInv s) (he : s.running_ = false → Enough s) : Orderly s where
  bound := hi.bound
  fifo := hi.fifo
  once := hi.once
  ran hs task hdue := by
    obtain ⟨hr, hin, hperm⟩ := hi.stopped hs
    have htasks := (he hr).1
    rw [hin, List.drop_zero] at htasks
    rcases List.mem_append.mp (hperm.mem_iff.mpr (hi.due task hdue)) with hdone | hqueue
    · exact hdone
    · have hnot := htasks task hqueue
      rw [List.contains_iff_mem.mpr hdue] at hnot
      cases hnot
  awake hs c hc hsleep := by
    obtain ⟨hr, hin, -⟩ := hi.stopped hs
    have hle := (he hr).2
    rw [hin, Nat.le_zero, ThreadPool.sleepers, List.countP_eq_zero] at hle
    exact hle c hc (decide_eq_true hsleep)

/-- When `stop` has returned, what is left in the queue or asleep is what the workers were too few
for. -/
theorem PoolInv.enough (hi : PoolInv s) (hs : s.stop = .returned) (ho : Orderly s) : Enough s := by
  obtain ⟨-, hin, hperm⟩ := hi.stopped hs
  constructor
  · intro task htask
    rw [hin, List.drop_zero] at htask
    have hdisj := List.disjoint_of_nodup_append (hperm.nodup_iff.mpr hi.nodup)
    rw [Bool.eq_false_iff]
    exact fun hdue => hdisj (ho.ran hs task (List.contains_iff_mem.mp hdue)) htask
  · rw [hin, Nat.le_zero, ThreadPool.sleepers, List.countP_eq_zero]
    exact fun c hc hsleep => ho.awake hs c hc (of_decide_eq_true hsleep)

end

/-- **Every run** whose steps all meet the condition is orderly in each state, and a run to the return
of `stop` is orderly only if its steps do. -/
theorem pool_orderly {numThreads maxQueueSize : Nat} (acts : List PoolAct) {s : ThreadPool}
    (h : (poolSystem numThreads maxQueueSize).run (poolSystem numThreads maxQueueSize).init acts =
      some s) :
    (((poolSystem numThreads maxQueueSize).only InTime).run
        (poolSystem numThreads maxQueueSize).init acts = some s → Orderly s) ∧
      (s.stop = .returned → (Orderly s ↔ ((poolSystem numThreads maxQueueSize).only InTime).run
        (poolSystem numThreads maxQueueSize).init acts = some s)) := by
  have hi : PoolInv s := poolInv (Sys.Reach.init.run acts h)
  have hinit := PoolInv.init numThreads maxQueueSize
  have hrun := Sys.run_only_iff_of_inv (C := InTime) (I := fun s => s.running_ = false → Enough s)
    (fun _ _ _ hi hs => hi.next hs) (fun _ _ _ hi hs => enough_next_iff hi hs) hinit acts h
  have hstart : (poolSystem numThreads maxQueueSize).init.running_ = false →
      Enough (poolSystem numThreads maxQueueSize).init := fun h => Bool.noConfusion h
  have hiff := hrun.trans (and_iff_left hstart)
  refine ⟨fun hin => hi.orderly (hiff.mpr hin), fun hs => ⟨fun ho => ?_, fun hin => ?_⟩⟩
  · exact hiff.mp fun _ => hi.enough hs ho
  · exact hi.orderly (hiff.mpr hin)

/-- One worker runs one task, and `stop` finds the queue empty. -/
def oneTask : List PoolAct :=
  [.call .run, .callStep 0 none, .callStep 0 none, .callStep 0 none, .worker 0 none, .worker 0 none,
    .worker 0 none, .stop, .stop, .worker 0 none, .stop]

theorem pool_orderly_one : ∃ s, (poolSystem 1 1).run (poolSystem 1 1).init oneTask = some s ∧
    s.stop = .returned ∧ s.due = [0] ∧ s.done = [0] ∧ Orderly s := by
  have hrun : (poolSystem 1 1).run (poolSystem 1 1).init oneTask = some _ := rfl
  exact ⟨_, hrun, rfl, rfl, rfl, (pool_orderly oneTask hrun).1 rfl⟩

/-- The queue holds the task of a call that has returned, a second caller sleeps on it, and `stop`
takes the lock while the worker is at the test of `running_`. -/
def stopAtTest : List PoolAct :=
  [.call .run, .callStep 0 none, .callStep 0 none, .callStep 0 none, .call .run, .callStep 1 none,
    .callStep 1 none, .stop, .stop, .worker 0 none, .stop]

/-- The task is never run, and the caller sleeps for good. -/
theorem pool_not_orderly : ∃ s, (poolSystem 1 1).run (poolSystem 1 1).init stopAtTest = some s ∧
    s.stop = .returned ∧ s.due = [0] ∧ s.done = [] ∧
    s.calls = [⟨.run, .returned true⟩, ⟨.run, .asleep⟩] ∧ ¬ Orderly s := by
  refine ⟨_, rfl, rfl, rfl, rfl, rfl, fun h => ?_⟩
  exact absurd (h.ran rfl 0 (List.mem_singleton.mpr rfl)) (by decide)

end Common
end CmakeFrame
