import CmakeFrame.CurlHttpCli.HttpCliQueue
import CmakeFrame.MsgFile.DetailQueue

/-!
# Closing `DetailQueue` and `HttpResponseQueue`

Both exit functions set `isExit_` and call `notifyAll` without the mutex.

* `queue_exit_wakes`: in every run in which `notifyAll` does not fall between the test of `isExit_`
  and `wait()` of a consumer, the exit function leaves nobody asleep.
* `queue_exit_missed`: in the other runs a consumer sleeps for good.
* `detailQueueExit_drained`, `httpResponseExit_drained`: the condition is exact.
-/

namespace CmakeFrame

open Lib CurlHttp MsgFile

/-- Any number of producers and consumers of a `DetailQueue` of any size. -/
def detailQueueSystem (ι : Type) (maxSize : Nat) : Sys (Closing (DetailQueue ι) ι) (ClosingAct ι) :=
  DetailQueue.closable.system { DetailQueue.new with maxSize_ := maxSize }

/-- Any number of producers and consumers of a `HttpResponseQueue`. -/
def httpResponseQueueSystem (ρ : Type) : Sys (Closing (HttpResponseQueue ρ) ρ) (ClosingAct ρ) :=
  HttpResponseQueue.closable.system .new

/-- In every run without a gap, of either queue: once the exit call has come back nobody sleeps on
the empty queue or goes to sleep on it, and the elements come out once and in order. -/
theorem queue_exit_wakes (ι : Type) (maxSize : Nat) (s : Closing (DetailQueue ι) ι)
    (hs : ((detailQueueSystem ι maxSize).only Closable.NoGap).Reach s)
    (ρ : Type) (t : Closing (HttpResponseQueue ρ) ρ)
    (ht : ((httpResponseQueueSystem ρ).only Closable.NoGap).Reach t) :
    DetailQueue.closable.Drained s ∧ HttpResponseQueue.closable.Drained t :=
  ⟨Closable.drained hs, Closable.drained ht⟩

/-- A consumer sleeps, an element comes and goes, the consumer sleeps again, and the exit wakes it. -/
def sleepsAndIsWoken : List (ClosingAct Nat) :=
  [.call, .turn 0, .sleep 0, .insert 7 (some 0), .turn 0, .again 0, .turn 0, .sleep 0, .exit,
    .notifyAll, .turn 0]

theorem queue_exit_wakes_sleeper :
    ∃ s t, ((detailQueueSystem Nat 10000).only Closable.NoGap).run
        ((detailQueueSystem Nat 10000).only Closable.NoGap).init sleepsAndIsWoken = some s ∧
      ((httpResponseQueueSystem Nat).only Closable.NoGap).run
        ((httpResponseQueueSystem Nat).only Closable.NoGap).init sleepsAndIsWoken = some t ∧
      s.closed ∧ s.takers = [.done none] ∧ t.closed ∧ t.takers = [.done none] ∧
      DetailQueue.closable.Drained s ∧ HttpResponseQueue.closable.Drained t :=
  ⟨_, _, rfl, rfl, rfl, rfl, rfl, rfl,
    queue_exit_wakes Nat 10000 _ (Sys.Reach.init.run sleepsAndIsWoken rfl)
      Nat _ (Sys.Reach.init.run sleepsAndIsWoken rfl)⟩

/-- The consumer has found `isExit_` clear; then the exit call does all its work; then the consumer
sleeps. -/
def exitInTheGap : List (ClosingAct Nat) := [.call, .turn 0, .exit, .notifyAll, .sleep 0]

theorem queue_exit_missed :
    (∃ s, (detailQueueSystem Nat 10000).Reach s ∧ s.closed ∧ s.q.queue_ = [] ∧
      .asleep ∈ s.takers ∧ ¬ DetailQueue.closable.Drained s) ∧
    ∃ s, (httpResponseQueueSystem Nat).Reach s ∧ s.closed ∧ s.q.queue_ = [] ∧
      .asleep ∈ s.takers ∧ ¬ HttpResponseQueue.closable.Drained s := by
  constructor
  · obtain ⟨s, hrun, hclosed, hempty, hmem⟩ : ∃ s, (detailQueueSystem Nat 10000).run
        (detailQueueSystem Nat 10000).init exitInTheGap = some s ∧ s.closed ∧ s.q.queue_ = [] ∧
        .asleep ∈ s.takers := ⟨_, rfl, rfl, rfl, by decide⟩
    refine ⟨s, Sys.Reach.init.run _ hrun, hclosed, hempty, hmem, ?_⟩
    intro hd
    exact (hd.awake hclosed hempty _ hmem).1 rfl
  · obtain ⟨s, hrun, hclosed, hempty, hmem⟩ : ∃ s, (httpResponseQueueSystem Nat).run
        (httpResponseQueueSystem Nat).init exitInTheGap = some s ∧ s.closed ∧ s.q.queue_ = [] ∧
        .asleep ∈ s.takers := ⟨_, rfl, rfl, rfl, by decide⟩
    refine ⟨s, Sys.Reach.init.run _ hrun, hclosed, hempty, hmem, ?_⟩
    intro hd
    exact (hd.awake hclosed hempty _ hmem).1 rfl

/-- The other way round: where `notifyAll` of `detailQueueExit` finds the queue empty, it leaves
nobody asleep exactly if nobody stands between the test and `wait()`. -/
theorem detailQueueExit_drained {ι : Type} {maxSize : Nat} {s s' : Closing (DetailQueue ι) ι}
    (hr : (detailQueueSystem ι maxSize).Reach s) (hempty : s.q.queue_ = [])
    (h : (detailQueueSystem ι maxSize).next s .notifyAll = some s') :
    DetailQueue.closable.Drained s' ↔ Closable.NoGap s .notifyAll :=
  Closable.notifyAll_drained (Closable.fifo hr) hempty h

theorem httpResponseExit_drained {ρ : Type} {s s' : Closing (HttpResponseQueue ρ) ρ}
    (hr : (httpResponseQueueSystem ρ).Reach s) (hempty : s.q.queue_ = [])
    (h : (httpResponseQueueSystem ρ).next s .notifyAll = some s') :
    HttpResponseQueue.closable.Drained s' ↔ Closable.NoGap s .notifyAll :=
  Closable.notifyAll_drained (Closable.fifo hr) hempty h

end CmakeFrame
