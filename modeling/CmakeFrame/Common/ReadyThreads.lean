import CmakeFrame.Lib.Sys
import CmakeFrame.Lib.Threads

/-!
# The count of the IO threads that are ready

The two clients with IO threads, `LibeventTcpCli` and `CurlHttpCli`, start them the same way: a
thread makes its object, calls its ready function and, when that has returned, counts `readyIothread`
down and begins again unless the client exits. The ready function counts `readyIothread` up just
before `event_base_dispatch`, behind the exits for what could not be made. A request waits until as
many threads are ready as there are.

* `Client.ready`: what the ready functions of the two clients look at before they count.
* `IoThread.step`, `system`: the threads and their interleavings.
* `Right`: the count is the number of running loops.
* `CountInv`: each attempt that has failed is missing from the count for ever, modulo `2^32`;
  `readyIothread_right_iff`: the count is right as long as none has; `request_waits_iff`.
-/

namespace CmakeFrame
namespace ReadyThreads

open Lib

/-- What a ready function may find missing. -/
inductive Check
  | wakeupFd
  | connVectPtr
  | reqQueuePtr
  | globalInfo
  | evbase
deriving DecidableEq

inductive Client
  | libeventTcpCli
  | curlHttpCli

/-- The exits of `libeventIoReady` and of `asyncCurlReady` before the thread is counted. -/
def Client.ready : Client → List Check
  | .libeventTcpCli => [.wakeupFd, .evbase]
  | .curlHttpCli => [.wakeupFd, .connVectPtr, .reqQueuePtr, .globalInfo, .evbase]

/-- Where a thread is: before the `new` of its object, in the ready function with the checks `rest`
to come, in `event_base_dispatch`, behind the return of the ready function, at the look at `isExit`,
and at its end. -/
inductive Pc
  | fresh
  | checking (rest : List Check)
  | dispatch
  | returned (ret : Int)
  | counted
  | ended
deriving DecidableEq

/-- The loop runs from its notification until its return is counted. -/
def Pc.isRunning : Pc → Bool
  | .dispatch => true
  | .returned ret => ret = 0
  | .fresh | .checking _ | .counted | .ended => false

/-- A client and its IO threads. `failed` is history: how many attempts have failed. -/
structure IoThreads where
  readyIothread : UInt32
  exitIothread : UInt32
  isExit : Bool
  threads : List Pc
  failed : Nat

/-- The number of loops that run. -/
def IoThreads.running (s : IoThreads) : Nat := s.threads.countP Pc.isRunning

/-- Thread `i` goes to `pc`. -/
def IoThreads.goto (s : IoThreads) (i : Nat) (pc : Pc) : IoThreads :=
  { s with threads := s.threads.set i pc }

/-- A step of thread `i` at `pc`. `ok` says whether what is made in this step is there. -/
def IoThreads.step (client : Client) (s : IoThreads) (i : Nat) (ok : Bool) : Pc → Option IoThreads
  | .fresh => some (s.goto i (if ok then .checking client.ready else .fresh))
  | .checking (_ :: rest) => some (s.goto i (if ok then .checking rest else .returned (-1)))
  | .checking [] => some { s.goto i .dispatch with readyIothread := s.readyIothread + 1 }
  | .dispatch => some (s.goto i (.returned 0))
  | .returned ret => some { s.goto i .counted with
      readyIothread := s.readyIothread - 1
      failed := s.failed + if ret = 0 then 0 else 1 }
  | .counted =>
    if s.isExit then some { s.goto i .ended with exitIothread := s.exitIothread + 1 }
    else some (s.goto i .fresh)
  | .ended => none

inductive Act
  | thread (i : Nat) (ok : Bool)
  | exit

/-- A client with `ioThreadNum` IO threads. -/
def system (client : Client) (ioThreadNum : UInt32) : Sys IoThreads Act where
  init := ⟨0, 0, false, List.replicate ioThreadNum.toNat .fresh, 0⟩
  next s
    | .thread i ok => s.threads[i]?.bind (s.step client i ok)
    | .exit => some { s with isExit := true }

/-- `while(ioThreadNum == 0 || readyIothread != ioThreadNum)`: a request still waits. -/
def IoThreads.waits (ioThreadNum : UInt32) (s : IoThreads) : Prop :=
  ioThreadNum = 0 ∨ s.readyIothread ≠ ioThreadNum

/-- Every loop has started. -/
def IoThreads.AllStarted (s : IoThreads) : Prop := ∀ pc ∈ s.threads, pc.isRunning = true

/-- `readyIothread` is the number of loops that run, so that it is the number of threads once they
all do. -/
structure Right (ioThreadNum : UInt32) (s : IoThreads) : Prop where
  count : s.readyIothread.toNat = s.running
  all : s.AllStarted → s.readyIothread = ioThreadNum

/-- What every step keeps: there are as many threads as ever, and the count with the failed attempts
is the number of running loops, modulo `2^32`. -/
structure CountInv (ioThreadNum : UInt32) (s : IoThreads) : Prop where
  threads : s.threads.length = ioThreadNum.toNat
  count : (s.readyIothread.toNat + s.failed) % 2 ^ 32 = s.running % 2 ^ 32

section

variable {client : Client} {n : UInt32} {s s' : IoThreads} {i : Nat} {pc pc' : Pc} {ok : Bool}

theorem CountInv.init : CountInv n (system client n).init where
  threads := List.length_replicate
  count := by
    have hzero : (List.replicate n.toNat Pc.fresh).countP Pc.isRunning = 0 := by
      rw [List.countP_eq_zero]
      intro pc hpc
      rw [List.eq_of_mem_replicate hpc]
      decide
    show (0 + 0) % 2 ^ 32 = (List.replicate n.toNat Pc.fresh).countP Pc.isRunning % 2 ^ 32
    rw [hzero]

/-- Thread `i` goes on to a place where it runs just as before. -/
theorem running_goto (hpc : s.threads[i]? = some pc) (h : pc'.isRunning = pc.isRunning) :
    (s.goto i pc').running = s.running := by
  have hset := countP_set Pc.isRunning hpc pc'
  rw [h] at hset
  exact Nat.add_right_cancel hset

theorem CountInv.goto (hi : CountInv n s) (hpc : s.threads[i]? = some pc)
    (h : pc'.isRunning = pc.isRunning) : CountInv n (s.goto i pc') where
  threads := List.length_set.trans hi.threads
  count := by
    rw [running_goto hpc h]
    exact hi.count

/-- The thread is counted up as its loop begins to run. -/
theorem CountInv.notify (hi : CountInv n s) (hpc : s.threads[i]? = some (.checking [])) :
    CountInv n { s.goto i .dispatch with readyIothread := s.readyIothread + 1 } where
  threads := List.length_set.trans hi.threads
  count := by
    have hset := countP_set Pc.isRunning hpc .dispatch
    have hcount := hi.count
    have hrun : (s.goto i .dispatch).running = s.running + 1 := hset
    have hadd : (s.readyIothread + 1).toNat = (s.readyIothread.toNat + 1) % 2 ^ 32 :=
      UInt32.toNat_add s.readyIothread 1
    show ((s.readyIothread + 1).toNat + s.failed) % 2 ^ 32 = (s.goto i .dispatch).running % 2 ^ 32
    omega

/-- The thread is counted down whether its loop ran or not. -/
theorem CountInv.countDown {ret : Int} (hi : CountInv n s)
    (hpc : s.threads[i]? = some (.returned ret)) : CountInv n { s.goto i .counted with
      readyIothread := s.readyIothread - 1
      failed := s.failed + if ret = 0 then 0 else 1 } where
  threads := List.length_set.trans hi.threads
  count := by
    have hset := countP_set Pc.isRunning hpc .counted
    have hcount := hi.count
    have hlt := s.readyIothread.toNat_lt
    have hsub : (s.readyIothread - 1).toNat = (2 ^ 32 - 1 + s.readyIothread.toNat) % 2 ^ 32 :=
      UInt32.toNat_sub s.readyIothread 1
    have hrun : (s.goto i .counted).running + (if ret = 0 then 1 else 0) = s.running := by
      by_cases hret : ret = 0
      · simpa [IoThreads.running, IoThreads.goto, Pc.isRunning, hret] using hset
      · simpa [IoThreads.running, IoThreads.goto, Pc.isRunning, hret] using hset
    show ((s.readyIothread - 1).toNat + (s.failed + if ret = 0 then 0 else 1)) % 2 ^ 32 =
      (s.goto i .counted).running % 2 ^ 32
    split at hrun <;> split <;> omega

theorem CountInv.step (hi : CountInv n s) (hpc : s.threads[i]? = some pc)
    (h : s.step client i ok pc = some s') : CountInv n s' := by
  cases pc with
  | fresh =>
    cases h
    apply hi.goto hpc
    cases ok <;> rfl
  | checking rest =>
    cases rest with
    | nil =>
      cases h
      exact hi.notify hpc
    | cons c rest =>
      cases h
      apply hi.goto hpc
      cases ok <;> rfl
  | dispatch =>
    cases h
    exact hi.goto hpc rfl
  | returned ret =>
    cases h
    exact hi.countDown hpc
  | counted =>
    rw [IoThreads.step] at h
    split at h
    · cases h
      have hgo : CountInv n (s.goto i .ended) := hi.goto hpc rfl
      exact ⟨hgo.threads, hgo.count⟩
    · cases h
      exact hi.goto hpc rfl
  | ended => cases h

theorem countInv (h : (system client n).Reach s) : CountInv n s := by
  refine h.inv CountInv.init fun s a s' hi hs => ?_
  cases a with
  | thread i ok =>
    obtain ⟨pc, hpc, hs⟩ := Option.bind_eq_some_iff.mp hs
    exact hi.step hpc hs
  | exit =>
    cases hs
    exact ⟨hi.threads, hi.count⟩

theorem CountInv.running_le (hi : CountInv n s) : s.running ≤ n.toNat := by
  rw [← hi.threads]
  exact List.countP_le_length

/-- The count is right exactly as long as no attempt has failed, but for the wrap. -/
theorem CountInv.toNat_eq_iff (hi : CountInv n s) :
    s.readyIothread.toNat = s.running ↔ 2 ^ 32 ∣ s.failed := by
  have hcount := hi.count
  have hrun := hi.running_le
  have hn := n.toNat_lt
  have hready := s.readyIothread.toNat_lt
  omega

theorem CountInv.running_eq (hi : CountInv n s) (hall : s.AllStarted) : s.running = n.toNat := by
  rw [← hi.threads]
  exact List.countP_eq_length.mpr hall

/-- In every state of every run the count is right if and only if the number of attempts that have
failed is a multiple of `2^32`. -/
theorem readyIothread_right_iff (h : (system client n).Reach s) :
    Right n s ↔ 2 ^ 32 ∣ s.failed := by
  have hi := countInv h
  constructor
  · intro hr
    exact hi.toNat_eq_iff.mp hr.count
  · intro hf
    have hcount := hi.toNat_eq_iff.mpr hf
    refine ⟨hcount, fun hall => ?_⟩
    rw [← UInt32.toNat_inj, hcount, hi.running_eq hall]

/-- Once all loops run, every request waits if an attempt had failed. -/
theorem request_waits_iff (h : (system client n).Reach s) (hn : n ≠ 0) (hall : s.AllStarted) :
    s.waits n ↔ ¬ 2 ^ 32 ∣ s.failed := by
  have hi := countInv h
  rw [IoThreads.waits, or_iff_right hn, ← hi.toNat_eq_iff, hi.running_eq hall, ← UInt32.toNat_inj.ne]

end

theorem readyIothread_right_started : ∃ s, (system .libeventTcpCli 1).run
    (system .libeventTcpCli 1).init [.thread 0 true, .thread 0 true, .thread 0 true, .thread 0 true] =
      some s ∧ s.threads = [.dispatch] ∧ Right 1 s := by
  refine ⟨_, rfl, rfl, (readyIothread_right_iff (Sys.Reach.run (S := system .libeventTcpCli 1) .init
    [.thread 0 true, .thread 0 true, .thread 0 true, .thread 0 true] rfl)).mpr ?_⟩
  exact Nat.dvd_zero _

/-- The only thread finds no eventfd, is counted down all the same, and starts at its second attempt:
the count is 0, and every request waits for a 1. -/
theorem readyIothread_lost : ∃ s, (system .curlHttpCli 1).run (system .curlHttpCli 1).init
    [.thread 0 true, .thread 0 false, .thread 0 true, .thread 0 true, .thread 0 true,
      .thread 0 true, .thread 0 true, .thread 0 true, .thread 0 true, .thread 0 true,
      .thread 0 true] = some s ∧
    s.threads = [.dispatch] ∧ s.readyIothread = 0 ∧ s.waits 1 ∧ ¬ Right 1 s := by
  refine ⟨_, rfl, rfl, rfl, .inr (by decide), fun h => ?_⟩
  exact absurd h.count (by decide)

end ReadyThreads
end CmakeFrame
