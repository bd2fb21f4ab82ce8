import CmakeFrame.Lib.Sys
import CmakeFrame.Lib.Threads
import Mathlib.Tactic.Linarith

/-!
# `redisAsyncExit` beside all other threads

`redisAsyncExit` waits until the count of commands is zero, and then takes down the callback pool,
the timer thread and the loops. Nothing else looks at `isExit_`.

* `ExitPc`, `Worker`: where `redisAsyncExit` and a thread of the callback pool are in their code.
* `exitSystem`: all threads. A step is what one thread does between two points where another one may
  come in; the loops are free in what they answer and when.
* `CleanExit`: behind `redisAsyncExit` every command that was accepted has been called back, and nobody
  runs anything on a pool that was stopped.
* `Quiet`: the condition on a step; `Down`: the invariant; `shutdown_orderly`: in every run whose
  steps all meet the condition.
* `late_command_lost`: a command behind the last look at the count.
-/

namespace CmakeFrame
namespace RedisAsyn
namespace Shutdown

open Lib

/-! ## Places -/

/-- Where `redisAsyncExit` is. -/
inductive ExitPc where
  /-- It has not been called. -/
  | before
  /-- In the loop that looks at `asyncCmdNum`. -/
  | polling
  /-- It has found 0. -/
  | polled
  /-- In `callBackPoolPtr->stop()`: `running_` is false, and the threads are joined. -/
  | stopping
  /-- `stop()` has returned. -/
  | stopped
  /-- Behind `callBackPoolPtr.reset()`. -/
  | reset
  /-- `timerExit_` is set, and the timer thread is joined. -/
  | timerJoin
  /-- `libeventIoExit` was called for every loop, and their threads are joined. -/
  | ioJoin
  | returned
  deriving DecidableEq, Repr

namespace ExitPc

/-- `running_` of the callback pool. -/
def running : ExitPc → Bool
  | .before | .polling | .polled => true
  | .stopping | .stopped | .reset | .timerJoin | .ioJoin | .returned => false

/-- The loop over `asyncCmdNum` has ended. -/
def foundZero : ExitPc → Bool
  | .before | .polling => false
  | .polled | .stopping | .stopped | .reset | .timerJoin | .ioJoin | .returned => true

/-- The callback pool was stopped. -/
def down : ExitPc → Bool
  | .before | .polling | .polled | .stopping => false
  | .stopped | .reset | .timerJoin | .ioJoin | .returned => true

end ExitPc

/-- A command; `cb` is whether there is a callback. -/
structure Cmd where
  id : Nat
  cb : Bool
  deriving DecidableEq, Repr

/-- A task of the callback pool. -/
inductive Task where
  /-- `cmdReplyCallPool`. -/
  | reply
  | other
  deriving DecidableEq, Repr

/-- Where a thread of the callback pool is. -/
inductive Worker where
  /-- At the condition of the loop of `runInThread`. -/
  | loop
  | taking
  /-- In `cmdReplyCallPool`, before `takeCmdResult`. -/
  | replying
  /-- The command is counted down, and the callback not yet called. -/
  | counted (c : Cmd)
  | calling (c : Cmd)
  /-- In another task. -/
  | other
  | exited
  deriving DecidableEq, Repr

/-- In a task, where it may run something on the pool or send a command. -/
def Worker.busy : Worker → Bool
  | .calling _ | .other => true
  | .loop | .taking | .replying | .counted _ | .exited => false

/-- Who sends a command. -/
inductive Origin where
  /-- A thread of the user: `redisAsyncCommand`. -/
  | caller
  /-- The timer thread, with an order that is due. -/
  | timer
  /-- A thread of the callback pool. -/
  | pool
  deriving DecidableEq, Repr

/-! ## The system -/

/-- `adding` are the commands that are counted and not yet in the queue of their loop, `opened` the
ones that a loop has, `queue_` is `CmdResultQueue`. `answering` is how many loops are between the
insertion of a result and its `run`. `accepted`, `called` and `late` are history: the commands of
calls that returned 0, the commands whose callback was called, and whether `run` was called on a
pool that was stopped. -/
structure ExitState where
  pc : ExitPc
  asyncCmdNum : Int32
  adding : List Cmd
  opened : List Cmd
  queue_ : List Cmd
  answering : Nat
  tasks : List Task
  workers : List Worker
  timer : Bool
  loops : Nat
  accepted : List Cmd
  called : List Cmd
  late : Bool
  deriving DecidableEq, Repr

inductive ExitAct where
  /-- The next step of `redisAsyncExit`. -/
  | exit
  /-- `libeventIoOrder` counts the command. -/
  | add (origin : Origin) (c : Cmd)
  /-- It puts the command into the queue of the loop, and the call returns 0. -/
  | insert (c : Cmd)
  /-- A loop has the result of a command, and inserts it into `CmdResultQueue`. -/
  | answer (c : Cmd)
  /-- A loop inserts a second result of a command. -/
  | again (c : Cmd)
  /-- `asyncCmdResultCallBack` behind an insertion. -/
  | asyncCmdResultCallBack
  /-- A connection event of a loop runs a task on the pool. -/
  | notify
  /-- The next step of a thread of the pool that is at this place. -/
  | work (w : Worker)
  /-- A task runs another one on the pool. -/
  | spawn (w : Worker)
  /-- The timer thread sees `timerExit_`. -/
  | timerEnd
  /-- A loop ends. -/
  | loopEnd
  deriving DecidableEq, Repr

namespace ExitState

/-- The commands that are counted. -/
def pending (s : ExitState) : Nat := (s.adding ++ s.opened ++ s.queue_).countP (·.cb)

/-- `callBackPoolPtr->run(task)`. -/
def run (s : ExitState) (task : Task) : ExitState :=
  { s with tasks := s.tasks ++ [task], late := s.late || s.pc.down }

/-- A step of `redisAsyncExit`. -/
def exit (s : ExitState) : Option ExitState :=
  match s.pc with
  | .before => some { s with pc := .polling }
  | .polling => some (if s.asyncCmdNum = 0 then { s with pc := .polled } else s)
  | .polled => some { s with pc := .stopping }
  | .stopping => if s.workers.all (· = .exited) then some { s with pc := .stopped } else none
  | .stopped => some { s with pc := .reset }
  | .reset => some { s with pc := .timerJoin }
  | .timerJoin => if s.timer then none else some { s with pc := .ioJoin }
  | .ioJoin => if s.loops = 0 then some { s with pc := .returned } else none
  | .returned => none

def moveTo (s : ExitState) (w w' : Worker) : ExitState := { s with workers := moved s.workers w w' }

/-- A step of a thread of the callback pool. -/
def work (s : ExitState) (w : Worker) : Option ExitState :=
  match w with
  | .loop => some (s.moveTo w (if s.pc.running then .taking else .exited))
  | .taking =>
    match s.tasks with
    | [] => if s.pc.running then none else some (s.moveTo w .loop)
    | .reply :: tasks => some { s.moveTo w .replying with tasks := tasks }
    | .other :: tasks => some { s.moveTo w .other with tasks := tasks }
  | .replying =>
    match s.queue_ with
    | [] => some (s.moveTo w .loop)
    | c :: queue_ =>
      let s := { s with queue_ := queue_ }
      some (if c.cb then { s.moveTo w (.counted c) with asyncCmdNum := s.asyncCmdNum - 1 }
        else s.moveTo w .loop)
  | .counted c => some { s.moveTo w (.calling c) with called := s.called ++ [c] }
  | .calling _ => some (s.moveTo w .loop)
  | .other => some (s.moveTo w .loop)
  | .exited => none

/-- Whether the thread that sends a command is there. -/
def sends (s : ExitState) : Origin → Bool
  | .caller => true
  | .timer => s.timer
  | .pool => s.workers.any Worker.busy

def next (s : ExitState) : ExitAct → Option ExitState
  | .exit => s.exit
  | .add origin c =>
    if s.sends origin then
      some { s with
        adding := s.adding ++ [c]
        asyncCmdNum := if c.cb then s.asyncCmdNum + 1 else s.asyncCmdNum }
    else none
  | .insert c =>
    if c ∈ s.adding then
      some { s with
        adding := s.adding.erase c, opened := s.opened ++ [c], accepted := s.accepted ++ [c] }
    else none
  | .answer c =>
    if c ∈ s.opened ∧ 0 < s.loops then
      some { s with
        opened := s.opened.erase c, queue_ := s.queue_ ++ [c], answering := s.answering + 1 }
    else none
  | .again c =>
    if c ∈ s.accepted ∧ 0 < s.loops then
      some { s with queue_ := s.queue_ ++ [c], answering := s.answering + 1 }
    else none
  | .asyncCmdResultCallBack =>
    if 0 < s.answering then some { s.run .reply with answering := s.answering - 1 } else none
  | .notify => if 0 < s.loops then some (s.run .other) else none
  | .work w => if w ∈ s.workers then s.work w else none
  | .spawn w => if w ∈ s.workers ∧ w.busy then some (s.run .other) else none
  | .timerEnd =>
    match s.pc with
    | .timerJoin => some { s with timer := false }
    | .before | .polling | .polled | .stopping | .stopped | .reset | .ioJoin | .returned => none
  | .loopEnd =>
    match s.pc with
    | .ioJoin => some { s with loops := s.loops - 1 }
    | .before | .polling | .polled | .stopping | .stopped | .reset | .timerJoin | .returned => none

end ExitState

/-- A service with `callBackNum` callback threads and `ioThreadNum` loops. -/
def exitSystem (callBackNum ioThreadNum : Nat) : Sys ExitState ExitAct where
  init :=
    { pc := .before
      asyncCmdNum := 0
      adding := []
      opened := []
      queue_ := []
      answering := 0
      tasks := []
      workers := List.replicate callBackNum .loop
      timer := true
      loops := ioThreadNum
      accepted := []
      called := []
      late := false }
  next := ExitState.next

/-! ## The property -/

/-- Behind `redisAsyncExit` every accepted command with a callback has been called back, and nobody
has run anything on a pool that was stopped. -/
structure CleanExit (s : ExitState) : Prop where
  called : s.pc = .returned → ∀ c ∈ s.accepted, c.cb = true → c ∈ s.called
  late : s.late = false

/-- No command is sent once the count was found to be 0, no result is inserted for a command without a
callback or a second time, and no connection event has a task once the pool was stopped. -/
def Quiet (s : ExitState) : ExitAct → Prop
  | .add _ _ => s.pc.foundZero = false ∧ s.pending + 1 < 2 ^ 32
  | .answer c => c.cb = true
  | .again _ => False
  | .notify => s.pc.down = false
  | .exit => True
  | .insert _ => True
  | .asyncCmdResultCallBack => True
  | .work _ => True
  | .spawn _ => True
  | .timerEnd => True
  | .loopEnd => True

instance (s : ExitState) (a : ExitAct) : Decidable (Quiet s a) :=
  match a with
  | .add _ _ => inferInstanceAs (Decidable (_ ∧ _))
  | .answer c => inferInstanceAs (Decidable (c.cb = true))
  | .again _ => instDecidableFalse
  | .notify => inferInstanceAs (Decidable (s.pc.down = false))
  | .exit => instDecidableTrue
  | .insert _ => instDecidableTrue
  | .asyncCmdResultCallBack => instDecidableTrue
  | .work _ => instDecidableTrue
  | .spawn _ => instDecidableTrue
  | .timerEnd => instDecidableTrue
  | .loopEnd => instDecidableTrue

/-! ## The invariant -/

def Worker.isReplying (w : Worker) : Bool := w = .replying

def Task.isReply (t : Task) : Bool := t = .reply

/-- Every counted command has one count, every result one task, and every accepted command is with a
loop, has a result, or is counted down for its callback. -/
structure Down (s : ExitState) : Prop where
  count : s.asyncCmdNum = Int32.ofNat s.pending
  fits : s.pending < 2 ^ 32
  answered : ∀ c ∈ s.queue_, c.cb = true
  tasks : s.queue_.length =
    s.tasks.countP Task.isReply + s.workers.countP Worker.isReplying + s.answering
  known : ∀ c ∈ s.accepted, c.cb = true →
    c ∈ s.opened ∨ c ∈ s.queue_ ∨ .counted c ∈ s.workers ∨ c ∈ s.called
  zero : s.pc.foundZero = true → s.pending = 0
  joined : s.pc.down = true → ∀ w ∈ s.workers, w = .exited
  late : s.late = false

section Steps

variable {s s' : ExitState}

theorem pending_eq (s : ExitState) : s.pending =
    s.adding.countP (·.cb) + s.opened.countP (·.cb) + s.queue_.countP (·.cb) := by
  simp [ExitState.pending, Nat.add_assoc]

theorem ofNat_eq_zero {n : Nat} (hn : n < 2 ^ 32) (h : Int32.ofNat n = 0) : n = 0 := by
  have hbits : n % 2 ^ 32 = 0 := by simpa using congrArg (fun x : Int32 => x.toBitVec.toNat) h
  rwa [Nat.mod_eq_of_lt hn] at hbits

theorem foundZero_of_down {pc : ExitPc} (h : pc.down = true) : pc.foundZero = true := by
  cases pc <;> first | rfl | cases h

/-- No command is counted, so no result is under way. -/
theorem Down.silent (hi : Down s) (hz : s.pc.foundZero = true) :
    s.queue_ = [] ∧ s.answering = 0 ∧ ∀ c ∈ s.opened, c.cb = false := by
  have hp := hi.zero hz
  rw [pending_eq] at hp
  have hopened : ∀ c ∈ s.opened, c.cb = false := by
    have h0 : s.opened.countP (·.cb) = 0 := by omega
    simpa [List.countP_eq_zero] using h0
  have hqueue : s.queue_ = [] := by
    have h0 : s.queue_.countP (·.cb) = 0 := by omega
    rw [List.countP_eq_zero] at h0
    exact List.eq_nil_iff_forall_not_mem.mpr fun c hc => h0 c hc (hi.answered c hc)
  have htasks := hi.tasks
  rw [hqueue, List.length_nil] at htasks
  exact ⟨hqueue, by omega, hopened⟩

theorem Down.cleanExit (hi : Down s) : CleanExit s := by
  refine ⟨fun hpc c hc hcb => ?_, hi.late⟩
  have hdown : s.pc.down = true := by rw [hpc]; rfl
  obtain ⟨hqueue, -, hopened⟩ := hi.silent (foundZero_of_down hdown)
  rcases hi.known c hc hcb with ho | hq | hw | hcalled
  · rw [hopened c ho] at hcb
    cases hcb
  · rw [hqueue] at hq
    cases hq
  · cases hi.joined hdown _ hw
  · exact hcalled

/-- `redisAsyncExit` goes on. -/
theorem Down.exit (hi : Down s) (h : s.exit = some s') : Down s' := by
  unfold ExitState.exit at h
  split at h
  · cases h
    exact { hi with zero := by simp [ExitPc.foundZero], joined := by simp [ExitPc.down] }
  · cases h
    split
    · rename_i hnum
      -- the count is the number of commands
      have hp : s.pending = 0 := ofNat_eq_zero hi.fits (hi.count.symm.trans hnum)
      exact { hi with zero := fun _ => hp, joined := by simp [ExitPc.down] }
    · exact hi
  · rename_i hpc
    cases h
    exact { hi with zero := fun _ => hi.zero (by rw [hpc]; rfl), joined := by simp [ExitPc.down] }
  · rename_i hpc
    split at h
    · rename_i hall
      cases h
      exact { hi with
        zero := fun _ => hi.zero (by rw [hpc]; rfl)
        joined := fun _ w hw => by simpa using List.all_eq_true.mp hall w hw }
    · cases h
  · rename_i hpc
    cases h
    exact { hi with
      zero := fun _ => hi.zero (by rw [hpc]; rfl), joined := fun _ => hi.joined (by rw [hpc]; rfl) }
  · rename_i hpc
    cases h
    exact { hi with
      zero := fun _ => hi.zero (by rw [hpc]; rfl), joined := fun _ => hi.joined (by rw [hpc]; rfl) }
  · rename_i hpc
    split at h
    · cases h
    · cases h
      exact { hi with
        zero := fun _ => hi.zero (by rw [hpc]; rfl), joined := fun _ => hi.joined (by rw [hpc]; rfl) }
  · rename_i hpc
    split at h
    · cases h
      exact { hi with
        zero := fun _ => hi.zero (by rw [hpc]; rfl), joined := fun _ => hi.joined (by rw [hpc]; rfl) }
    · cases h
  · cases h

theorem Down.add (hi : Down s) {origin : Origin} {c : Cmd} (hq : Quiet s (.add origin c))
    (h : s.next (.add origin c) = some s') : Down s' := by
  simp only [ExitState.next] at h
  split at h
  · cases h
    obtain ⟨hpc, hfits⟩ := hq
    have hp : ExitState.pending { s with
        adding := s.adding ++ [c]
        asyncCmdNum := if c.cb then s.asyncCmdNum + 1 else s.asyncCmdNum } =
        s.pending + if c.cb then 1 else 0 := by
      rw [pending_eq, pending_eq]
      simp only [List.countP_append, List.countP_singleton]
      omega
    refine { hi with count := ?_, fits := ?_, zero := fun hz => ?_ }
    · rw [hp]
      simp only [hi.count]
      split
      · rw [Int32.ofNat_add]
        rfl
      · rfl
    · rw [hp]
      split <;> omega
    · exact absurd hz (by simp [hpc])
  · cases h

/-- A command moves on, and is counted as before. -/
theorem Down.insert (hi : Down s) {c : Cmd} (h : s.next (.insert c) = some s') : Down s' := by
  simp only [ExitState.next] at h
  split at h
  · rename_i hc
    cases h
    have hp : ExitState.pending { s with
        adding := s.adding.erase c, opened := s.opened ++ [c], accepted := s.accepted ++ [c] } =
        s.pending := by
      rw [pending_eq, pending_eq, ← countP_erase_add hc]
      simp only [List.countP_append, List.countP_singleton]
      omega
    refine { hi with
      count := hp ▸ hi.count, fits := hp ▸ hi.fits, zero := fun hz => hp ▸ hi.zero hz
      known := fun c' hc' hcb => ?_ }
    rcases List.mem_append.mp hc' with hc' | hc'
    · exact (hi.known c' hc' hcb).imp_left (List.mem_append_left _)
    · exact .inl (List.mem_append_right _ hc')
  · cases h

theorem Down.answer (hi : Down s) {c : Cmd} (hq : Quiet s (.answer c))
    (h : s.next (.answer c) = some s') : Down s' := by
  simp only [ExitState.next] at h
  split at h
  · rename_i hguard
    cases h
    have hp : ExitState.pending { s with
        opened := s.opened.erase c, queue_ := s.queue_ ++ [c], answering := s.answering + 1 } =
        s.pending := by
      rw [pending_eq, pending_eq, ← countP_erase_add hguard.1]
      simp only [List.countP_append, List.countP_singleton]
      omega
    refine { hi with
      count := hp ▸ hi.count, fits := hp ▸ hi.fits, zero := fun hz => hp ▸ hi.zero hz
      answered := fun c' hc' => ?_, tasks := ?_, known := fun c' hc' hcb => ?_ }
    · rcases List.mem_append.mp hc' with hc' | hc'
      · exact hi.answered c' hc'
      · rw [List.mem_singleton.mp hc']
        exact hq
    · simp only [List.length_append, List.length_singleton, hi.tasks]
      omega
    · by_cases heq : c' = c
      · exact .inr (.inl (List.mem_append_right _ (by simp [heq])))
      · rcases hi.known c' hc' hcb with ho | hq | hrest
        · exact .inl ((List.mem_erase_of_ne heq).mpr ho)
        · exact .inr (.inl (List.mem_append_left _ hq))
        · exact .inr (.inr hrest)
  · cases h

/-- `run` on a pool that was not stopped. -/
theorem Down.run_other (hi : Down s) (hpc : s.pc.down = false) : Down (s.run .other) := by
  refine { hi with tasks := ?_, late := ?_ }
  · simpa [ExitState.run, Task.isReply] using hi.tasks
  · simp [ExitState.run, hi.late, hpc]

theorem Down.asyncCmdResultCallBack (hi : Down s)
    (h : s.next .asyncCmdResultCallBack = some s') : Down s' := by
  simp only [ExitState.next] at h
  split at h
  · rename_i hans
    cases h
    refine { hi with tasks := ?_, late := ?_ }
    · have htasks := hi.tasks
      have hreply : Task.isReply .reply = true := rfl
      simp only [ExitState.run, List.countP_append, List.countP_singleton, hreply, if_true]
      omega
    · -- a result that is under way is counted
      have hpc : s.pc.down = false := by
        by_contra hne
        have hdown := (Bool.not_eq_false _).mp hne
        obtain ⟨-, hzero, -⟩ := hi.silent (foundZero_of_down hdown)
        omega
      simp [ExitState.run, hi.late, hpc]
  · cases h

theorem Down.spawn (hi : Down s) {w : Worker} (h : s.next (.spawn w) = some s') : Down s' := by
  simp only [ExitState.next] at h
  split at h
  · rename_i hguard
    cases h
    refine hi.run_other ?_
    by_contra hne
    have hexited := hi.joined ((Bool.not_eq_false _).mp hne) w hguard.1
    rw [hexited] at hguard
    cases hguard.2
  · cases h

/-! ## The threads of the pool -/

/-- A thread moves, and nobody else is concerned. -/
theorem Down.moveTo (hi : Down s) {w w' : Worker} (hw : w ∈ s.workers)
    (hjoined : w ≠ .exited) (hreply : w.isReplying = w'.isReplying) (hcounted : ∀ c, w ≠ .counted c) :
    Down (s.moveTo w w') := by
  refine { hi with tasks := ?_, known := fun c hc hcb => ?_, joined := fun hd => ?_ }
  · have hcount := countP_moved hw w' Worker.isReplying
    rw [hreply] at hcount
    have htasks := hi.tasks
    simp only [ExitState.moveTo]
    omega
  · rcases hi.known c hc hcb with ho | hq | hk | hcalled
    · exact .inl ho
    · exact .inr (.inl hq)
    · exact .inr (.inr (.inl (mem_moved_of_ne hk (hcounted c).symm)))
    · exact .inr (.inr (.inr hcalled))
  · exact absurd (hi.joined hd w hw) hjoined

/-- A task is taken. -/
theorem Down.taking (hi : Down s) {t : Task} {tasks : List Task} (hw : .taking ∈ s.workers)
    (ht : s.tasks = t :: tasks) :
    Down { s.moveTo .taking (if t.isReply then .replying else .other) with tasks := tasks } := by
  refine { hi with tasks := ?_, known := fun c hc hcb => ?_, joined := fun hd => ?_ }
  · have hcount := countP_moved hw (if t.isReply then .replying else .other) Worker.isReplying
    have htasks := hi.tasks
    rw [ht, List.countP_cons] at htasks
    simp only [ExitState.moveTo]
    cases t with
    | reply =>
      simp [Task.isReply, Worker.isReplying] at hcount htasks ⊢
      omega
    | other =>
      simp [Task.isReply, Worker.isReplying] at hcount htasks ⊢
      omega
  · rcases hi.known c hc hcb with ho | hq | hk | hcalled
    · exact .inl ho
    · exact .inr (.inl hq)
    · exact .inr (.inr (.inl (mem_moved_of_ne hk (by simp))))
    · exact .inr (.inr (.inr hcalled))
  · cases hi.joined hd _ hw

/-- A result is taken, and its command counted down. -/
theorem Down.replying (hi : Down s) {c : Cmd} {queue_ : List Cmd} (hw : .replying ∈ s.workers)
    (hqueue : s.queue_ = c :: queue_) :
    Down { s.moveTo .replying (.counted c) with
      queue_ := queue_, asyncCmdNum := s.asyncCmdNum - 1 } := by
  have hcb : c.cb = true := hi.answered c (by simp [hqueue])
  have hp : s.pending = ExitState.pending { s.moveTo .replying (.counted c) with
      queue_ := queue_, asyncCmdNum := s.asyncCmdNum - 1 } + 1 := by
    rw [pending_eq, pending_eq, hqueue, List.countP_cons, if_pos hcb]
    rfl
  refine { hi with
    count := ?_, fits := ?_, answered := fun c' hc' => ?_, tasks := ?_, known := fun c' hc' hcb' => ?_
    zero := fun hz => ?_, joined := fun hd => ?_ }
  · have hnum : s.asyncCmdNum = Int32.ofNat _ + 1 := (hi.count.trans (congrArg Int32.ofNat hp)).trans
      (Int32.ofNat_add _ 1)
    exact (congrArg (· - 1) hnum).trans (Int32.add_sub_cancel _ _)
  · have hfits := hi.fits
    omega
  · exact hi.answered c' (by simp [hqueue, hc'])
  · have hcount := countP_moved hw (.counted c) Worker.isReplying
    have htasks := hi.tasks
    rw [hqueue, List.length_cons] at htasks
    have hreplying : Worker.isReplying .replying = true := rfl
    have hcounted : Worker.isReplying (.counted c) = false := rfl
    simp only [hreplying, hcounted, if_true, Bool.false_eq_true, if_false] at hcount
    simp only [ExitState.moveTo]
    omega
  · rcases hi.known c' hc' hcb' with ho | hq | hk | hcalled
    · exact .inl ho
    · rw [hqueue] at hq
      rcases List.mem_cons.mp hq with rfl | hq
      · exact .inr (.inr (.inl (by simp [ExitState.moveTo, moved])))
      · exact .inr (.inl hq)
    · exact .inr (.inr (.inl (mem_moved_of_ne hk (by simp))))
    · exact .inr (.inr (.inr hcalled))
  · have hzero := hi.zero hz
    omega
  · cases hi.joined hd _ hw

/-- The callback is called. -/
theorem Down.call (hi : Down s) {c : Cmd} (hw : .counted c ∈ s.workers) :
    Down { s.moveTo (.counted c) (.calling c) with called := s.called ++ [c] } := by
  refine { hi with tasks := ?_, known := fun c' hc' hcb => ?_, joined := fun hd => ?_ }
  · have hcount := countP_moved hw (.calling c) Worker.isReplying
    have htasks := hi.tasks
    have hcounted : Worker.isReplying (.counted c) = false := rfl
    have hcalling : Worker.isReplying (.calling c) = false := rfl
    simp only [hcounted, hcalling, Bool.false_eq_true, if_false] at hcount
    simp only [ExitState.moveTo]
    omega
  · rcases hi.known c' hc' hcb with ho | hq | hk | hcalled
    · exact .inl ho
    · exact .inr (.inl hq)
    · by_cases heq : c' = c
      · exact .inr (.inr (.inr (List.mem_append_right _ (by simp [heq]))))
      · exact .inr (.inr (.inl (mem_moved_of_ne hk (by simp [heq]))))
    · exact .inr (.inr (.inr (List.mem_append_left _ hcalled)))
  · cases hi.joined hd _ hw

theorem Down.work (hi : Down s) {w : Worker} (h : s.next (.work w) = some s') : Down s' := by
  simp only [ExitState.next] at h
  split at h
  · rename_i hw
    cases w with
    | loop =>
      cases h
      split
      · exact hi.moveTo hw (by simp) rfl (by simp)
      · exact hi.moveTo hw (by simp) rfl (by simp)
    | taking =>
      simp only [ExitState.work] at h
      split at h
      · split at h
        · cases h
        · cases h
          exact hi.moveTo hw (by simp) rfl (by simp)
      · rename_i ht
        cases h
        exact hi.taking hw ht
      · rename_i ht
        cases h
        exact hi.taking hw ht
    | replying =>
      simp only [ExitState.work] at h
      split at h
      · rename_i hqueue
        -- every task has its result
        have htasks := hi.tasks
        have hpos : 0 < s.workers.countP Worker.isReplying := List.countP_pos_iff.mpr ⟨_, hw, rfl⟩
        rw [hqueue, List.length_nil] at htasks
        omega
      · rename_i c queue_ hqueue
        have hcb : c.cb = true := hi.answered c (by simp [hqueue])
        simp only [hcb, if_true, Option.some.injEq] at h
        rw [← h]
        exact hi.replying hw hqueue
    | counted c =>
      cases h
      exact hi.call hw
    | calling c =>
      cases h
      exact hi.moveTo hw (by simp) rfl (by simp)
    | other =>
      cases h
      exact hi.moveTo hw (by simp) rfl (by simp)
    | exited => cases h
  · cases h

theorem Down.next (hi : Down s) {a : ExitAct} (hq : Quiet s a) (h : s.next a = some s') : Down s' := by
  cases a with
  | exit => exact hi.exit h
  | add origin c => exact hi.add hq h
  | insert c => exact hi.insert h
  | answer c => exact hi.answer hq h
  | again c => exact hq.elim
  | asyncCmdResultCallBack => exact hi.asyncCmdResultCallBack h
  | notify =>
    simp only [ExitState.next] at h
    split at h
    · cases h
      exact hi.run_other hq
    · cases h
  | work w => exact hi.work h
  | spawn w => exact hi.spawn h
  | timerEnd =>
    simp only [ExitState.next] at h
    split at h
    · cases h
      exact { hi with }
    all_goals cases h
  | loopEnd =>
    simp only [ExitState.next] at h
    split at h
    · cases h
      exact { hi with }
    all_goals cases h

end Steps

/-- In every run whose steps all meet the condition, the shutdown is orderly. -/
theorem shutdown_orderly {callBackNum ioThreadNum : Nat} {s : ExitState}
    (h : ((exitSystem callBackNum ioThreadNum).only Quiet).Reach s) : CleanExit s := by
  have h0 : Down (exitSystem callBackNum ioThreadNum).init := by
    refine ⟨rfl, by simp [exitSystem, ExitState.pending], by simp [exitSystem], ?_, by simp [exitSystem],
      by simp [exitSystem, ExitPc.foundZero], by simp [exitSystem, ExitPc.down], rfl⟩
    simp [exitSystem, List.countP_replicate, Worker.isReplying]
  exact (h.inv_only (I := Down) h0 fun _ _ _ hi hq hs => hi.next hq hs).cleanExit

/-- The steps of `redisAsyncExit` behind the loop over the count, with one callback thread that waits
for a task and one loop. -/
def takeDown : List ExitAct :=
  [.exit, .work .taking, .work .loop, .exit, .exit, .exit, .timerEnd, .exit, .loopEnd, .exit]

/-- A command is sent and answered, and then the service is taken down. -/
def cleanRun : List ExitAct :=
  [.add .caller ⟨0, true⟩, .insert ⟨0, true⟩, .answer ⟨0, true⟩, .exit, .asyncCmdResultCallBack,
    .work .loop, .work .taking, .work .replying, .exit, .work (.counted ⟨0, true⟩),
    .work (.calling ⟨0, true⟩), .work .loop] ++ takeDown

theorem shutdown_orderly_cleanRun : ∃ s, ((exitSystem 1 1).only Quiet).run (exitSystem 1 1).init
    cleanRun = some s ∧ s.pc = .returned ∧ s.accepted = [⟨0, true⟩] ∧ CleanExit s := by
  have hrun : (((exitSystem 1 1).only Quiet).run (exitSystem 1 1).init cleanRun).map
      (fun s => (s.pc, s.accepted)) = some (.returned, [⟨0, true⟩]) := by decide +kernel
  obtain ⟨s, hs, heq⟩ := Option.map_eq_some_iff.mp hrun
  obtain ⟨hpc, hacc⟩ := Prod.mk.injEq .. ▸ heq
  exact ⟨s, hs, hpc, hacc, shutdown_orderly (Sys.Reach.init.run _ hs)⟩

/-- A command that is sent behind the last look at the count is accepted and never called back. -/
theorem late_command_lost : ¬ ∀ callBackNum ioThreadNum s,
    (exitSystem callBackNum ioThreadNum).Reach s → CleanExit s := by
  intro h
  have hrun : ((exitSystem 1 1).run (exitSystem 1 1).init ([.work .loop, .exit, .exit,
      .add .caller ⟨0, true⟩, .insert ⟨0, true⟩] ++ takeDown)).map
      (fun s => (s.pc, s.accepted, s.called)) = some (.returned, [⟨0, true⟩], []) := by decide +kernel
  obtain ⟨s, hs, heq⟩ := Option.map_eq_some_iff.mp hrun
  have hpc : s.pc = .returned := congrArg Prod.fst heq
  have hacc : s.accepted = [⟨0, true⟩] := congrArg (·.2.1) heq
  have hcalled : s.called = [] := congrArg (·.2.2) heq
  have hmem := (h 1 1 s (Sys.Reach.init.run _ hs)).called hpc ⟨0, true⟩ (by simp [hacc]) rfl
  rw [hcalled] at hmem
  cases hmem

end Shutdown
end RedisAsyn
end CmakeFrame
