import CmakeFrame.Lib.EventFd
import CmakeFrame.Lib.Sys
import CmakeFrame.Lib.Threads

/-!
# `libeventTcpCliExit`

The exit sets `isExit`, writes a 1 to the `wakeupFd` of each IO thread, waits until all have counted
`exitIothread` up, and joins the thread that looks for expired connections. That thread also calls
`libeventTcpCliDisconnect`, which waits for as many ready threads as there are.

* `IoThread.step`: `libeventIoThread` with `libeventIoReady` and `handleRead`; `ExitState.expireStep`:
  `libeventIoExpireThread`; `ExitState.exitStep`: the exit; `exitSystem`: their interleavings.
* `InTime`: the 1 is written to a thread that has its object.
* `ExitInv`: a thread that was written to leaves; `own_lt`: behind the start of the exit, every step of
  the threads lowers `work`.
* `exit_ends`: the exit comes to its end, unless the thread for expired connections still waits when the
  IO threads have left; `waits_for_ever`: then it never does.
-/

namespace CmakeFrame
namespace LibeventTcpCli
namespace Exit

open Lib

/-! ## The threads -/

/-- Where an IO thread is in `libeventIoThread`. -/
inductive IoPc
  /-- Before `new LibeventIo`. -/
  | fresh
  /-- In `libeventIoReady`, before it is counted. -/
  | made
  | dispatch
  /-- In `handleRead`, with the value that was read. -/
  | handling (one : Nat)
  /-- `event_base_dispatch` has returned. -/
  | broken
  /-- `libeventIoReady` has returned. -/
  | returned
  /-- Behind `readyIothread--`. -/
  | counted
  /-- It has seen `isExit`. -/
  | leaving
  | ended
deriving DecidableEq

/-- `readyIothread` counts the thread, or will be counted down for an attempt that has failed. -/
def IoPc.isRunning : IoPc → Bool
  | .dispatch | .handling _ | .broken | .returned => true
  | .fresh | .made | .counted | .leaving | .ended => false

/-- There is somebody, or will be, who reads `wakeupFd`. -/
def IoPc.reads : IoPc → Bool
  | .made | .dispatch | .handling _ => true
  | .fresh | .broken | .returned | .counted | .leaving | .ended => false

/-- An IO thread and the counter of the `wakeupFd` of its object. -/
structure IoThread where
  pc : IoPc
  counter : Nat
deriving DecidableEq

/-- `write(wakeupFd, &v, sizeof v)`, as far as somebody reads it. -/
def IoThread.write (v : Nat) (t : IoThread) : IoThread :=
  if t.pc.reads then { t with counter := EventFd.write t.counter v } else t

/-- Where `libeventIoExpireThread` is: at its first look at `isExit`, before the calls of
`libeventTcpCliDisconnect` for `left` more connections, in the wait of such a call with `left` more to
come, at its second look, in `sleep`, and at its end. -/
inductive ExpirePc
  | top
  | calling (left : Nat)
  | waiting (left : Nat)
  | second
  | sleeping
  | ended
deriving DecidableEq

/-- Where `libeventTcpCliExit` is. -/
inductive ExitPc
  | before
  | writing (i : Nat)
  | waiting
  | joining
  | returned
deriving DecidableEq

/-- The client, its threads and its exit. How many attempts of `libeventIoReady` have failed is
history. -/
structure ExitState where
  ioThreadNum : UInt32
  isExit : Bool
  readyIothread : UInt32
  exitIothread : UInt32
  threads : List IoThread
  expire : ExpirePc
  exit : ExitPc
  failed : Nat

inductive ExitAct
  /-- A step of IO thread `i`; `ok` says whether `libeventIoReady` finds what it needs. -/
  | io (i : Nat) (ok : Bool)
  /-- A step of the thread for expired connections: how many it finds, and whose loop gets the order. -/
  | expire (found : Nat) (index : Option Nat)
  | exit
  | libeventTcpCliExit
  /-- Somebody orders something from loop `i`. -/
  | order (i : Nat)
  /-- `event_base_dispatch` returns without `event_base_loopbreak`. -/
  | dispatchReturns (i : Nat)

/-- The steps of the threads and of the exit once it has begun. -/
def ExitAct.isOwn : ExitAct → Bool
  | .io _ _ | .expire _ _ | .exit => true
  | .libeventTcpCliExit | .order _ | .dispatchReturns _ => false

namespace ExitState

variable (s : ExitState)

def setThread (i : Nat) (t : IoThread) : ExitState := { s with threads := s.threads.set i t }

/-- A write to the `wakeupFd` of thread `i`. -/
def writeTo (i v : Nat) : ExitState :=
  match s.threads[i]? with
  | none => s
  | some t => s.setThread i (t.write v)

/-- A step of IO thread `i`, which is `t`. -/
def ioStep (i : Nat) (ok : Bool) (t : IoThread) : Option ExitState :=
  match t.pc with
  | .fresh => some (s.setThread i ⟨.made, 0⟩)
  | .made =>
    if ok then
      some { s.setThread i { t with pc := .dispatch } with readyIothread := s.readyIothread + 1 }
    else some { s.setThread i { t with pc := .returned } with failed := s.failed + 1 }
  | .dispatch => if t.counter = 0 then none else some (s.setThread i ⟨.handling t.counter, 0⟩)
  | .handling one =>
    some (s.setThread i { t with pc := if one % 2 = 1 then .broken else .dispatch })
  | .broken => some (s.setThread i { t with pc := .returned })
  | .returned =>
    some { s.setThread i { t with pc := .counted } with readyIothread := s.readyIothread - 1 }
  | .counted => some (s.setThread i { t with pc := if s.isExit then .leaving else .fresh })
  | .leaving =>
    some { s.setThread i { t with pc := .ended } with exitIothread := s.exitIothread + 1 }
  | .ended => none

/-- `while(ioThreadNum == 0 || readyIothread != ioThreadNum)` is at its end. -/
def allReady : Bool := s.ioThreadNum ≠ 0 ∧ s.readyIothread = s.ioThreadNum

def expireStep (found : Nat) (index : Option Nat) : Option ExitState :=
  match s.expire with
  | .top => some { s with expire := if s.isExit then .ended else .calling found }
  | .calling 0 => some { s with expire := .second }
  | .calling (left + 1) => some { s with expire := if s.isExit then .calling left else .waiting left }
  | .waiting left =>
    if s.allReady then
      let s' := { s with expire := .calling left }
      some (match index with
        | none => s'
        | some i => s'.writeTo i 2)
    else none
  | .second => some { s with expire := if s.isExit then .ended else .sleeping }
  | .sleeping => some { s with expire := .top }
  | .ended => none

def exitStep : Option ExitState :=
  match s.exit with
  | .before => none
  | .writing i =>
    if i < s.ioThreadNum.toNat then some { s.writeTo i 1 with exit := .writing (i + 1) }
    else some { s with exit := .waiting }
  | .waiting => if s.exitIothread = s.ioThreadNum then some { s with exit := .joining } else none
  | .joining => if s.expire = .ended then some { s with exit := .returned } else none
  | .returned => none

def next : ExitAct → Option ExitState
  | .io i ok => s.threads[i]?.bind (s.ioStep i ok)
  | .expire found index => s.expireStep found index
  | .exit => s.exitStep
  | .libeventTcpCliExit =>
    if s.exit = .before then
      some { s with
        isExit := true
        exit := if s.ioThreadNum = 0 then .returned else .writing 0 }
    else none
  | .order i => some (s.writeTo i 2)
  | .dispatchReturns i =>
    match s.threads[i]? with
    | some t => if t.pc = .dispatch then some (s.setThread i { t with pc := .broken }) else none
    | none => none

end ExitState

/-- The client behind `libeventTcpCliInit`. -/
def exitSystem (ioThreadNum : UInt32) : Sys ExitState ExitAct where
  init := ⟨ioThreadNum, false, 0, 0, List.replicate ioThreadNum.toNat ⟨.fresh, 0⟩, .top, .before, 0⟩
  next := ExitState.next

/-- The thread to which the exit writes next. -/
def ExitPc.index : ExitPc → Option Nat
  | .writing i => some i
  | .before | .waiting | .joining | .returned => none

/-- The condition on a step: the thread to which the exit writes its 1 has made its object, and the 1
fits into the counter. -/
def InTime (s : ExitState) : ExitAct → Prop
  | .exit => ∀ i ∈ s.exit.index, ∀ t ∈ s.threads[i]?,
      t.pc ≠ .fresh ∧ EventFd.fits t.counter 1 = true
  | .io _ _ | .expire _ _ | .libeventTcpCliExit | .order _ | .dispatchReturns _ => True

instance (s : ExitState) : (a : ExitAct) → Decidable (InTime s a)
  | .exit => inferInstanceAs (Decidable (∀ i ∈ s.exit.index, _))
  | .io _ _ | .expire _ _ | .libeventTcpCliExit | .order _ | .dispatchReturns _ =>
    inferInstanceAs (Decidable True)

/-! ## What the steps do -/

section

variable {s s' : ExitState} {i j v : Nat} {ok : Bool} {t t' u : IoThread}

theorem IoThread.write_pc : (t.write v).pc = t.pc := by
  unfold IoThread.write
  split <;> rfl

/-- Who is who behind a write. -/
theorem ExitState.writeTo_threads (h : (s.writeTo i v).threads[j]? = some u) :
    ∃ t, s.threads[j]? = some t ∧ (u = t ∨ j = i ∧ u = t.write v) := by
  unfold writeTo at h
  split at h
  · exact ⟨u, h, .inl rfl⟩
  · rename_i t ht
    rcases set_cases h with ⟨rfl, rfl⟩ | ⟨-, hj⟩
    · exact ⟨t, ht, .inr ⟨rfl, rfl⟩⟩
    · exact ⟨u, hj, .inl rfl⟩

theorem ExitState.writeTo_self (h : s.threads[i]? = some t) :
    (s.writeTo i v).threads[i]? = some (t.write v) := by
  have hlt := (List.getElem?_eq_some_iff.mp h).1
  rw [writeTo, h]
  exact List.getElem?_set_self hlt

theorem ExitState.writeTo_eq : s.writeTo i v = { s with threads := (s.writeTo i v).threads } := by
  unfold writeTo
  split <;> rfl

theorem ExitState.length_writeTo : (s.writeTo i v).threads.length = s.threads.length := by
  unfold writeTo
  split
  · rfl
  · exact List.length_set

/-- A write moves nobody. -/
theorem ExitState.countP_writeTo (p : IoPc → Bool) :
    (s.writeTo i v).threads.countP (fun t => p t.pc) = s.threads.countP fun t => p t.pc := by
  unfold writeTo
  split
  · rfl
  · rename_i t ht
    have hset := countP_set (fun t => p t.pc) ht (t.write v)
    rw [IoThread.write_pc] at hset
    exact Nat.add_right_cancel hset

/-- Who has ended stays so. -/
theorem ExitState.writeTo_ended (h : ∀ t ∈ s.threads, t.pc = .ended) :
    ∀ t ∈ (s.writeTo i v).threads, t.pc = .ended := by
  intro t ht
  obtain ⟨k, hk⟩ := List.mem_iff_getElem?.mp ht
  obtain ⟨u, hu, rfl | ⟨-, rfl⟩⟩ := ExitState.writeTo_threads hk
  · exact h t (List.mem_of_getElem? hu)
  · rw [IoThread.write_pc]
    exact h u (List.mem_of_getElem? hu)

/-! ## The threads that were written to -/

/-- The exit has written to the first threads, or to all of them. -/
def ExitPc.told : ExitPc → Nat → Bool
  | .before, _ => false
  | .writing i, j => j < i
  | .waiting, _ | .joining, _ | .returned, _ => true

/-- A thread that was not written to reads even values only. -/
structure Untold (t : IoThread) : Prop where
  counter : t.counter % 2 = 0
  one : ∀ one, t.pc = .handling one → one % 2 = 0

/-- A thread that was written to has left its loop, or it will read the 1 that makes it leave. -/
structure Told (t : IoThread) : Prop where
  made : t.pc ≠ .fresh
  counter : t.pc = .made ∨ t.pc = .dispatch → t.counter % 2 = 1
  one : ∀ one, t.pc = .handling one → (one + t.counter) % 2 = 1

/-- A thread that has left its loop. -/
theorem Told.left (hmade : t.pc ≠ .fresh) (hreads : t.pc.reads = false) : Told t := by
  refine ⟨hmade, fun hpc => ?_, fun one hpc => ?_⟩
  · rcases hpc with hpc | hpc <;> · rw [hpc] at hreads; cases hreads
  · rw [hpc] at hreads
    cases hreads

theorem Untold.write (h : Untold t) : Untold (t.write 2) := by
  refine ⟨?_, fun one hpc => h.one one (by rwa [IoThread.write_pc] at hpc)⟩
  unfold IoThread.write
  split
  · exact (EventFd.write_even rfl).trans h.counter
  · exact h.counter

theorem write_mod_two (h : t.pc.reads = true) : (t.write 2).counter % 2 = t.counter % 2 := by
  rw [IoThread.write, if_pos h]
  exact EventFd.write_even rfl

theorem Told.write (h : Told t) : Told (t.write 2) := by
  refine ⟨by rw [IoThread.write_pc]; exact h.made, fun hpc => ?_, fun one hpc => ?_⟩
  · rw [IoThread.write_pc] at hpc
    rw [write_mod_two (by rcases hpc with hpc | hpc <;> rw [hpc] <;> rfl)]
    exact h.counter hpc
  · rw [IoThread.write_pc] at hpc
    have hmod := write_mod_two (t := t) (by rw [hpc]; rfl)
    have hone := h.one one hpc
    omega

/-- The 1 of the exit. -/
theorem Untold.told (h : Untold t) (hmade : t.pc ≠ .fresh) (hfits : EventFd.fits t.counter 1 = true) :
    Told (t.write 1) := by
  refine ⟨by rwa [IoThread.write_pc], fun hpc => ?_, fun one hpc => ?_⟩
  · rw [IoThread.write_pc] at hpc
    have hreads : t.pc.reads = true := by rcases hpc with hpc | hpc <;> rw [hpc] <;> rfl
    have heven := h.counter
    rw [IoThread.write, if_pos hreads, EventFd.write_of_fits hfits]
    show (t.counter + 1) % 2 = 1
    omega
  · rw [IoThread.write_pc] at hpc
    have hreads : t.pc.reads = true := by rw [hpc]; rfl
    have heven := h.counter
    have hone := h.one one hpc
    rw [IoThread.write, if_pos hreads, EventFd.write_of_fits hfits]
    show (one + (t.counter + 1)) % 2 = 1
    omega

/-- An IO thread behind its step. -/
def IoThread.after (isExit ok : Bool) (t : IoThread) : IoThread :=
  match t.pc with
  | .fresh => ⟨.made, 0⟩
  | .made => { t with pc := if ok then .dispatch else .returned }
  | .dispatch => ⟨.handling t.counter, 0⟩
  | .handling one => { t with pc := if one % 2 = 1 then .broken else .dispatch }
  | .broken => { t with pc := .returned }
  | .returned => { t with pc := .counted }
  | .counted => { t with pc := if isExit then .leaving else .fresh }
  | .leaving | .ended => { t with pc := .ended }

/-- A step of an IO thread moves this thread, counts, and leaves everything else. -/
theorem ExitState.ioStep_frame (h : s.ioStep i ok t = some s') :
    s' = { s with
      threads := s.threads.set i (t.after s.isExit ok)
      readyIothread := s'.readyIothread
      exitIothread := s'.exitIothread
      failed := s'.failed } := by
  unfold ioStep at h
  unfold IoThread.after
  split at h
  · cases h
    simp [setThread, *]
  · split at h <;> · cases h; simp [setThread, *]
  · split at h
    · cases h
    · cases h
      simp [setThread, *]
  · cases h
    simp [setThread, *]
  · cases h
    simp [setThread, *]
  · cases h
    simp [setThread, *]
  · cases h
    simp [setThread, *]
  · cases h
    simp [setThread, *]
  · cases h

theorem Untold.after (h : Untold t) (isExit ok : Bool) : Untold (t.after isExit ok) := by
  unfold IoThread.after
  split
  · exact ⟨rfl, nofun⟩
  · exact ⟨h.counter, fun one hpc => by cases ok <;> cases hpc⟩
  · refine ⟨rfl, fun one hpc => ?_⟩
    cases hpc
    exact h.counter
  · refine ⟨h.counter, fun one hpc => ?_⟩
    simp only at hpc
    split at hpc <;> cases hpc
  · exact ⟨h.counter, nofun⟩
  · exact ⟨h.counter, nofun⟩
  · exact ⟨h.counter, fun one hpc => by cases isExit <;> cases hpc⟩
  · exact ⟨h.counter, nofun⟩
  · exact ⟨h.counter, nofun⟩

/-- Behind the start of the exit no thread begins again. -/
theorem Told.after (h : Told t) (ok : Bool) : Told (t.after true ok) := by
  unfold IoThread.after
  split
  · rename_i hpc
    exact absurd hpc h.made
  · rename_i hpc
    have hodd := h.counter (.inl hpc)
    cases ok with
    | true => exact ⟨nofun, fun _ => hodd, nofun⟩
    | false => exact .left nofun rfl
  · rename_i hpc
    refine ⟨nofun, nofun, fun one hone => ?_⟩
    cases hone
    exact h.counter (.inr hpc)
  · rename_i one hpc
    have hone := h.one one hpc
    by_cases hodd : one % 2 = 1
    · simp only [if_pos hodd]
      exact .left nofun rfl
    · simp only [if_neg hodd]
      refine ⟨nofun, fun _ => ?_, nofun⟩
      show t.counter % 2 = 1
      omega
  · exact .left nofun rfl
  · exact .left nofun rfl
  · exact .left nofun rfl
  · exact .left nofun rfl
  · exact .left nofun rfl

/-- Who counts `exitIothread` up. -/
theorem ExitState.ioStep_exit (h : s.ioStep i ok t = some s') : t.pc ≠ .ended ∧
    ((t.after s.isExit ok).pc = .ended ↔ t.pc = .leaving) ∧
    s'.exitIothread = if t.pc = .leaving then s.exitIothread + 1 else s.exitIothread := by
  unfold ioStep at h
  unfold IoThread.after
  split at h
  · cases h
    simp [setThread, *]
  · split at h <;> · cases h; simp [setThread, *]
  · split at h
    · cases h
    · cases h
      simp [setThread, *]
  · rename_i one hpc
    cases h
    by_cases hodd : one % 2 = 1 <;> simp [setThread, hpc, hodd]
  · cases h
    simp [setThread, *]
  · cases h
    simp [setThread, *]
  · cases h
    cases hexit : s.isExit <;> simp [setThread, *]
  · cases h
    simp [*]
  · cases h

/-- Who is counted up or down, and who has failed. -/
theorem ExitState.ioStep_ready (h : s.ioStep i ok t = some s') :
    let pc' := (t.after s.isExit ok).pc
    pc'.isRunning = t.pc.isRunning ∧ s'.readyIothread = s.readyIothread ∧ s'.failed = s.failed ∨
    t.pc.isRunning = false ∧ pc'.isRunning = true ∧
      (s'.readyIothread = s.readyIothread + 1 ∧ s'.failed = s.failed ∨
        s'.readyIothread = s.readyIothread ∧ s'.failed = s.failed + 1) ∨
    t.pc.isRunning = true ∧ pc'.isRunning = false ∧ s'.readyIothread = s.readyIothread - 1 ∧
      s'.failed = s.failed := by
  unfold ioStep at h
  unfold IoThread.after
  split at h
  · cases h
    simp [setThread, IoPc.isRunning, *]
  · split at h <;> · cases h; simp [setThread, IoPc.isRunning, *]
  · split at h
    · cases h
    · cases h
      simp [setThread, IoPc.isRunning, *]
  · rename_i one hpc
    cases h
    by_cases hodd : one % 2 = 1 <;> simp [setThread, IoPc.isRunning, hpc, hodd]
  · cases h
    simp [setThread, IoPc.isRunning, *]
  · cases h
    simp [setThread, IoPc.isRunning, *]
  · cases h
    cases hexit : s.isExit <;> simp [setThread, IoPc.isRunning, *]
  · cases h
    simp [setThread, IoPc.isRunning, *]
  · cases h

end

/-! ## The invariant -/

structure ExitInv (s : ExitState) : Prop where
  length : s.threads.length = s.ioThreadNum.toNat
  begun : s.isExit = true ↔ s.exit ≠ .before
  untold : ∀ i t, s.threads[i]? = some t → s.exit.told i = false → Untold t
  told : ∀ i t, s.threads[i]? = some t → s.exit.told i = true → Told t
  exited : s.exitIothread.toNat = s.threads.countP fun t => t.pc == .ended
  ready : (s.readyIothread.toNat + s.failed) % 2 ^ 32 =
    (s.threads.countP fun t => t.pc.isRunning) % 2 ^ 32
  joined : s.exit = .joining ∨ s.exit = .returned → ∀ t ∈ s.threads, t.pc = .ended
  returned : s.exit = .returned → s.ioThreadNum ≠ 0 → s.expire = .ended

theorem ExitInv.init (n : UInt32) : ExitInv (exitSystem n).init where
  length := List.length_replicate
  begun := by simp [exitSystem]
  untold i t ht _ := by
    rw [List.eq_of_mem_replicate (List.mem_of_getElem? ht)]
    exact ⟨rfl, nofun⟩
  told _ _ _ h := by cases h
  exited := by
    symm
    show (List.replicate n.toNat (⟨.fresh, 0⟩ : IoThread)).countP _ = 0
    rw [List.countP_eq_zero]
    intro t ht
    rw [List.eq_of_mem_replicate ht]
    decide
  ready := by
    show 0 % 2 ^ 32 = (List.replicate n.toNat (⟨.fresh, 0⟩ : IoThread)).countP _ % 2 ^ 32
    rw [List.countP_eq_zero.mpr]
    intro t ht
    rw [List.eq_of_mem_replicate ht]
    decide
  joined h := by rcases h with h | h <;> cases h
  returned h := by cases h

section

variable {s s' : ExitState} {i : Nat} {t : IoThread} {ok : Bool}

/-- Not all threads have ended while one has not. -/
theorem ExitInv.exitIothread_lt (hi : ExitInv s) (ht : s.threads[i]? = some t) (hpc : t.pc ≠ .ended) :
    s.exitIothread.toNat < s.ioThreadNum.toNat := by
  rw [hi.exited, ← hi.length]
  refine Nat.lt_of_le_of_ne List.countP_le_length fun heq => ?_
  have hall := List.countP_eq_length.mp heq t (List.mem_of_getElem? ht)
  exact hpc (by simpa using hall)

/-- What has ended is counted, and there are no more threads than `exitIothread` can count. -/
theorem ExitInv.io_exited (hi : ExitInv s) (ht : s.threads[i]? = some t)
    (h : s.ioStep i ok t = some s') :
    s'.exitIothread.toNat = s'.threads.countP fun t => t.pc == .ended := by
  obtain ⟨hpc, hended, hexited⟩ := ExitState.ioStep_exit h
  have hlt := hi.exitIothread_lt ht hpc
  have hmax := s.ioThreadNum.toNat_lt
  have hcount := hi.exited
  have hset := countP_set (fun t => t.pc == .ended) ht (t.after s.isExit ok)
  have hthreads : s'.threads = s.threads.set i (t.after s.isExit ok) := by
    rw [ExitState.ioStep_frame h]
  rw [hexited, hthreads]
  simp only [beq_iff_eq, hended, hpc, if_false] at hset
  split
  · rename_i hl
    rw [if_pos hl] at hset
    rw [UInt32.toNat_add]
    simp only [UInt32.reduceToNat]
    omega
  · rename_i hl
    rw [if_neg hl] at hset
    omega

/-- A failed attempt is counted down and was not counted up. -/
theorem ExitInv.io_ready (hi : ExitInv s) (ht : s.threads[i]? = some t)
    (h : s.ioStep i ok t = some s') : (s'.readyIothread.toNat + s'.failed) % 2 ^ 32 =
      (s'.threads.countP fun t => t.pc.isRunning) % 2 ^ 32 := by
  have hcount := hi.ready
  have hset := countP_set (fun t => t.pc.isRunning) ht (t.after s.isExit ok)
  have hthreads : s'.threads = s.threads.set i (t.after s.isExit ok) := by
    rw [ExitState.ioStep_frame h]
  rw [hthreads]
  rcases ExitState.ioStep_ready h with ⟨hsame, hr, hf⟩ | ⟨h0, h1, ⟨hr, hf⟩ | ⟨hr, hf⟩⟩ |
    ⟨h1, h0, hr, hf⟩
  · rw [hsame] at hset
    rw [hr, hf, hcount, Nat.add_right_cancel hset]
  · simp only [h0, h1, if_true, Bool.false_eq_true, if_false] at hset
    rw [hr, hf, UInt32.toNat_add]
    simp only [UInt32.reduceToNat]
    omega
  · simp only [h0, h1, if_true, Bool.false_eq_true, if_false] at hset
    rw [hr, hf]
    omega
  · simp only [h0, h1, if_true, Bool.false_eq_true, if_false] at hset
    have hlt := s.readyIothread.toNat_lt
    rw [hr, hf, UInt32.toNat_sub]
    simp only [UInt32.reduceToNat]
    omega

theorem ExitInv.io (hi : ExitInv s) (ht : s.threads[i]? = some t) (h : s.ioStep i ok t = some s') :
    ExitInv s' := by
  have hexited := hi.io_exited ht h
  have hready := hi.io_ready ht h
  have hframe := ExitState.ioStep_frame h
  have hthreads : s'.threads = s.threads.set i (t.after s.isExit ok) := by rw [hframe]
  have hexit : s'.exit = s.exit := by rw [hframe]
  refine ⟨?_, by rw [hframe]; exact hi.begun, fun j u hu hj => ?_, fun j u hu hj => ?_, hexited, hready,
    fun hj => ?_, by rw [hframe]; exact hi.returned⟩
  · rw [hthreads, List.length_set, hi.length, hframe]
  · rw [hthreads] at hu
    rw [hexit] at hj
    rcases set_cases hu with ⟨rfl, rfl⟩ | ⟨-, hu⟩
    · exact (hi.untold j t ht hj).after _ _
    · exact hi.untold j u hu hj
  · rw [hthreads] at hu
    rw [hexit] at hj
    -- the exit has begun, so that a thread does not begin again
    have hbegun : s.isExit = true := hi.begun.mpr fun he => by rw [he] at hj; cases hj
    rcases set_cases hu with ⟨rfl, rfl⟩ | ⟨-, hu⟩
    · rw [hbegun]
      exact (hi.told j t ht hj).after ok
    · exact hi.told j u hu hj
  · rw [hexit] at hj
    exact absurd (hi.joined hj t (List.mem_of_getElem? ht)) (ExitState.ioStep_exit h).1

/-- Somebody orders something, or the thread for expired connections does. -/
theorem ExitInv.order (hi : ExitInv s) (i : Nat) : ExitInv (s.writeTo i 2) := by
  have heq := ExitState.writeTo_eq (s := s) (i := i) (v := 2)
  refine ⟨?_, by rw [heq]; exact hi.begun, fun j u hu hj => ?_, fun j u hu hj => ?_, ?_, ?_,
    fun hj u hu => ?_, by rw [heq]; exact hi.returned⟩
  · rw [ExitState.length_writeTo, hi.length, heq]
  · rw [heq] at hj
    obtain ⟨t, ht, rfl | ⟨-, rfl⟩⟩ := ExitState.writeTo_threads hu
    · exact hi.untold j _ ht hj
    · exact (hi.untold j t ht hj).write
  · rw [heq] at hj
    obtain ⟨t, ht, rfl | ⟨-, rfl⟩⟩ := ExitState.writeTo_threads hu
    · exact hi.told j _ ht hj
    · exact (hi.told j t ht hj).write
  · rw [ExitState.countP_writeTo (· == .ended), heq]
    exact hi.exited
  · rw [ExitState.countP_writeTo IoPc.isRunning, heq]
    exact hi.ready
  · rw [heq] at hj
    exact ExitState.writeTo_ended (hi.joined hj) u hu

/-- `event_base_dispatch` returns by itself. -/
theorem ExitInv.dispatchReturns (hi : ExitInv s) (ht : s.threads[i]? = some t)
    (hpc : t.pc = .dispatch) : ExitInv (s.setThread i { t with pc := .broken }) where
  length := by
    show (s.threads.set i _).length = _
    rw [List.length_set, hi.length]
    rfl
  begun := hi.begun
  untold j u hu hj := by
    rcases set_cases hu with ⟨rfl, rfl⟩ | ⟨-, hu⟩
    · exact ⟨(hi.untold j t ht hj).counter, nofun⟩
    · exact hi.untold j u hu hj
  told j u hu hj := by
    rcases set_cases hu with ⟨rfl, rfl⟩ | ⟨-, hu⟩
    · exact .left nofun rfl
    · exact hi.told j u hu hj
  exited := by
    have hset := countP_set (fun t => t.pc == .ended) ht { t with pc := .broken }
    rw [hpc] at hset
    exact hi.exited.trans (Nat.add_right_cancel hset).symm
  ready := by
    have hset := countP_set (fun t => t.pc.isRunning) ht { t with pc := .broken }
    rw [hpc] at hset
    rw [ExitState.setThread, Nat.add_right_cancel hset]
    exact hi.ready
  joined hj u hu := by
    have := hi.joined hj t (List.mem_of_getElem? ht)
    rw [hpc] at this
    cases this
  returned := hi.returned

/-- A step of the thread for expired connections, that orders nothing. -/
theorem ExitInv.of_expire (hi : ExitInv s) (h : s.expire ≠ .ended) (e : ExpirePc) :
    ExitInv { s with expire := e } :=
  { hi with returned := fun hret hnum => absurd (hi.returned hret hnum) h }

theorem ExitInv.expireStep (hi : ExitInv s) {found : Nat} {index : Option Nat}
    (h : s.expireStep found index = some s') : ExitInv s' := by
  unfold ExitState.expireStep at h
  split at h
  case h_1 hpc =>
    cases h
    exact hi.of_expire (by simp [hpc]) _
  case h_2 hpc =>
    cases h
    exact hi.of_expire (by simp [hpc]) _
  case h_3 hpc =>
    cases h
    exact hi.of_expire (by simp [hpc]) _
  case h_4 left hpc =>
    split at h
    · have hcall := hi.of_expire (by simp [hpc]) (.calling left)
      cases h
      cases index with
      | none => exact hcall
      | some i => exact hcall.order i
    · cases h
  case h_5 hpc =>
    cases h
    exact hi.of_expire (by simp [hpc]) _
  case h_6 hpc =>
    cases h
    exact hi.of_expire (by simp [hpc]) _
  case h_7 => cases h

/-- The exit goes on to the next thread. -/
theorem ExitInv.write (hi : ExitInv s) (hpc : s.exit = .writing i) (hin : InTime s .exit) :
    ExitInv { s.writeTo i 1 with exit := .writing (i + 1) } := by
  have heq := ExitState.writeTo_eq (s := s) (i := i) (v := 1)
  refine ⟨?_, ?_, fun j u hu hj => ?_, fun j u hu hj => ?_, ?_, ?_, nofun, nofun⟩
  · show (s.writeTo i 1).threads.length = _
    rw [ExitState.length_writeTo, hi.length, heq]
  · rw [heq]
    show s.isExit = true ↔ _
    rw [hi.begun, hpc]
    simp
  · obtain ⟨t, ht, rfl | ⟨rfl, rfl⟩⟩ := ExitState.writeTo_threads hu
    · refine hi.untold j _ ht ?_
      simp only [ExitPc.told, decide_eq_false_iff_not, hpc] at hj ⊢
      omega
    · simp [ExitPc.told] at hj
  · have hj' : j < i + 1 := by simpa [ExitPc.told] using hj
    by_cases hji : j = i
    · subst hji
      obtain ⟨t, ht⟩ : ∃ t, s.threads[j]? = some t := by
        obtain ⟨t, ht, -⟩ := ExitState.writeTo_threads hu
        exact ⟨t, ht⟩
      obtain ⟨hmade, hfits⟩ := hin j (by simp [hpc, ExitPc.index]) t ht
      have hun := hi.untold j t ht (by simp [hpc, ExitPc.told])
      have hut : u = t.write 1 := Option.some.inj (hu.symm.trans (ExitState.writeTo_self ht))
      rw [hut]
      exact hun.told hmade hfits
    · obtain ⟨t, ht, rfl | ⟨rfl, -⟩⟩ := ExitState.writeTo_threads hu
      · refine hi.told j _ ht ?_
        simp only [ExitPc.told, hpc, decide_eq_true_eq]
        omega
      · exact absurd rfl hji
  · show (s.writeTo i 1).exitIothread.toNat = (s.writeTo i 1).threads.countP _
    rw [ExitState.countP_writeTo (· == .ended), heq]
    exact hi.exited
  · show ((s.writeTo i 1).readyIothread.toNat + (s.writeTo i 1).failed) % 2 ^ 32 =
      (s.writeTo i 1).threads.countP _ % 2 ^ 32
    rw [ExitState.countP_writeTo IoPc.isRunning, heq]
    exact hi.ready

theorem ExitInv.exitStep (hi : ExitInv s) (hin : InTime s .exit) (h : s.exitStep = some s') :
    ExitInv s' := by
  unfold ExitState.exitStep at h
  split at h
  case h_1 => cases h
  case h_2 i hpc =>
    split at h
    · cases h
      exact hi.write hpc hin
    · rename_i hlt
      cases h
      refine { hi with
        begun := by simp [hi.begun, hpc]
        untold := fun j u hu hj => by cases hj
        told := fun j u hu _ => hi.told j u hu ?_
        joined := fun hj => by rcases hj with hj | hj <;> cases hj
        returned := nofun }
      have hj := (List.getElem?_eq_some_iff.mp hu).1
      rw [hi.length] at hj
      simp only [ExitPc.told, hpc, decide_eq_true_eq]
      omega
  case h_3 hpc =>
    split at h
    · rename_i heq
      cases h
      refine { hi with
        begun := by simp [hi.begun, hpc]
        untold := fun j u hu hj => by cases hj
        told := fun j u hu _ => hi.told j u hu (by rw [hpc]; rfl)
        joined := fun _ u hu => ?_
        returned := nofun }
      have hcount := hi.exited
      rw [heq, ← hi.length] at hcount
      simpa using List.countP_eq_length.mp hcount.symm u hu
    · cases h
  case h_4 hpc =>
    split at h
    · rename_i hend
      cases h
      exact { hi with
        begun := by simp [hi.begun, hpc]
        untold := fun j u hu hj => by cases hj
        told := fun j u hu _ => hi.told j u hu (by rw [hpc]; rfl)
        joined := fun _ => hi.joined (.inl hpc)
        returned := fun _ _ => hend }
    · cases h
  case h_5 => cases h

/-- The start of the exit. -/
theorem ExitInv.start (hi : ExitInv s) (hpc : s.exit = .before) :
    ExitInv { s with
      isExit := true
      exit := if s.ioThreadNum = 0 then .returned else .writing 0 } := by
  by_cases hnum : s.ioThreadNum = 0
  · have hnil : s.threads = [] := List.eq_nil_of_length_eq_zero (by rw [hi.length, hnum]; rfl)
    rw [if_pos hnum]
    exact { hi with
      begun := by simp
      untold := fun j u hu => by simp [hnil] at hu
      told := fun j u hu => by simp [hnil] at hu
      joined := fun _ u hu => by simp [hnil] at hu
      returned := fun _ h => absurd hnum h }
  · rw [if_neg hnum]
    exact { hi with
      begun := by simp
      untold := fun j u hu _ => hi.untold j u hu (by rw [hpc]; rfl)
      told := fun j u hu hj => by simp [ExitPc.told] at hj
      joined := fun hj => by rcases hj with hj | hj <;> cases hj
      returned := nofun }

theorem ExitInv.next (hi : ExitInv s) {a : ExitAct} (hin : InTime s a) (h : s.next a = some s') :
    ExitInv s' := by
  cases a with
  | io i ok =>
    obtain ⟨t, ht, hstep⟩ := Option.bind_eq_some_iff.mp h
    exact hi.io ht hstep
  | expire found index => exact hi.expireStep h
  | exit => exact hi.exitStep hin h
  | libeventTcpCliExit =>
    simp only [ExitState.next] at h
    split at h
    · rename_i hpc
      cases h
      exact hi.start hpc
    · cases h
  | order i =>
    cases h
    exact hi.order i
  | dispatchReturns i =>
    simp only [ExitState.next] at h
    split at h
    · rename_i t ht
      split at h
      · rename_i hpc
        cases h
        exact hi.dispatchReturns ht hpc
      · cases h
    · cases h

end

theorem exitInv {n : UInt32} {s : ExitState} (h : ((exitSystem n).only InTime).Reach s) : ExitInv s :=
  Sys.Reach.inv_only (.init n) (fun _ _ _ hi hin hs => hi.next hin hs) h

/-! ## The end of the work -/

def IoPc.rank : IoPc → Nat
  | .fresh => 10
  | .made => 8
  | .handling _ => 6
  | .dispatch => 5
  | .broken => 4
  | .returned => 3
  | .counted => 2
  | .leaving => 1
  | .ended => 0

/-- What was written costs a call of `handleRead`. -/
def IoThread.work (t : IoThread) : Nat := t.pc.rank + if t.pc.reads ∧ t.counter ≠ 0 then 2 else 0

def ExpirePc.work : ExpirePc → Nat
  | .waiting left => left + 5
  | .calling left => left + 2
  | .sleeping => 2
  | .top => 1
  | .second => 1
  | .ended => 0

/-- A write costs the write and the `handleRead` that it calls for. -/
def ExitState.exitWork (s : ExitState) : Nat :=
  match s.exit with
  | .before => 0
  | .writing i => 3 * (s.ioThreadNum.toNat - i) + 3
  | .waiting => 2
  | .joining => 1
  | .returned => 0

/-- Behind the start of the exit no more steps of its own happen than this. -/
def ExitState.work (s : ExitState) : Nat :=
  (s.threads.map IoThread.work).sum + s.expire.work + s.exitWork

section

variable {s s' : ExitState} {i v found : Nat} {t : IoThread} {ok : Bool} {index : Option Nat}
  {a : ExitAct}

theorem IoThread.work_write : (t.write v).work ≤ t.work + 2 := by
  unfold work
  rw [write_pc]
  split <;> split <;> omega

theorem ExitState.work_writeTo : ((s.writeTo i v).threads.map IoThread.work).sum ≤
    (s.threads.map IoThread.work).sum + 2 := by
  unfold writeTo
  split
  · omega
  · rename_i t ht
    have hset := sum_map_set IoThread.work ht (t.write v)
    have hle := IoThread.work_write (t := t) (v := v)
    simp only [setThread]
    omega

/-- Behind the start of the exit a thread only comes nearer to its end. -/
theorem IoThread.work_after (hpc : t.pc ≠ .ended) (hcount : t.pc = .dispatch → t.counter ≠ 0) :
    (t.after true ok).work < t.work := by
  obtain ⟨pc, counter⟩ := t
  cases pc with
  | fresh => simp [after, work, IoPc.rank, IoPc.reads]
  | made => cases ok <;> by_cases h0 : counter = 0 <;> simp [after, work, IoPc.rank, IoPc.reads, h0]
  | dispatch => simp [after, work, IoPc.rank, IoPc.reads, hcount rfl]
  | handling one =>
    by_cases hodd : one % 2 = 1 <;> by_cases h0 : counter = 0 <;>
      simp [after, work, IoPc.rank, IoPc.reads, hodd, h0]
  | broken => simp [after, work, IoPc.rank, IoPc.reads]
  | returned => simp [after, work, IoPc.rank, IoPc.reads]
  | counted => simp [after, work, IoPc.rank, IoPc.reads]
  | leaving => simp [after, work, IoPc.rank, IoPc.reads]
  | ended => exact absurd rfl hpc

theorem ExitState.ioStep_dispatch (h : s.ioStep i ok t = some s') (hpc : t.pc = .dispatch) :
    t.counter ≠ 0 := by
  intro h0
  rw [ioStep, hpc] at h
  simp [h0] at h

theorem ioStep_lt (hexit : s.isExit = true) (ht : s.threads[i]? = some t)
    (h : s.ioStep i ok t = some s') : s'.isExit = true ∧ s'.work < s.work := by
  have hpc := (ExitState.ioStep_exit h).1
  have hlt : (t.after true ok).work < t.work := IoThread.work_after hpc (ExitState.ioStep_dispatch h)
  have hset := sum_map_set IoThread.work ht (t.after true ok)
  rw [ExitState.ioStep_frame h, hexit]
  refine ⟨rfl, ?_⟩
  show _ + s.expire.work + s.exitWork < _ + s.expire.work + s.exitWork
  simp only
  omega

theorem expire_lt (hexit : s.isExit = true) {e : ExpirePc} (h : e.work < s.expire.work) :
    { s with expire := e }.isExit = true ∧ { s with expire := e }.work < s.work := by
  refine ⟨hexit, ?_⟩
  show _ + e.work + s.exitWork < _ + s.expire.work + s.exitWork
  simp only
  omega

/-- The order for a connection costs less than the wait for it. -/
theorem expire_order_lt (hexit : s.isExit = true) {left : Nat} (hpc : s.expire = .waiting left)
    (i : Nat) : (ExitState.writeTo { s with expire := .calling left } i 2).isExit = true ∧
    (ExitState.writeTo { s with expire := .calling left } i 2).work < s.work := by
  have hle : ((ExitState.writeTo { s with expire := .calling left } i 2).threads.map
      IoThread.work).sum ≤ (s.threads.map IoThread.work).sum + 2 := ExitState.work_writeTo
  have heq := ExitState.writeTo_eq (s := { s with expire := .calling left }) (i := i) (v := 2)
  refine ⟨by rw [heq]; exact hexit, ?_⟩
  rw [ExitState.work, ExitState.work, hpc, heq]
  simp only [ExpirePc.work]
  show _ + (left + 2) + s.exitWork < _
  omega

theorem expireStep_lt (hexit : s.isExit = true) (h : s.expireStep found index = some s') :
    s'.isExit = true ∧ s'.work < s.work := by
  unfold ExitState.expireStep at h
  split at h
  case h_1 hpc =>
    rw [if_pos hexit] at h
    cases h
    exact expire_lt hexit (by simp [hpc, ExpirePc.work])
  case h_2 hpc =>
    cases h
    exact expire_lt hexit (by simp [hpc, ExpirePc.work])
  case h_3 hpc =>
    rw [if_pos hexit] at h
    cases h
    exact expire_lt hexit (by simp [hpc, ExpirePc.work])
  case h_4 left hpc =>
    split at h
    · cases h
      cases index with
      | none => exact expire_lt hexit (by simp [hpc, ExpirePc.work])
      | some i => exact expire_order_lt hexit hpc i
    · cases h
  case h_5 hpc =>
    rw [if_pos hexit] at h
    cases h
    exact expire_lt hexit (by simp [hpc, ExpirePc.work])
  case h_6 hpc =>
    cases h
    exact expire_lt hexit (by simp [hpc, ExpirePc.work])
  case h_7 => cases h

theorem exitStep_lt (hexit : s.isExit = true) (h : s.exitStep = some s') :
    s'.isExit = true ∧ s'.work < s.work := by
  unfold ExitState.exitStep at h
  split at h
  case h_1 => cases h
  case h_2 i hpc =>
    split at h
    · rename_i hlt
      cases h
      have heq := ExitState.writeTo_eq (s := s) (i := i) (v := 1)
      have hle := ExitState.work_writeTo (s := s) (i := i) (v := 1)
      refine ⟨by rw [heq]; exact hexit, ?_⟩
      rw [ExitState.work, ExitState.work, ExitState.exitWork, ExitState.exitWork, hpc]
      rw [heq] at hle ⊢
      simp only at hle ⊢
      omega
    · cases h
      exact ⟨hexit, by simp [ExitState.work, ExitState.exitWork, hpc]⟩
  case h_3 hpc =>
    split at h
    · cases h
      exact ⟨hexit, by simp [ExitState.work, ExitState.exitWork, hpc]⟩
    · cases h
  case h_4 hpc =>
    split at h
    · cases h
      exact ⟨hexit, by simp [ExitState.work, ExitState.exitWork, hpc]⟩
    · cases h
  case h_5 => cases h

theorem own_lt (ha : a.isOwn = true) (hexit : s.isExit = true) (h : s.next a = some s') :
    s'.isExit = true ∧ s'.work < s.work := by
  cases a with
  | io i ok =>
    obtain ⟨t, ht, hstep⟩ := Option.bind_eq_some_iff.mp h
    exact ioStep_lt hexit ht hstep
  | expire found index => exact expireStep_lt hexit h
  | exit => exact exitStep_lt hexit h
  | libeventTcpCliExit => cases ha
  | order i => cases ha
  | dispatchReturns i => cases ha

/-! ## The exit comes to its end, or not -/

/-- Nothing happens any more without somebody from outside. -/
def Quiet (s : ExitState) : Prop := ∀ a, a.isOwn = true → s.next a = none

/-- The exit has returned, and everybody has ended. -/
structure Ended (s : ExitState) : Prop where
  threads : ∀ t ∈ s.threads, t.pc = .ended
  expire : s.expire = .ended
  exit : s.exit = .returned

/-- The exit joins a thread that waits for the IO threads, which have ended. -/
structure Stuck (s : ExitState) : Prop where
  threads : ∀ t ∈ s.threads, t.pc = .ended
  expire : ∃ left, s.expire = .waiting left
  ready : s.allReady = false
  exit : s.exit = .joining

theorem ioStep_ended (ok : Bool) (hpc : t.pc = .ended) : s.ioStep i ok t = none := by
  rw [ExitState.ioStep, hpc]

theorem next_io_none (h : ∀ t ∈ s.threads, t.pc = .ended) (i : Nat) (ok : Bool) :
    s.next (.io i ok) = none := by
  show s.threads[i]?.bind (s.ioStep i ok) = none
  rw [Option.bind_eq_none_iff]
  intro t ht
  exact ioStep_ended ok (h t (List.mem_of_getElem? ht))

theorem Ended.quiet (h : Ended s) : Quiet s := by
  intro a ha
  cases a with
  | io i ok => exact next_io_none h.threads i ok
  | expire found index =>
    show s.expireStep found index = none
    rw [ExitState.expireStep, h.expire]
  | exit =>
    show s.exitStep = none
    rw [ExitState.exitStep, h.exit]
  | libeventTcpCliExit => cases ha
  | order i => cases ha
  | dispatchReturns i => cases ha

theorem Stuck.quiet (h : Stuck s) : Quiet s := by
  obtain ⟨left, hexpire⟩ := h.expire
  intro a ha
  cases a with
  | io i ok => exact next_io_none h.threads i ok
  | expire found index =>
    show s.expireStep found index = none
    simp [ExitState.expireStep, hexpire, h.ready]
  | exit =>
    show s.exitStep = none
    simp [ExitState.exitStep, h.exit, hexpire]
  | libeventTcpCliExit => cases ha
  | order i => cases ha
  | dispatchReturns i => cases ha

/-- A thread that was written to and takes no step has ended. -/
theorem Told.ended (h : Told t) (hstep : ∀ ok, s.ioStep i ok t = none) : t.pc = .ended := by
  have hstep := hstep true
  unfold ExitState.ioStep at hstep
  cases hpc : t.pc with
  | ended => rfl
  | dispatch =>
    have hodd := h.counter (.inr hpc)
    simp only [hpc] at hstep
    split at hstep
    · omega
    · cases hstep
  | fresh => simp [hpc] at hstep
  | made => simp [hpc] at hstep
  | handling one => simp [hpc] at hstep
  | broken => simp [hpc] at hstep
  | returned => simp [hpc] at hstep
  | counted => simp [hpc] at hstep
  | leaving => simp [hpc] at hstep

theorem Quiet.expire (h : Quiet s) :
    s.expire = .ended ∨ (∃ left, s.expire = .waiting left) ∧ s.allReady = false := by
  have hstep : s.expireStep 0 none = none := h (.expire 0 none) rfl
  unfold ExitState.expireStep at hstep
  cases hpc : s.expire with
  | ended => exact .inl rfl
  | waiting left =>
    simp only [hpc] at hstep
    split at hstep
    · cases hstep
    · rename_i hready
      exact .inr ⟨⟨left, rfl⟩, by simpa using hready⟩
  | top => simp [hpc] at hstep
  | calling left => cases left <;> simp [hpc] at hstep
  | second => simp [hpc] at hstep
  | sleeping => simp [hpc] at hstep

theorem ExitInv.quiet_iff (hi : ExitInv s) (hnum : s.ioThreadNum ≠ 0) (hexit : s.isExit = true) :
    Quiet s ↔ Ended s ∨ Stuck s := by
  refine ⟨fun hq => ?_, fun h => h.elim Ended.quiet Stuck.quiet⟩
  have hstep : s.exitStep = none := hq .exit rfl
  have hexpire := hq.expire
  unfold ExitState.exitStep at hstep
  cases hpc : s.exit with
  | before => exact absurd hpc (hi.begun.mp hexit)
  | writing i =>
    simp only [hpc] at hstep
    split at hstep <;> cases hstep
  | waiting =>
    -- all were written to, so that all have ended, and are counted
    have hall : ∀ t ∈ s.threads, t.pc = .ended := fun t ht => by
      obtain ⟨i, hget⟩ := List.mem_iff_getElem?.mp ht
      refine (hi.told i t hget (by rw [hpc]; rfl)).ended (s := s) (i := i) fun ok => ?_
      have := hq (.io i ok) rfl
      simpa [ExitState.next, hget] using this
    have hcount : s.threads.countP (fun t => t.pc == .ended) = s.threads.length :=
      List.countP_eq_length.mpr fun t ht => by simp [hall t ht]
    have heq : s.exitIothread = s.ioThreadNum :=
      UInt32.toNat_inj.mp (by rw [hi.exited, hcount, hi.length])
    simp [hpc, heq] at hstep
  | joining =>
    rcases hexpire with hend | ⟨hwait, hready⟩
    · simp [hpc, hend] at hstep
    · exact .inr ⟨hi.joined (.inl hpc), hwait, hready, hpc⟩
  | returned => exact .inl ⟨hi.joined (.inr hpc), hi.returned hpc hnum, hpc⟩

end

/-- Whatever the threads do behind the start of the exit, they come to a state in which nothing happens
any more, and there the exit has returned, or it is stuck. -/
theorem exit_ends {n : UInt32} {s : ExitState} (h : ((exitSystem n).only InTime).Reach s)
    (hnum : s.ioThreadNum ≠ 0) (hexit : s.isExit = true) :
    (∀ as s', (∀ a ∈ as, a.isOwn = true) → (exitSystem n).run s as = some s' → as.length ≤ s.work) ∧
    (Quiet s ↔ Ended s ∨ Stuck s) := by
  refine ⟨fun as s' hown hrun => ?_, (exitInv h).quiet_iff hnum hexit⟩
  have := Sys.run_length_le_of_inv (S := exitSystem n) (fun _ _ _ ha hs hstep => own_lt ha hs hstep)
    hexit as hown hrun
  omega

/-- A thread and the exit, up to where the exit joins; the thread for expired connections has found one
and waits. -/
def stuckRun : List ExitAct :=
  [.io 0 true, .io 0 true, .expire 1 none, .expire 0 none, .libeventTcpCliExit, .exit, .exit] ++
  List.replicate 6 (.io 0 true) ++ [.exit]

theorem exit_ends_stuck : ∃ s, ((exitSystem 1).only InTime).run (exitSystem 1).init stuckRun = some s ∧
    Stuck s ∧ Quiet s := by
  obtain ⟨s, hs⟩ : ∃ s, ((exitSystem 1).only InTime).run (exitSystem 1).init stuckRun = some s :=
    ⟨_, rfl⟩
  have hends := exit_ends (Sys.Reach.init.run _ hs) (by cases hs; decide) (by cases hs; rfl)
  have hstuck : Stuck s := by
    cases hs
    exact ⟨by decide, ⟨0, rfl⟩, by decide, rfl⟩
  exact ⟨s, hs, hstuck, hends.2.mpr (.inr hstuck)⟩

section

variable {s s' : ExitState} {left : Nat} {a : ExitAct}

/-- Nobody from outside helps. -/
theorem Stuck.next (h : Stuck s) (hs : s.next a = some s') : Stuck s' ∧ s'.expire = s.expire := by
  cases a with
  | io i ok =>
    rw [h.quiet (.io i ok) rfl] at hs
    cases hs
  | expire found index =>
    rw [h.quiet (.expire found index) rfl] at hs
    cases hs
  | exit =>
    rw [h.quiet .exit rfl] at hs
    cases hs
  | libeventTcpCliExit =>
    rw [ExitState.next, if_neg (by simp [h.exit])] at hs
    cases hs
  | order i =>
    cases hs
    have hended := ExitState.writeTo_ended (i := i) (v := 2) h.threads
    rw [ExitState.writeTo_eq] at hended ⊢
    exact ⟨⟨hended, h.expire, h.ready, h.exit⟩, rfl⟩
  | dispatchReturns i =>
    simp only [ExitState.next] at hs
    split at hs
    · rename_i t ht
      rw [if_neg (by simp [h.threads t (List.mem_of_getElem? ht)])] at hs
      cases hs
    · cases hs

theorem Stuck.run {n : UInt32} (h : Stuck s) (as : List ExitAct)
    (hr : (exitSystem n).run s as = some s') : Stuck s' ∧ s'.expire = s.expire := by
  induction as generalizing s with
  | nil =>
    cases hr
    exact ⟨h, rfl⟩
  | cons a as ih =>
    obtain ⟨s₁, h1, h2⟩ := Option.bind_eq_some_iff.mp hr
    obtain ⟨hs₁, hexpire⟩ := h.next h1
    obtain ⟨hs', hexpire'⟩ := ih hs₁ h2
    exact ⟨hs', hexpire'.trans hexpire⟩

/-- When all threads have ended, `readyIothread` is what the failed attempts have taken from it. -/
theorem ExitInv.allReady_iff (hi : ExitInv s) (hnum : s.ioThreadNum ≠ 0)
    (h : ∀ t ∈ s.threads, t.pc = .ended) :
    s.allReady = true ↔ (s.failed + s.ioThreadNum.toNat) % 2 ^ 32 = 0 := by
  have hzero : s.threads.countP (fun t => t.pc.isRunning) = 0 := by
    rw [List.countP_eq_zero]
    intro t ht
    rw [h t ht]
    decide
  have hready := hi.ready
  rw [hzero] at hready
  have hlt := s.readyIothread.toNat_lt
  have hlt' := s.ioThreadNum.toNat_lt
  simp only [ExitState.allReady, ne_eq, hnum, not_false_eq_true, true_and, decide_eq_true_eq]
  rw [← UInt32.toNat_inj]
  omega

end

/-- The exit joins, and the thread for expired connections waits for the IO threads. Nobody ends this,
unless the failed attempts of the IO threads have brought `readyIothread` round to `ioThreadNum`. -/
theorem waits_for_ever {n : UInt32} {s : ExitState} (h : ((exitSystem n).only InTime).Reach s)
    (hnum : s.ioThreadNum ≠ 0) (hexit : s.exit = .joining) {left : Nat}
    (hexpire : s.expire = .waiting left) :
    (∀ as s', (exitSystem n).run s as = some s' → s'.exit = .joining ∧ s'.expire = .waiting left) ↔
      (s.failed + s.ioThreadNum.toNat) % 2 ^ 32 ≠ 0 := by
  have hi := exitInv h
  have hended := hi.joined (.inl hexit)
  have hready := hi.allReady_iff hnum hended
  constructor
  · intro hrun hmod
    have hstep : s.next (.expire 0 none) = some { s with expire := .calling left } := by
      show s.expireStep 0 none = _
      rw [ExitState.expireStep, hexpire]
      exact if_pos (hready.mpr hmod)
    have hrun1 : (exitSystem n).run s [.expire 0 none] = some { s with expire := .calling left } := by
      rw [Sys.run]
      exact (congrArg (Option.bind · _) hstep).trans rfl
    cases (hrun _ _ hrun1).2
  · intro hmod as s' hr
    have hstuck : Stuck s :=
      ⟨hended, ⟨left, hexpire⟩, by rw [Bool.eq_false_iff]; exact mt hready.mp hmod, hexit⟩
    obtain ⟨hs', heq⟩ := hstuck.run as hr
    exact ⟨hs'.exit, heq.trans hexpire⟩

theorem waits_for_ever_stuck : ∃ s,
    ((exitSystem 1).only InTime).run (exitSystem 1).init stuckRun = some s ∧
    ∀ as s', (exitSystem 1).run s as = some s' → s'.exit = .joining := by
  obtain ⟨s, hs⟩ : ∃ s, ((exitSystem 1).only InTime).run (exitSystem 1).init stuckRun = some s :=
    ⟨_, rfl⟩
  have hexpire : s.expire = .waiting 0 := by cases hs; rfl
  have hwaits := waits_for_ever (Sys.Reach.init.run _ hs) (by cases hs; decide) (by cases hs; rfl)
    hexpire
  refine ⟨s, hs, fun as s' hr => (hwaits.mpr ?_ as s' hr).1⟩
  cases hs
  decide

end Exit
end LibeventTcpCli
end CmakeFrame
