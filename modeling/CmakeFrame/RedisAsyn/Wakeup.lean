import CmakeFrame.Lib.EventFd
import CmakeFrame.Lib.Sys

/-!
# `redisAsyn/v1.0/src/LibeventIo.cpp`: orders and wakeups

`libeventIoOrder` inserts a node into `orderDeque_` and then writes a 2 to `wakeupFd`,
`libeventIoWakeup` only writes the 2, and `libeventIoExit` writes a 1. `handleRead` takes the sum of
what was written, empties the deque, and breaks the loop if the sum is odd. Here each of these parts
is a step of its own, and the steps of different threads come in any order.

* `WakeState`, `WakeAct`, `wakeSystem`: the deque, the counter, the threads and the loop.
* `Inv`: the invariant; `next_inv`: every step keeps it.
* `work`: the steps that are left if no new call comes; `own_lt`: each of them lowers it.
* `Delivered`: no order is lost before the loop ends, and the loop ends on exit only;
  `delivered`: in every state reached.
* `late_order_stays`: an order that comes when the loop has ended is never taken.
-/

namespace CmakeFrame
namespace RedisAsyn
namespace Wakeup

open Lib

/-! ## The system -/

/-- Where the loop's thread is. -/
inductive LoopPc where
  /-- It waits for `wakeupFd`. -/
  | idle
  /-- In the loop of `handleRead`, with the value that was read. -/
  | draining (one : Nat)
  /-- Behind that loop. -/
  | ending (one : Nat)
  /-- `event_base_loopbreak` has been called. -/
  | broken
  /-- `event_base_dispatch` has returned and `wakeupFd` is closed. -/
  | closed
  deriving DecidableEq, Repr

/-- A call of `handleRead` that has ended. -/
structure ReadCall where
  /-- It has read the 1 that `libeventIoExit` wrote. -/
  consumedExit : Bool
  loopbreak : Bool
  deriving DecidableEq, Repr

/-- The counter of `wakeupFd`, the deque, the threads that stand between the insert and the write
of `libeventIoOrder`, and the loop. The rest is history: whether `libeventIoExit` was called,
whether its 1 is in the counter or in the value that the running `handleRead` has read, the orders
that were inserted and taken, the ones that had been inserted when `handleRead` last found the
deque empty, and the calls of `handleRead`. -/
structure WakeState (ν : Type) where
  counter : Nat
  orderDeque_ : List ν
  between : List Nat
  pc : LoopPc
  exitCalled : Bool
  exitPending : Bool
  exitRead : Bool
  inserted : List ν
  taken : List ν
  seen : List ν
  calls : List ReadCall
  deriving DecidableEq, Repr

inductive WakeAct (ν : Type) where
  /-- Thread `t` is in `libeventIoOrder` and has inserted its node. -/
  | insert (t : Nat) (node : ν)
  /-- The write of `libeventIoOrder`. -/
  | write (t : Nat)
  | libeventIoWakeup
  | libeventIoExit
  /-- `handleRead` is called, and reads. -/
  | read
  /-- `dealOrderNode` gives a node. -/
  | deal
  /-- `dealOrderNode` gives nothing, which ends the loop of `handleRead`. -/
  | empty
  /-- The end of `handleRead`. -/
  | finish
  /-- The end of `libeventIoReady`. -/
  | close
  deriving DecidableEq, Repr

/-- The steps that no new call is needed for. -/
def WakeAct.isOwn {ν : Type} : WakeAct ν → Bool
  | .insert _ _ | .libeventIoWakeup | .libeventIoExit => false
  | .write _ | .read | .deal | .empty | .finish | .close => true

namespace WakeState

variable {ν : Type}

/-- Whether a write of `v` succeeds. -/
def canWrite (s : WakeState ν) (v : Nat) : Bool := s.pc ≠ .closed ∧ EventFd.fits s.counter v

/-- `write(wakeupFd, &v, sizeof v)`; an error is only logged. -/
def writeFd (s : WakeState ν) (v : Nat) : Nat :=
  if s.pc = .closed then s.counter else EventFd.write s.counter v

def next (s : WakeState ν) : WakeAct ν → Option (WakeState ν)
  | .insert t node =>
    if t ∈ s.between then none
    else some { s with
      orderDeque_ := s.orderDeque_ ++ [node], between := t :: s.between
      inserted := s.inserted ++ [node] }
  | .write t =>
    if t ∈ s.between then some { s with between := s.between.erase t, counter := s.writeFd 2 }
    else none
  | .libeventIoWakeup => some { s with counter := s.writeFd 2 }
  | .libeventIoExit =>
    if s.exitCalled then none
    else some { s with counter := s.writeFd 1, exitCalled := true, exitPending := s.canWrite 1 }
  | .read =>
    -- the loop calls `handleRead` when there is something to read
    if s.pc = .idle ∧ s.counter ≠ 0 then
      some { s with
        counter := 0, pc := .draining s.counter, exitRead := s.exitPending, exitPending := false }
    else none
  | .deal =>
    match s.pc, s.orderDeque_ with
    | .draining _, node :: rest => some { s with orderDeque_ := rest, taken := s.taken ++ [node] }
    | _, _ => none
  | .empty =>
    match s.pc, s.orderDeque_ with
    | .draining one, [] => some { s with pc := .ending one, seen := s.inserted }
    | _, _ => none
  | .finish =>
    match s.pc with
    | .ending one =>
      some { s with
        pc := if one % 2 = 1 then .broken else .idle, exitRead := false
        calls := s.calls ++ [⟨s.exitRead, one % 2 = 1⟩] }
    | _ => none
  | .close => if s.pc = .broken then some { s with pc := .closed } else none

end WakeState

def wakeSystem (ν : Type) : Sys (WakeState ν) (WakeAct ν) where
  init := ⟨0, [], [], .idle, false, false, false, [], [], [], []⟩
  next := WakeState.next

/-! ## The invariant -/

section

variable {ν : Type} {s s' : WakeState ν}

namespace WakeState

/-- The value that the running `handleRead` has read. -/
def one (s : WakeState ν) : Option Nat :=
  match s.pc with
  | .draining one | .ending one => some one
  | .idle | .broken | .closed => none

def draining (s : WakeState ν) : Prop := ∃ one, s.pc = .draining one

/-- The loop has ended. -/
def stopped (s : WakeState ν) : Prop := s.pc = .broken ∨ s.pc = .closed

end WakeState

structure Inv (s : WakeState ν) : Prop where
  counter : s.counter % 2 = 1 ↔ s.exitPending = true
  one : ∀ n ∈ s.one, n % 2 = 1 ↔ s.exitRead = true
  awake : s.orderDeque_ ≠ [] → s.pc ≠ .closed → s.draining ∨ s.counter ≠ 0 ∨ s.between ≠ []
  order : s.inserted = s.taken ++ s.orderDeque_
  seen : (∃ one, s.pc = .ending one) ∨ s.stopped → s.taken = s.seen
  exit : s.exitCalled = false → s.exitPending = false
  breaks : ∀ c ∈ s.calls, c.consumedExit = c.loopbreak

theorem init_inv : Inv (wakeSystem ν).init where
  counter := by simp [wakeSystem]
  one := by simp [wakeSystem, WakeState.one]
  awake := by simp [wakeSystem]
  order := rfl
  seen := by simp [wakeSystem, WakeState.stopped]
  exit _ := rfl
  breaks := by simp [wakeSystem]

/-- A wakeup leaves a counter that is not 0 and has the same parity. -/
theorem writeFd_two (s : WakeState ν) :
    (s.pc ≠ .closed → s.writeFd 2 ≠ 0) ∧ s.writeFd 2 % 2 = s.counter % 2 := by
  unfold WakeState.writeFd
  by_cases hc : s.pc = .closed
  · simp [hc]
  · rw [if_neg hc]
    exact ⟨fun _ => EventFd.write_ne_zero (by decide) (by decide), EventFd.write_even rfl⟩

/-- The 1 of the exit makes an even counter odd, unless the write fails. -/
theorem writeFd_one (s : WakeState ν) (h : s.counter % 2 = 0) :
    (s.counter ≠ 0 → s.writeFd 1 ≠ 0) ∧ (s.writeFd 1 % 2 = 1 ↔ s.canWrite 1 = true) := by
  unfold WakeState.writeFd WakeState.canWrite
  by_cases hc : s.pc = .closed
  · simp [hc, h]
  · rw [if_neg hc]
    cases hf : EventFd.fits s.counter 1 with
    | true =>
      rw [EventFd.write_of_fits hf]
      simp only [ne_eq, hc, not_false_eq_true, and_self, decide_true, iff_true]
      omega
    | false =>
      rw [EventFd.write_of_not_fits hf]
      simp [h]

/-- A wakeup, of `libeventIoWakeup` or behind an insert. -/
theorem Inv.wakeup (hi : Inv s) (between : List Nat) :
    Inv { s with between := between, counter := s.writeFd 2 } := by
  obtain ⟨hne, hpar⟩ := writeFd_two s
  exact { hi with
    counter := by rw [← hi.counter, ← hpar]
    awake := fun _ hc => .inr (.inl (hne hc)) }

/-- There is one exit, so that the counter was even before it. -/
theorem Inv.libeventIoExit (hi : Inv s) (hexit : s.exitCalled = false) :
    Inv { s with counter := s.writeFd 1, exitCalled := true, exitPending := s.canWrite 1 } := by
  have heven : s.counter % 2 = 0 := by
    have hodd := hi.counter
    rw [hi.exit hexit] at hodd
    simp only [Bool.false_eq_true, iff_false] at hodd
    omega
  obtain ⟨hne, hpar⟩ := writeFd_one s heven
  exact { hi with
    counter := hpar
    awake := fun hd hc => (hi.awake hd hc).imp_right (Or.imp_left hne)
    exit := by simp }

/-- The end of a `handleRead` that has read `one`, which is odd exactly if the exit is in it. -/
theorem Inv.finish (hi : Inv s) {one : Nat} (hpc : s.pc = .ending one) :
    Inv { s with
      pc := if one % 2 = 1 then .broken else .idle, exitRead := false
      calls := s.calls ++ [⟨s.exitRead, one % 2 = 1⟩] } := by
  have hone : one % 2 = 1 ↔ s.exitRead = true := hi.one one (by simp [WakeState.one, hpc])
  refine { hi with one := ?_, awake := ?_, seen := fun _ => hi.seen (.inl ⟨one, hpc⟩), breaks := ?_ }
  · by_cases hodd : one % 2 = 1 <;> simp [WakeState.one, hodd]
  · intro hd _
    refine .inr ((hi.awake hd (by simp [hpc])).resolve_left ?_)
    simp [WakeState.draining, hpc]
  · intro c hc
    rcases List.mem_append.mp hc with hc | hc
    · exact hi.breaks c hc
    · cases List.mem_singleton.mp hc
      rw [Bool.eq_iff_iff, ← hone, decide_eq_true_eq]

theorem next_inv {a : WakeAct ν} (hi : Inv s) (h : s.next a = some s') : Inv s' := by
  cases a with
  | insert t node =>
    simp only [WakeState.next] at h
    split at h
    · cases h
    · cases h
      refine { hi with awake := fun _ _ => .inr (.inr (by simp)), order := ?_ }
      simp [hi.order]
  | write t =>
    simp only [WakeState.next] at h
    split at h
    · cases h
      exact hi.wakeup (s.between.erase t)
    · cases h
  | libeventIoWakeup =>
    cases h
    exact hi.wakeup s.between
  | libeventIoExit =>
    simp only [WakeState.next] at h
    split at h
    · cases h
    · rename_i hexit
      cases h
      exact hi.libeventIoExit (by simpa using hexit)
  | read =>
    simp only [WakeState.next] at h
    split at h
    · cases h
      exact { hi with
        counter := by simp
        one := by simpa [WakeState.one] using hi.counter
        awake := fun _ _ => .inl ⟨_, rfl⟩
        seen := by simp [WakeState.stopped]
        exit := fun _ => rfl }
    · cases h
  | deal =>
    simp only [WakeState.next] at h
    split at h
    · rename_i one node rest hpc hd
      cases h
      refine { hi with awake := fun _ _ => .inl ⟨one, hpc⟩, order := ?_, seen := ?_ }
      · simp [hi.order, hd]
      · simp [hpc, WakeState.stopped]
    · cases h
  | empty =>
    simp only [WakeState.next] at h
    split at h
    · rename_i one hpc hd
      cases h
      refine { hi with one := ?_, awake := fun hne => absurd hd hne, seen := fun _ => ?_ }
      · simpa [WakeState.one, hpc] using hi.one
      · simp [hi.order, hd]
    · cases h
  | finish =>
    simp only [WakeState.next] at h
    split at h
    · rename_i one hpc
      cases h
      exact hi.finish hpc
    · cases h
  | close =>
    simp only [WakeState.next] at h
    split at h
    · rename_i hpc
      cases h
      exact { hi with
        one := by simp [WakeState.one]
        awake := fun _ hc => absurd rfl hc
        seen := fun _ => hi.seen (.inr (.inl hpc)) }
    · cases h

/-! ## The end of the work -/

def LoopPc.rank : LoopPc → Nat
  | .closed => 0
  | .broken => 1
  | .idle => 1
  | .ending _ => 2
  | .draining _ => 3

/-- More steps than this do not happen without a new call. -/
def WakeState.work (s : WakeState ν) : Nat :=
  6 * s.between.length + (if s.counter = 0 then 0 else 4) + s.pc.rank + s.orderDeque_.length

theorem own_lt {a : WakeAct ν} (ha : a.isOwn = true) (h : s.next a = some s') : s'.work < s.work := by
  cases a with
  | insert t node => cases ha
  | libeventIoWakeup => cases ha
  | libeventIoExit => cases ha
  | write t =>
    simp only [WakeState.next] at h
    split at h
    · rename_i hmem
      cases h
      have hlen := List.length_erase_of_mem hmem
      have hpos := List.length_pos_of_mem hmem
      -- the thread is worth more than the counter
      simp only [WakeState.work, hlen]
      split <;> omega
    · cases h
  | read =>
    simp only [WakeState.next] at h
    split at h
    · rename_i hpc
      cases h
      simp [WakeState.work, hpc.1, hpc.2, LoopPc.rank]
    · cases h
  | deal =>
    simp only [WakeState.next] at h
    split at h
    · rename_i hd
      cases h
      simp [WakeState.work, hd]
    · cases h
  | empty =>
    simp only [WakeState.next] at h
    split at h
    · rename_i hpc hd
      cases h
      simp [WakeState.work, hpc, LoopPc.rank]
    · cases h
  | finish =>
    simp only [WakeState.next] at h
    split at h
    · rename_i one hpc
      cases h
      by_cases hodd : one % 2 = 1 <;> simp [WakeState.work, hpc, hodd, LoopPc.rank]
    · cases h
  | close =>
    simp only [WakeState.next] at h
    split at h
    · rename_i hpc
      cases h
      simp [WakeState.work, hpc, LoopPc.rank]
    · cases h

/-- Nothing happens any more without a new call. -/
def Quiet (s : WakeState ν) : Prop := ∀ a, a.isOwn = true → s.next a = none

theorem Quiet.cases (h : Quiet s) : s.between = [] ∧ (s.pc = .idle ∧ s.counter = 0 ∨ s.pc = .closed) := by
  constructor
  · cases hb : s.between with
    | nil => rfl
    | cons t ts =>
      have := h (.write t) rfl
      simp [WakeState.next, hb] at this
  · cases hpc : s.pc with
    | idle =>
      refine .inl ⟨rfl, ?_⟩
      by_contra hne
      have := h .read rfl
      simp [WakeState.next, hpc, hne] at this
    | draining one =>
      cases hd : s.orderDeque_ with
      | nil =>
        have := h .empty rfl
        simp [WakeState.next, hpc, hd] at this
      | cons node rest =>
        have := h .deal rfl
        simp [WakeState.next, hpc, hd] at this
    | ending one =>
      have := h .finish rfl
      simp [WakeState.next, hpc] at this
    | broken =>
      have := h .close rfl
      simp [WakeState.next, hpc] at this
    | closed => exact .inr rfl

/-! ## No order is lost -/

/-- As long as `wakeupFd` is open, an order in the deque will be seen. The orders are taken in the
order of their insertion, each at most once. Without new calls, every run ends, and then every order
has been taken, or the loop has ended and has taken what was inserted before it found the deque
empty for the last time. A call of `handleRead` breaks the loop exactly if it has read the 1 of the
exit. -/
structure Delivered (s : WakeState ν) : Prop where
  awake : s.orderDeque_ ≠ [] → s.pc ≠ .closed → s.draining ∨ s.counter ≠ 0 ∨ s.between ≠ []
  order : s.inserted = s.taken ++ s.orderDeque_
  ends : ∀ as s', (∀ a ∈ as, a.isOwn = true) → (wakeSystem ν).run s as = some s' →
    as.length ≤ s.work
  all : Quiet s → s.pc ≠ .closed → s.taken = s.inserted
  early : s.stopped → s.taken = s.seen
  breaks : ∀ c ∈ s.calls, c.loopbreak = true ↔ c.consumedExit = true

/-- For every interleaving of the calls with the loop. -/
theorem delivered (h : (wakeSystem ν).Reach s) : Delivered s := by
  have hi : Inv s := h.inv init_inv fun _ _ _ hi hs => next_inv hi hs
  refine ⟨hi.awake, hi.order, fun as s' hown hrun => ?_, fun hq hopen => ?_, fun hs => ?_, ?_⟩
  · have := Sys.run_length_le (fun _ _ _ => own_lt) as hown hrun
    omega
  · obtain ⟨hb, hidle⟩ := hq.cases
    obtain ⟨hpc, hzero⟩ := hidle.resolve_right hopen
    have hd : s.orderDeque_ = [] := by
      by_contra hne
      rcases hi.awake hne hopen with ⟨one, hdr⟩ | hc | hbt
      · rw [hpc] at hdr
        cases hdr
      · exact hc hzero
      · exact hbt hb
    rw [hi.order, hd, List.append_nil]
  · exact hi.seen (.inr hs)
  · intro c hc
    rw [hi.breaks c hc]

end

/-! ## An order behind the exit -/

/-- One order, the exit, and the loop until it is closed. -/
def exitRun : List (WakeAct Nat) :=
  [.insert 0 7, .libeventIoExit, .write 0, .read, .deal, .empty, .finish, .close]

/-- The order of a run with an exit is taken, and the loop is broken once. -/
theorem delivered_exitRun : ∃ s, (wakeSystem Nat).run (wakeSystem Nat).init exitRun = some s ∧
    s.taken = [7] ∧ s.calls = [⟨true, true⟩] ∧ Delivered s := by
  obtain ⟨s, hs⟩ : ∃ s, (wakeSystem Nat).run (wakeSystem Nat).init exitRun = some s := ⟨_, rfl⟩
  have hd := delivered (Sys.Reach.init.run _ hs)
  refine ⟨s, hs, ?_, ?_, hd⟩ <;> · cases hs; rfl

/-- An order that is inserted when the loop has ended is not taken. -/
theorem late_order_stays : ¬ ∀ s : WakeState Nat, (wakeSystem Nat).Reach s → Quiet s →
    s.taken = s.inserted := by
  intro h
  obtain ⟨s, hs⟩ : ∃ s, (wakeSystem Nat).run (wakeSystem Nat).init
      (exitRun ++ [.insert 1 8, .write 1]) = some s := ⟨_, rfl⟩
  have heq := h s (Sys.Reach.init.run _ hs) fun a ha => by cases hs; cases a <;> first | rfl | cases ha
  cases hs
  exact absurd heq (by decide)

end Wakeup
end RedisAsyn
end CmakeFrame
