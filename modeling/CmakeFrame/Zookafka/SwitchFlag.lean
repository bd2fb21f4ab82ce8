import CmakeFrame.Lib.Threads
import CmakeFrame.Zookafka.ZooKfkTopicsPop

/-!
# `zookafka/src/ZooKfkTopicsPop.cpp`: a change of topics interrupts `pop`

`pop` holds `listLock` while it polls, for as long as no message comes. A thread that wants to
change the topics sets `switchFlag` before it waits for that lock, and `pop` leaves its loop when it
sees the flag. All threads share the one flag.

* `switchSystem`: `kfkTopicConsumeStart`, `kfkTopicConsumeStop` and `pop` in several threads, on one
  consumer. The tests before the lock, the flag, the lock and the rest of a call are steps of their
  own.
* `Interrupts`: who waits behind its flag finds the flag set, so a poll ends `pop`.
* `Alone`: a call clears the flag only when nobody else waits behind it.
* `change_interrupts`: with that, every waiting thread interrupts; `finish_interrupts`: without it,
  one does not.
-/

namespace CmakeFrame
namespace Zookafka

open Lib

/-- A call that changes the topics. -/
inductive Request where
  | start (topic : Bytes)
  | stop (topic : Bytes)
  deriving DecidableEq, Repr

/-- Who has `listLock`. -/
inductive Holder where
  | change (r : Request)
  /-- `pop`, in its loop. -/
  | pop
  deriving DecidableEq, Repr

/-- `called` are the threads behind the tests that need no lock, `waiting` those that have set
`switchFlag` and wait for `listLock`. -/
structure SwitchState where
  p : ZooKfkTopicsPop
  called : List Request
  waiting : List Request
  holder : Option Holder
  deriving DecidableEq, Repr

inductive SwitchAct where
  /-- A call up to the tests before the flag; it may return there. -/
  | call (r : Request)
  /-- `switchFlag = 1`. -/
  | flag (r : Request)
  | lock (r : Request)
  /-- The call under the lock, and the end of it. -/
  | finish (env : ChangeEnv)
  /-- `pop` takes the lock; it returns at once if its tests say so. -/
  | pop
  /-- One turn of the loop of `pop`. -/
  | poll (message : Option Message)

namespace SwitchState

/-- The tests of a call before it sets the flag. -/
def goesOn (p : ZooKfkTopicsPop) : Request → Bool
  | .start _ => p.kfkTopicConsumeStartFlag.isSome
  | .stop _ => p.kfkTopicConsumeStopFlag.isSome

/-- A call under the lock. -/
def underLock (p : ZooKfkTopicsPop) (env : ChangeEnv) : Request → ZooKfkTopicsPop
  | .start topic => (p.kfkTopicConsumeStart topic env).1
  | .stop topic => (p.kfkTopicConsumeStop topic env).1

def next (s : SwitchState) : SwitchAct → Option SwitchState
  | .call r => some (if goesOn s.p r then { s with called := r :: s.called } else s)
  | .flag r =>
    if r ∈ s.called then
      some { s with
        p := { s.p with switchFlag := 1 }
        called := s.called.erase r
        waiting := r :: s.waiting }
    else none
  | .lock r =>
    if r ∈ s.waiting ∧ s.holder = none then
      some { s with waiting := s.waiting.erase r, holder := some (.change r) }
    else none
  | .finish env =>
    match s.holder with
    | some (.change r) => some { s with p := underLock s.p env r, holder := none }
    | _ => none
  | .pop =>
    if s.holder = none then
      match s.p.popCheck with
      | some _ => some s
      | none => some { s with holder := some .pop }
    else none
  | .poll message =>
    if s.holder = some .pop then
      match s.p.popLoop message with
      | .again => some s
      | .leave m => some { s with p := (s.p.popEnd ⟨[], [], [], 0⟩ true true m).1, holder := none }
    else none

end SwitchState

/-- The calls on the consumer `p`. -/
def switchSystem (p : ZooKfkTopicsPop) : Sys SwitchState SwitchAct where
  init := ⟨p, [], [], none⟩
  next := SwitchState.next

/-- Who waits behind its flag finds the flag set, and `pop` does not poll again. -/
structure Interrupts (s : SwitchState) : Prop where
  flag : ∀ r ∈ s.waiting, s.p.switchFlag ≠ 0
  pop : s.waiting ≠ [] → s.holder = some .pop → ∀ message, s.p.popLoop message ≠ .again

/-- No thread waits behind its flag when a call ends. -/
def Alone (s : SwitchState) : SwitchAct → Prop
  | .finish _ => s.waiting = []
  | _ => True

instance (s : SwitchState) (a : SwitchAct) : Decidable (Alone s a) := by
  cases a <;> unfold Alone <;> infer_instance

section

variable {s s' : SwitchState}

/-- The flag is all that `pop` asks for. -/
theorem Interrupts.of_flag (h : s.waiting ≠ [] → s.p.switchFlag ≠ 0) : Interrupts s where
  flag := fun r hr => h (List.ne_nil_of_mem hr)
  pop := by
    intro hw _ message
    unfold ZooKfkTopicsPop.popLoop
    rw [if_pos (Or.inl (h hw))]
    exact Looped.noConfusion

theorem Interrupts.flag_of_waiting (h : Interrupts s) (hw : s.waiting ≠ []) :
    s.p.switchFlag ≠ 0 := by
  obtain ⟨r, hr⟩ := List.exists_mem_of_ne_nil _ hw
  exact h.flag r hr

/-- Every end of a call clears the flag. -/
theorem underLock_switchFlag (p : ZooKfkTopicsPop) (env : ChangeEnv) (r : Request) :
    (SwitchState.underLock p env r).switchFlag = 0 := by
  cases r with
  | start topic =>
    simp only [SwitchState.underLock, ZooKfkTopicsPop.kfkTopicConsumeStart]
    repeat' split
    all_goals rfl
  | stop topic =>
    simp only [SwitchState.underLock, ZooKfkTopicsPop.kfkTopicConsumeStop]
    repeat' split
    all_goals rfl

theorem popEnd_switchFlag (p : ZooKfkTopicsPop) (o : Outputs) (key offset : Bool)
    (message : Option Message) : (p.popEnd o key offset message).1.switchFlag = p.switchFlag := by
  cases message with
  | none => rfl
  | some m =>
    unfold ZooKfkTopicsPop.popEnd
    split
    · rename_i m' heq
      cases heq
    · split
      · rfl
      · rfl

/-- What one step does to the flag and to those who wait behind it. -/
theorem next_cases {a : SwitchAct} (h : s.next a = some s') :
    (s'.waiting = s.waiting ∧ s'.p.switchFlag = s.p.switchFlag) ∨
    s'.p.switchFlag = 1 ∨
    (∃ r, s'.waiting = s.waiting.erase r ∧ s'.p = s.p) ∨
    (∃ env, a = .finish env ∧ s'.waiting = s.waiting ∧ s'.p.switchFlag = 0) := by
  cases a with
  | call r =>
    simp only [SwitchState.next, Option.some.injEq] at h
    left
    split at h <;> cases h <;> exact ⟨rfl, rfl⟩
  | flag r =>
    simp only [SwitchState.next] at h
    split at h
    · cases h
      exact .inr (.inl rfl)
    · cases h
  | lock r =>
    simp only [SwitchState.next] at h
    split at h
    · cases h
      exact .inr (.inr (.inl ⟨r, rfl, rfl⟩))
    · cases h
  | finish env =>
    simp only [SwitchState.next] at h
    split at h
    · cases h
      exact .inr (.inr (.inr ⟨env, rfl, rfl, underLock_switchFlag _ _ _⟩))
    · cases h
  | pop =>
    simp only [SwitchState.next] at h
    left
    split at h
    · split at h <;> cases h <;> exact ⟨rfl, rfl⟩
    · cases h
  | poll message =>
    simp only [SwitchState.next] at h
    left
    split at h
    · split at h
      · cases h
        exact ⟨rfl, rfl⟩
      · cases h
        exact ⟨rfl, popEnd_switchFlag _ _ _ _ _⟩
    · cases h

theorem Interrupts.next (hi : Interrupts s) {a : SwitchAct} (hc : Alone s a)
    (h : s.next a = some s') : Interrupts s' := by
  apply Interrupts.of_flag
  intro hw
  rcases next_cases h with ⟨hwait, hflag⟩ | hflag | ⟨r, hwait, hp⟩ | ⟨env, rfl, hwait, -⟩
  · rw [hflag]
    exact hi.flag_of_waiting (hwait ▸ hw)
  · rw [hflag]
    decide
  · rw [hp]
    apply hi.flag_of_waiting
    rintro hnil
    rw [hwait, hnil] at hw
    exact hw rfl
  · rw [hwait] at hw
    exact absurd hc hw

/-- The end of a call leaves the others interrupting exactly if there are none. -/
theorem finish_interrupts {env : ChangeEnv} (h : s.next (.finish env) = some s') :
    Interrupts s' ↔ s.waiting = [] := by
  have hcases : s'.waiting = s.waiting ∧ s'.p.switchFlag = 0 := by
    simp only [SwitchState.next] at h
    split at h
    · cases h
      exact ⟨rfl, underLock_switchFlag _ _ _⟩
    · cases h
  constructor
  · intro hi
    by_contra hw
    exact hi.flag_of_waiting (hcases.1 ▸ hw) hcases.2
  · intro hw
    apply Interrupts.of_flag
    intro hw'
    exact absurd (hcases.1.trans hw) hw'

/-- Without the flag, `pop` polls as long as no message comes. -/
theorem poll_again (hpop : s.holder = some .pop) (hflag : s.p.switchFlag = 0)
    (hdestroy : s.p.destroy = 0) : s.next (.poll none) = some s := by
  simp [SwitchState.next, hpop, ZooKfkTopicsPop.popLoop, hflag, hdestroy]

end

/-- In every run whose calls end only when nobody waits behind the flag: who waits interrupts. -/
theorem change_interrupts (p : ZooKfkTopicsPop) (s : SwitchState)
    (h : ((switchSystem p).only Alone).Reach s) : Interrupts s := by
  refine Sys.Reach.inv_only ?_ (fun _ _ _ hi hc hs => hi.next hc hs) h
  apply Interrupts.of_flag
  intro hw
  exact absurd rfl hw

/-- A consumer of the topic `t`. -/
def consumerT : ZooKfkTopicsPop := { ZooKfkTopicsPop.new with kfkt := true, topics_ := [[116]] }

/-- `pop` polls, and a thread that wants the topic `u` waits. -/
def startWaits : List SwitchAct :=
  [.pop, .call (.start [117]), .flag (.start [117])]

theorem change_interrupts_startWaits : ∃ s, ((switchSystem consumerT).only Alone).run
    ((switchSystem consumerT).only Alone).init startWaits = some s ∧ s.waiting = [.start [117]] ∧
    s.holder = some .pop ∧ Interrupts s :=
  ⟨_, rfl, rfl, rfl, change_interrupts consumerT _ (Sys.Reach.init.run startWaits rfl)⟩

/-- Two threads set the flag. The first one ends its call, and then `pop` has the lock before the
second. -/
def flagSwallowed : List SwitchAct :=
  [.call (.start [117]), .call (.stop [116]), .flag (.start [117]), .flag (.stop [116]),
    .lock (.start [117]), .finish ⟨true, 0, 0⟩, .pop]

/-- The second thread waits, the flag is clear, and `pop` polls on and on. -/
theorem flag_swallowed : ∃ s, (switchSystem consumerT).Reach s ∧ ¬ Interrupts s ∧
    s.waiting ≠ [] ∧ s.next (.poll none) = some s := by
  obtain ⟨s, hrun, hwait, hpop, hflag, hdestroy⟩ : ∃ s, (switchSystem consumerT).run
      (switchSystem consumerT).init flagSwallowed = some s ∧ s.waiting ≠ [] ∧
      s.holder = some .pop ∧ s.p.switchFlag = 0 ∧ s.p.destroy = 0 :=
    ⟨_, rfl, by decide, rfl, rfl, rfl⟩
  refine ⟨s, Sys.Reach.init.run _ hrun, ?_, hwait, poll_again hpop hflag hdestroy⟩
  intro hi
  exact hi.flag_of_waiting hwait hflag

end Zookafka
end CmakeFrame
