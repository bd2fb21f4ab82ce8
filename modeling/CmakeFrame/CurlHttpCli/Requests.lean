import CmakeFrame.CurlHttpCli.CurlHttpCli
import Mathlib.Algebra.BigOperators.Group.List.Basic

/-!
# Where each request is, and the count of them

* `Place`, `places`: all places where a request is, each as often as it is there.
* `Accounted`: every counted request is at one place, and the count is the number of those that the
  response thread has not counted down.
* `held`, `Conserved`: the same in numbers, as the invariant; `Conserved.move`: every step keeps it, and
  so does every whole turn, by `Conserved.next`.
* `requests_accounted`: in every run; `dealt_is_nowhere`: why more places are needed than the two
  queues, the connections and the callback.
* `reach_heads`: between whole turns, no loop has a request in its hands.
-/

namespace CmakeFrame
namespace CurlHttp

open Lib

/-! ## Places -/

inductive Place where
  /-- A call has counted it and not put it into a queue. -/
  | call
  /-- In the queue of a loop. -/
  | queued (loop : Nat)
  /-- A loop has taken it out of its queue, and neither bound nor answered it. -/
  | dealt (loop : Nat)
  /-- `connInfoReqinfo()` of a connection of a loop. -/
  | bound (loop conn : Nat)
  /-- The same, but the loop has answered it and is about to call `connInfoReinit`. -/
  | stale (loop conn : Nat)
  /-- In the response queue. -/
  | responded
  /-- The response thread has taken it, and not counted it down. -/
  | taken
  /-- The response thread has counted it down, and not called it back. -/
  | calling
  | calledBack
  deriving DecidableEq, Repr

/-- The place `p`, if the request is there. -/
def mark (here : Prop) [Decidable here] (p : Place) : List Place := if here then [p] else []

def IoPc.places (loop r : Nat) : IoPc → List Place
  | .dealt req _ _ => mark (req = r) (.dealt loop)
  | .dispatch | .multiInfo | .requet _ _ | .forEach _ _ _ | .leave _ | .ended | .reinit _ _ _
  | .giveBack _ _ => []

/-- The connection whose request is answered, before `connInfoReinit`. -/
def IoPc.finished : IoPc → Option Nat
  | .reinit i _ _ => some i
  | .dispatch | .multiInfo | .requet _ _ | .forEach _ _ _ | .leave _ | .ended | .dealt _ _ _
  | .giveBack _ _ => none

def AsyncCurlHttp.places (l : AsyncCurlHttp) (loop r : Nat) : List Place :=
  (l.queue.flatMap fun req => mark (req = r) (.queued loop)) ++ l.pc.places loop r ++
    l.conns.zipIdx.flatMap fun c =>
      mark (c.1.reqInfo = some r)
        (if l.pc.finished = some c.2 then .stale loop c.2 else .bound loop c.2)

def RspPc.places (r : Nat) : RspPc → List Place
  | .count req => mark (req = r) .taken
  | .callBack req => mark (req = r) .calling
  | .deal | .check | .ended => []

def Call.places (c : Call) : List Place := mark (c.pc.phase = .hand) .call

/-- Where the request of call `r` is when it has been answered. -/
def CurlHttpCli.behind (s : CurlHttpCli) (r : Nat) : List Place :=
  (s.responses.flatMap fun req => mark (req = some r) .responded) ++ s.rsp.places r ++
    s.calledBack.flatMap fun req => mark (req = r) .calledBack

/-- Every place where the request of call `r` is. -/
def CurlHttpCli.places (s : CurlHttpCli) (r : Nat) : List Place :=
  (s.calls[r]?.toList.flatMap Call.places) ++ (s.loops.zipIdx.flatMap fun l => l.1.places l.2 r) ++
    s.behind r

/-- The request of call `r` is counted: `asyncReq()` was called for it, and it was not refused. -/
def CurlHttpCli.isCounted (s : CurlHttpCli) (r : Nat) : Prop :=
  ∃ c, s.calls[r]? = some c ∧ c.pc.phase ≠ .out

/-- `AsyncQueueNum` still counts a request that is there. -/
def Place.isCounted : Place → Bool
  | .call | .queued _ | .dealt _ | .bound _ _ | .responded | .taken => true
  | .stale _ _ | .calling | .calledBack => false

def Place.isStale : Place → Bool
  | .stale _ _ => true
  | .call | .queued _ | .dealt _ | .bound _ _ | .responded | .taken | .calling | .calledBack => false

def Place.isAnswered : Place → Bool
  | .responded | .taken | .calling | .calledBack => true
  | .call | .queued _ | .dealt _ | .bound _ _ | .stale _ _ => false

/-- The request is at one place. When it has been answered, a connection may for a moment still point
to it. -/
def CurlHttpCli.OnePlace (s : CurlHttpCli) (r : Nat) : Prop :=
  ∃ p, p.isStale = false ∧ (s.places r = [p] ∨
    ∃ loop conn, s.places r = [.stale loop conn, p] ∧ p.isAnswered = true)

/-- Every counted request is at exactly one place and every other one at none, and the count is the
number of requests that are at a place that counts. -/
def Accounted (s : CurlHttpCli) : Prop :=
  (∀ r, s.isCounted r → s.OnePlace r) ∧ (∀ r, ¬ s.isCounted r → s.places r = []) ∧
    s.asyncNum =
      ((List.range s.calls.length).countP fun r => (s.places r).any Place.isCounted : Nat) ∧
    0 ≤ s.asyncNum

/-! ## The same in numbers -/

/-- 1 if the request is there. -/
def ind (here : Prop) [Decidable here] : Nat := if here then 1 else 0

@[simp] theorem length_mark (here : Prop) [Decidable here] (p : Place) :
    (mark here p).length = ind here := by
  unfold mark ind
  split <;> rfl

def IoPc.held (r : Nat) : IoPc → Nat
  | .dealt req _ _ => ind (req = r)
  | .dispatch | .multiInfo | .requet _ _ | .forEach _ _ _ | .leave _ | .ended | .reinit _ _ _
  | .giveBack _ _ => 0

/-- How often a loop has the request. -/
def AsyncCurlHttp.held (l : AsyncCurlHttp) (r : Nat) : Nat :=
  (l.queue.map fun req => ind (req = r)).sum + l.pc.held r +
    (l.conns.map fun c => ind (c.reqInfo = some r)).sum

/-- 1 if a connection of the loop points to the request and has been answered for. -/
def AsyncCurlHttp.stale (l : AsyncCurlHttp) (r : Nat) : Nat :=
  match l.pc.finished with
  | none => 0
  | some i =>
    match l.conns[i]? with
    | none => 0
    | some c => ind (c.reqInfo = some r)

/-- How often a list of answers has the request. -/
def answers (rsp : List (Option Nat)) (r : Nat) : Nat := (rsp.map fun req => ind (req = some r)).sum

/-- How often the response thread has the request. -/
def RspPc.held (r : Nat) : RspPc → Nat
  | .count req | .callBack req => ind (req = r)
  | .deal | .check | .ended => 0

/-- How often the request has been answered. -/
def CurlHttpCli.answered (s : CurlHttpCli) (r : Nat) : Nat :=
  answers s.responses r + s.rsp.held r + (s.calledBack.map fun req => ind (req = r)).sum

/-- How often the request is somewhere behind the call. -/
def CurlHttpCli.held (s : CurlHttpCli) (r : Nat) : Nat :=
  (s.loops.map fun l => l.held r).sum + s.answered r

def CurlHttpCli.stale (s : CurlHttpCli) (r : Nat) : Nat := (s.loops.map fun l => l.stale r).sum

/-- 1 if the call has put the request into a queue. -/
def Phase.pushed : Phase → Nat
  | .between _ | .sent => 1
  | .out | .hand => 0

/-- 1 if the request is counted. -/
def Phase.counted : Phase → Nat
  | .hand | .between _ | .sent => 1
  | .out => 0

/-- 1 if call `r` has put its request into a queue. -/
def pushed (calls : List Call) (r : Nat) : Nat :=
  match calls[r]? with
  | none => 0
  | some c => c.pc.phase.pushed

/-- 1 while the response thread is between `asyncRsp()` and the callback. -/
def RspPc.calling : RspPc → Nat
  | .callBack _ => 1
  | .deal | .count _ | .check | .ended => 0

/-- 1 if call `r` has counted its request, and not refused it. -/
def countedAt (calls : List Call) (r : Nat) : Nat :=
  match calls[r]? with
  | none => 0
  | some c => c.pc.phase.counted

/-- The requests that have been counted and not refused. -/
def counted (calls : List Call) : Nat := (calls.map fun c => c.pc.phase.counted).sum

/-- Nothing is lost and nothing is twice. -/
structure Conserved (s : CurlHttpCli) : Prop where
  held : ∀ r, s.held r = pushed s.calls r + s.stale r
  /-- Only what has been answered is stale. -/
  stale : ∀ r, s.stale r ≤ s.answered r
  num : s.asyncNum + s.calledBack.length + s.rsp.calling = counted s.calls

/-! ## One loop -/

theorem IoPc.finished_of_head {pc : IoPc} (h : pc.isHead = true) : pc.finished = none := by
  cases pc <;> first | rfl | cases h

theorem AsyncCurlHttp.stale_of_head {l : AsyncCurlHttp} (h : l.pc.isHead = true) (r : Nat) :
    l.stale r = 0 := by
  simp [AsyncCurlHttp.stale, IoPc.finished_of_head h]

theorem IoPc.held_of_head {pc : IoPc} (h : pc.isHead = true) (r : Nat) : pc.held r = 0 := by
  cases pc <;> first | rfl | cases h

theorem AsyncCurlHttp.stale_reinit {l : AsyncCurlHttp} {i : Nat} {url : Bytes} {caller : Finisher}
    {c : ConnInfo} (hpc : l.pc = .reinit i url caller) (hc : l.conns[i]? = some c) (r : Nat) :
    l.stale r = ind (c.reqInfo = some r) := by
  simp [AsyncCurlHttp.stale, hpc, IoPc.finished, hc]

theorem AsyncCurlHttp.stale_answer {l : AsyncCurlHttp} {i : Nat} {c : ConnInfo}
    (hc : l.conns[i]? = some c) (url : Bytes) (caller : Finisher) (r : Nat) :
    AsyncCurlHttp.stale { l with
      conns := l.conns.set i { c with added := false }
      pc := .reinit i url caller } r = ind (c.reqInfo = some r) := by
  have hlt : i < l.conns.length := (List.getElem?_eq_some_iff.mp hc).1
  exact AsyncCurlHttp.stale_reinit (c := { c with added := false }) rfl (List.getElem?_set_self hlt) r

/-- A loop keeps a request, or answers it. -/
theorem AsyncCurlHttp.Moves.held {reqs : Nat → Option HttpReqSession} {l : AsyncCurlHttp}
    {e : LoopEvent} {f : LoopEffect} (h : l.Moves reqs e f) (r : Nat) :
    f.loop.held r + answers f.rsp.toList r + l.stale r = l.held r + f.loop.stale r := by
  cases h with
  | quiet _ l' _ hhead hhead' hq hconns =>
    have hs := l.stale_of_head hhead r
    have hs' := l'.stale_of_head hhead' r
    have hp := IoPc.held_of_head hhead r
    have hp' := IoPc.held_of_head hhead' r
    simp only [AsyncCurlHttp.held, hq, hconns, hs, hs', hp, hp', answers]
    rfl
  | deal setup seconds left handler req rest hpc hq =>
    simp [AsyncCurlHttp.held, AsyncCurlHttp.dealRequest, AsyncCurlHttp.stale, answers, hpc, hq,
      IoPc.held, IoPc.finished]
    omega
  | respond setup seconds left handler req hpc =>
    simp [AsyncCurlHttp.held, AsyncCurlHttp.stale, answers, hpc, IoPc.held, IoPc.finished]
    omega
  | bind added seconds left handler req sess hpc _ =>
    simp [AsyncCurlHttp.held, AsyncCurlHttp.stale, answers, hpc, IoPc.held, IoPc.finished]
    omega
  | answer _ i c url caller hpc hc =>
    have hhead := AsyncCurlHttp.isHead_of_eq hpc (AsyncCurlHttp.isHead_found caller i)
    have hs := l.stale_of_head hhead r
    have hp := IoPc.held_of_head hhead r
    have hsum := sum_map_set (fun c : ConnInfo => ind (c.reqInfo = some r)) hc
      { c with added := false }
    have hs' := AsyncCurlHttp.stale_answer hc url caller r
    simp only [AsyncCurlHttp.held, answers, Option.toList_some, List.map_cons, List.map_nil,
      List.sum_cons, List.sum_nil, IoPc.held] at hs' hsum hp ⊢
    omega
  | reinit i url caller c hpc hc =>
    have hs := l.stale_reinit hpc hc r
    have hsum := sum_map_set (fun c : ConnInfo => ind (c.reqInfo = some r)) hc c.reinit
    have h0 : ind (c.reinit.reqInfo = some r) = 0 := rfl
    simp only [AsyncCurlHttp.held, AsyncCurlHttp.stale, answers, Option.toList_none, List.map_nil,
      List.sum_nil, IoPc.held, IoPc.finished, hpc] at hs ⊢
    omega
  | giveBack b caller hpc =>
    cases caller <;> simp [AsyncCurlHttp.held, AsyncCurlHttp.stale, answers, hpc, IoPc.held,
      IoPc.finished, Finisher.resume]

/-- A request goes stale when it is answered. -/
theorem AsyncCurlHttp.Moves.stale {reqs : Nat → Option HttpReqSession} {l : AsyncCurlHttp}
    {e : LoopEvent} {f : LoopEffect} (h : l.Moves reqs e f) (r : Nat) :
    f.loop.stale r ≤ l.stale r + answers f.rsp.toList r := by
  cases h with
  | quiet _ l' _ _ hhead' _ _ => simp [l'.stale_of_head hhead' r]
  | deal _ _ _ _ _ _ _ _ | respond _ _ _ _ _ _ | bind _ _ _ _ _ _ _ _ | reinit _ _ _ _ _ _ =>
    simp [AsyncCurlHttp.stale, IoPc.finished]
  | answer _ i c url caller _ hc =>
    have hs' := AsyncCurlHttp.stale_answer hc url caller r
    simp only [answers, Option.toList_some, List.map_cons, List.map_nil, List.sum_cons,
      List.sum_nil] at hs' ⊢
    omega
  | giveBack b caller _ =>
    cases caller <;> simp [AsyncCurlHttp.stale, IoPc.finished, Finisher.resume]

/-! ## All threads -/

section

variable {cfg : Config} {s s' : CurlHttpCli} {i : Nat} {c : Call}

theorem pushed_set {calls : List Call} (hc : calls[i]? = some c) (c' : Call) (r : Nat) :
    pushed (calls.set i c') r + (if r = i then c.pc.phase.pushed else 0) =
      pushed calls r + if r = i then c'.pc.phase.pushed else 0 := by
  unfold pushed
  by_cases hr : r = i
  · have hlt : i < calls.length := (List.getElem?_eq_some_iff.mp hc).1
    rw [hr, List.getElem?_set_self hlt, hc]
    simp only [if_true]
    omega
  · rw [List.getElem?_set_ne (Ne.symm hr), if_neg hr, if_neg hr]

theorem counted_set {calls : List Call} (hc : calls[i]? = some c) (c' : Call) :
    counted (calls.set i c') + c.pc.phase.counted = counted calls + c'.pc.phase.counted :=
  sum_map_set (fun c : Call => c.pc.phase.counted) hc c'

theorem held_push (l : AsyncCurlHttp) (r : Nat) : (l.push i).held r = l.held r + ind (i = r) := by
  simp [AsyncCurlHttp.held, AsyncCurlHttp.push]
  omega

/-- Loop `index` goes on as `l'`. -/
theorem held_setLoop {index : Nat} {l : AsyncCurlHttp} (hl : s.loops[index]? = some l)
    (l' : AsyncCurlHttp) (r : Nat) :
    (s.setLoop index l').held r + l.held r = s.held r + l'.held r := by
  have hsum := sum_map_set (fun l : AsyncCurlHttp => l.held r) hl l'
  simp only [CurlHttpCli.held, CurlHttpCli.answered, CurlHttpCli.setLoop]
  omega

theorem stale_setLoop {index : Nat} {l : AsyncCurlHttp} (hl : s.loops[index]? = some l)
    (l' : AsyncCurlHttp) (r : Nat) :
    (s.setLoop index l').stale r + l.stale r = s.stale r + l'.stale r :=
  sum_map_set (fun l : AsyncCurlHttp => l.stale r) hl l'

/-- Call `i` goes on with `c'`, and the request goes with it. -/
theorem Conserved.set (hi : Conserved s) (hc : s.calls[i]? = some c) {c' : Call}
    (hcalls : s'.calls = s.calls.set i c') (hback : s'.calledBack = s.calledBack)
    (hrsp : s'.rsp = s.rsp) (hresponses : s'.responses = s.responses)
    (hstale : ∀ r, s'.stale r = s.stale r)
    (hheld : ∀ r, s'.held r + (if r = i then c.pc.phase.pushed else 0) =
      s.held r + if r = i then c'.pc.phase.pushed else 0)
    (hnum : s'.asyncNum + c.pc.phase.counted = s.asyncNum + c'.pc.phase.counted) :
    Conserved s' where
  held r := by
    have hp := pushed_set hc c' r
    have hr := hi.held r
    have h := hheld r
    rw [hcalls, hstale]
    omega
  stale r := by
    have hr := hi.stale r
    rw [hstale]
    simpa only [CurlHttpCli.answered, hback, hrsp, hresponses] using hr
  num := by
    have hcount := counted_set hc c'
    have hn := hi.num
    rw [hcalls, hback, hrsp]
    omega

/-- A step of a call keeps the invariant. -/
theorem Conserved.callStep (hi : Conserved s) (hc : s.calls[i]? = some c)
    (h : callStep cfg s i c = some s') : Conserved s' := by
  cases callStep_effect h with
  | move pc conn urlMap lastIndex hphase =>
    refine hi.set hc rfl rfl rfl rfl (fun _ => rfl) (fun r => ?_) ?_
    · show s.held r + _ = s.held r + _
      rw [hphase]
    · show s.asyncNum + _ = s.asyncNum + _
      rw [hphase]
  | asyncReq hpc _ =>
    refine hi.set hc rfl rfl rfl rfl (fun _ => rfl) (fun r => ?_) ?_
    · show s.held r + _ = s.held r + _
      rw [hpc]
      rfl
    · show s.asyncNum + 1 + _ = s.asyncNum + _
      simp [hpc, CallPc.phase, Phase.counted]
  | push index l hpc hl _ =>
    refine hi.set hc rfl rfl rfl rfl (fun r => ?_) (fun r => ?_) ?_
    · have hloop := stale_setLoop hl (l.push i) r
      have hsame : (l.push i).stale r = l.stale r := rfl
      show (s.setLoop index (l.push i)).stale r = s.stale r
      omega
    · have hloop := held_setLoop hl (l.push i) r
      have hpush := held_push (i := i) l r
      show (s.setLoop index (l.push i)).held r + _ = s.held r + _
      simp only [hpc, CallPc.phase, Phase.pushed, ind, eq_comm] at hpush ⊢
      split at hpush <;> split <;> omega
    · show s.asyncNum + _ = s.asyncNum + _
      rw [hpc]
      rfl
  | wakeup index l hpc hl =>
    refine hi.set hc rfl rfl rfl rfl (fun r => ?_) (fun r => ?_) ?_
    · have hloop := stale_setLoop hl l.wakeup r
      have hsame : l.wakeup.stale r = l.stale r := rfl
      show (s.setLoop index l.wakeup).stale r = s.stale r
      omega
    · have hloop := held_setLoop hl l.wakeup r
      have hwake : l.wakeup.held r = l.held r := rfl
      show (s.setLoop index l.wakeup).held r + _ = s.held r + _
      simp only [hpc, CallPc.phase, Phase.pushed, le_refl, if_true]
      omega
    · show s.asyncNum + _ = s.asyncNum + _
      rw [hpc]
      rfl
  | refuse hpc =>
    refine hi.set hc rfl rfl rfl rfl (fun _ => rfl) (fun r => ?_) ?_
    · show s.held r + _ = s.held r + _
      rw [hpc]
      rfl
    · show s.asyncNum - 1 + _ = s.asyncNum + _
      simp [hpc, CallPc.phase, Phase.counted]

/-- What the invariant reads is as before. -/
theorem Conserved.congr (hi : Conserved s) (hcalls : s'.calls = s.calls)
    (hback : s'.calledBack = s.calledBack) (hrsp : s'.rsp.calling = s.rsp.calling)
    (hloops : s'.loops = s.loops) (hanswered : ∀ r, s'.answered r = s.answered r)
    (hnum : s'.asyncNum = s.asyncNum) : Conserved s' where
  held r := by
    have hr := hi.held r
    simpa only [CurlHttpCli.held, CurlHttpCli.stale, hloops, hanswered, hcalls] using hr
  stale r := by
    have hr := hi.stale r
    simpa only [CurlHttpCli.stale, hloops, hanswered] using hr
  num := by rw [hnum, hback, hrsp, hcalls, hi.num]

theorem Conserved.moveStep {e : LoopEvent} (hi : Conserved s) (h : moveStep cfg s i e = some s') :
    Conserved s' := by
  unfold CurlHttp.moveStep at h
  split at h
  · cases h
  · rename_i l hl
    obtain ⟨f, hf, rfl⟩ := Option.map_eq_some_iff.mp h
    have hmoves := AsyncCurlHttp.move_moves hf
    refine ⟨fun r => ?_, fun r => ?_, hi.num⟩
    · have hmove := hmoves.held r
      have hloop := held_setLoop hl f.loop r
      have hstale := stale_setLoop hl f.loop r
      have hr := hi.held r
      simp only [CurlHttpCli.held, CurlHttpCli.stale, CurlHttpCli.answered, CurlHttpCli.apply,
        CurlHttpCli.setLoop, answers, List.map_append, List.sum_append] at *
      omega
    · have hmove := hmoves.stale r
      have hstale := stale_setLoop hl f.loop r
      have hr := hi.stale r
      simp only [CurlHttpCli.stale, CurlHttpCli.answered, CurlHttpCli.apply, CurlHttpCli.setLoop,
        answers, List.map_append, List.sum_append] at *
      omega

theorem Conserved.rspStep (hi : Conserved s) (h : rspStep s = some s') : Conserved s' := by
  unfold CurlHttp.rspStep at h
  split at h
  · rename_i hrsp
    split at h
    · split at h
      · cases h
        refine hi.congr rfl rfl (by rw [hrsp]; rfl) rfl (fun r => ?_) rfl
        simp [CurlHttpCli.answered, hrsp, RspPc.held]
      · cases h
    · rename_i rest hq
      cases h
      refine hi.congr rfl rfl (by rw [hrsp]; rfl) rfl (fun r => ?_) rfl
      simp [CurlHttpCli.answered, hrsp, RspPc.held, hq, answers, ind]
    · rename_i req rest hq
      cases h
      refine hi.congr rfl rfl (by rw [hrsp]; rfl) rfl (fun r => ?_) rfl
      simp [CurlHttpCli.answered, hrsp, RspPc.held, hq, answers]
      omega
  · rename_i req hrsp
    cases h
    refine ⟨fun r => ?_, fun r => ?_, ?_⟩
    · have hr := hi.held r
      simpa [CurlHttpCli.held, CurlHttpCli.stale, CurlHttpCli.answered, hrsp, RspPc.held] using hr
    · have hr := hi.stale r
      simpa [CurlHttpCli.stale, CurlHttpCli.answered, hrsp, RspPc.held] using hr
    · have hn := hi.num
      simp only [hrsp, RspPc.calling] at hn ⊢
      omega
  · rename_i req hrsp
    cases h
    refine ⟨fun r => ?_, fun r => ?_, ?_⟩
    · have hr := hi.held r
      simp only [CurlHttpCli.held, CurlHttpCli.stale, CurlHttpCli.answered, hrsp, RspPc.held,
        List.map_append, List.sum_append, List.map_cons, List.map_nil, List.sum_cons,
        List.sum_nil] at hr ⊢
      omega
    · have hr := hi.stale r
      simp only [CurlHttpCli.stale, CurlHttpCli.answered, hrsp, RspPc.held, List.map_append,
        List.sum_append, List.map_cons, List.map_nil, List.sum_cons, List.sum_nil] at hr ⊢
      omega
    · have hn := hi.num
      simp only [hrsp, RspPc.calling, List.length_append, List.length_singleton] at hn ⊢
      omega
  · rename_i hrsp
    cases h
    refine hi.congr rfl rfl ?_ rfl (fun r => ?_) rfl
    · cases s.threadExit <;> simp [hrsp, RspPc.calling]
    · cases ht : s.threadExit <;> simp [CurlHttpCli.answered, hrsp, RspPc.held]
  · cases h

theorem Conserved.setLoop {l l' : AsyncCurlHttp} (hi : Conserved s) (hl : s.loops[i]? = some l)
    (hheld : ∀ r, l'.held r = l.held r) (hstale : ∀ r, l'.stale r = l.stale r) :
    Conserved (s.setLoop i l') := by
  have hsame : ∀ r, (s.setLoop i l').stale r = s.stale r := by
    intro r
    have := stale_setLoop hl l' r
    have := hstale r
    omega
  refine ⟨fun r => ?_, fun r => ?_, hi.num⟩
  · have hloop := held_setLoop hl l' r
    have hr := hi.held r
    have := hheld r
    rw [hsame]
    show _ = pushed s.calls r + _
    omega
  · rw [hsame]
    exact hi.stale r

theorem Conserved.wakeStep (hi : Conserved s) (h : wakeStep s = some s') : Conserved s' := by
  rcases wakeStep_cases h with ⟨wake, rfl⟩ | ⟨i, l, hl, rfl⟩
  · exact ⟨hi.held, hi.stale, hi.num⟩
  · have hs : Conserved (s.setLoop i l.wakeup) := hi.setLoop hl (fun _ => rfl) fun _ => rfl
    exact ⟨hs.held, hs.stale, hs.num⟩

theorem Conserved.exitStep (hi : Conserved s) (h : exitStep s = some s') : Conserved s' := by
  rcases exitStep_cases h with ⟨isExit, threadExit, rspExit, exit, rfl⟩ | ⟨i, l, hl, rfl⟩
  · exact ⟨hi.held, hi.stale, hi.num⟩
  · have hs : Conserved (s.setLoop i l.asyncCurlExit) := hi.setLoop hl (fun _ => rfl) fun _ => rfl
    exact ⟨hs.held, hs.stale, hs.num⟩

/-- Every step keeps the invariant. -/
theorem Conserved.move (hi : Conserved s) {a : CurlAct} (h : s.nextMove cfg a = some s') :
    Conserved s' := by
  cases a with
  | call i =>
    simp only [CurlHttpCli.nextMove, CurlHttpCli.next] at h
    split at h
    · cases h
    · rename_i c hc
      exact hi.callStep hc h
  | loop i e => exact hi.moveStep h
  | rsp => exact hi.rspStep h
  | wake => exact hi.wakeStep h
  | exit => exact hi.exitStep h

/-- Every whole turn keeps it too. -/
theorem Conserved.next (hi : Conserved s) {a : CurlAct} (h : s.next cfg a = some s') :
    Conserved s' := by
  obtain ⟨as, hrun⟩ := next_move 0 [] h
  exact Sys.run_inv (S := moveSystem cfg 0 []) (fun _ _ _ hi hs => hi.move hs) hi as hrun

theorem pushed_called (reqs : List HttpReqSession) (r : Nat) :
    pushed (reqs.map fun req => ⟨req, .called, none⟩) r = 0 := by
  unfold pushed
  rw [List.getElem?_map]
  cases reqs[r]? <;> rfl

theorem init_conserved (cfg : Config) (ioThreadNum : Nat) (reqs : List HttpReqSession) :
    Conserved (curlSystem cfg ioThreadNum reqs).init where
  held r := by
    have hheld : AsyncCurlHttp.ready.held r = 0 := rfl
    have hstale : AsyncCurlHttp.ready.stale r = 0 := rfl
    simp [curlSystem, CurlHttpCli.held, CurlHttpCli.stale, CurlHttpCli.answered, answers,
      RspPc.held, hheld, hstale, pushed_called]
  stale r := by
    have hstale : AsyncCurlHttp.ready.stale r = 0 := rfl
    simp [curlSystem, CurlHttpCli.stale, hstale]
  num := by
    have hcounted : counted (reqs.map fun req => (⟨req, .called, none⟩ : Call)) = 0 := by
      simp [counted, CallPc.phase, Phase.counted, Function.comp_def]
    simp [curlSystem, RspPc.calling, hcounted]

theorem reach_conserved {ioThreadNum : Nat} {reqs : List HttpReqSession}
    (h : (moveSystem cfg ioThreadNum reqs).Reach s) : Conserved s :=
  Sys.Reach.inv (S := moveSystem cfg ioThreadNum reqs) (init_conserved cfg ioThreadNum reqs)
    (fun _ _ _ hi hs => hi.move hs) h

/-! ## From the numbers to the places -/

/-- How often the request is at a place of the response thread that no longer counts. -/
def CurlHttpCli.past (s : CurlHttpCli) (r : Nat) : Nat :=
  ind (s.rsp = .callBack r) + (s.calledBack.map fun req => ind (req = r)).sum

theorem countP_mark (here : Prop) [Decidable here] (p : Place) (q : Place → Bool) :
    (mark here p).countP q = if q p then ind here else 0 := by
  unfold mark ind
  by_cases h : here <;> simp [h]

theorem AsyncCurlHttp.length_places (l : AsyncCurlHttp) (loop r : Nat) :
    (l.places loop r).length = l.held r := by
  have hconns : (l.conns.zipIdx.map fun c => ind (c.1.reqInfo = some r)) =
      l.conns.map fun c => ind (c.reqInfo = some r) := by
    conv_rhs => rw [← List.zipIdx_map_fst 0 l.conns, List.map_map]
    rfl
  have hpc : (l.pc.places loop r).length = l.pc.held r := by
    cases l.pc <;> simp [IoPc.places, IoPc.held]
  simp [AsyncCurlHttp.places, AsyncCurlHttp.held, List.length_flatMap, hconns, hpc,
    Nat.add_assoc]

/-- A sum over the entries of a list in which only entry `i` counts. -/
theorem sum_zipIdx {α : Type} (f : α → Nat) (l : List α) (i n : Nat) :
    ((l.zipIdx n).map fun c => if n + i = c.2 then f c.1 else 0).sum = (l[i]?.map f).getD 0 := by
  induction l generalizing i n with
  | nil => rfl
  | cons x l ih =>
    cases i with
    | zero =>
      have hrest : ((l.zipIdx (n + 1)).map fun c => if n = c.2 then f c.1 else 0).sum = 0 := by
        apply List.sum_eq_zero
        intro k hk
        obtain ⟨c, hc, rfl⟩ := List.mem_map.mp hk
        have := List.le_snd_of_mem_zipIdx hc
        exact if_neg (by omega)
      simp [List.zipIdx_cons, hrest]
    | succ i =>
      have hne : n + (i + 1) ≠ n := by omega
      have ih := ih i (n + 1)
      rw [Nat.add_right_comm] at ih
      simpa [List.zipIdx_cons, hne, Nat.add_assoc] using ih

theorem AsyncCurlHttp.countP_stale (l : AsyncCurlHttp) (loop r : Nat) :
    (l.places loop r).countP Place.isStale = l.stale r := by
  have hqueue : (l.queue.flatMap fun req => mark (req = r) (.queued loop)).countP
      Place.isStale = 0 := by
    simp [List.countP_flatMap, Function.comp_def, countP_mark, Place.isStale]
  have hpc : (l.pc.places loop r).countP Place.isStale = 0 := by
    cases l.pc <;> simp [IoPc.places, countP_mark, Place.isStale]
  have hconn : ∀ c : ConnInfo × Nat, (mark (c.1.reqInfo = some r)
      (if l.pc.finished = some c.2 then Place.stale loop c.2 else .bound loop c.2)).countP
      Place.isStale = if l.pc.finished = some c.2 then ind (c.1.reqInfo = some r) else 0 := by
    intro c
    rw [countP_mark]
    by_cases h : l.pc.finished = some c.2 <;> simp [h, Place.isStale]
  have hconns : (l.conns.zipIdx.map fun c =>
      if l.pc.finished = some c.2 then ind (c.1.reqInfo = some r) else 0).sum = l.stale r := by
    cases hf : l.pc.finished with
    | none => simp [AsyncCurlHttp.stale, hf]
    | some i =>
      have hsum := sum_zipIdx (fun c : ConnInfo => ind (c.reqInfo = some r)) l.conns i 0
      simp only [Nat.zero_add] at hsum
      simp only [Option.some.injEq, hsum, AsyncCurlHttp.stale, hf]
      cases l.conns[i]? <;> rfl
  unfold AsyncCurlHttp.places
  rw [List.countP_append, List.countP_append, hqueue, hpc, List.countP_flatMap]
  simp only [Function.comp_def, hconn, hconns, Nat.zero_add]

/-- A request that is in a loop has not been answered, or a connection still points to it. -/
theorem AsyncCurlHttp.isCounted_places {l : AsyncCurlHttp} {loop r : Nat} {p : Place}
    (h : p ∈ l.places loop r) : p.isCounted = true ∨ p.isStale = true := by
  simp only [AsyncCurlHttp.places, List.mem_append, List.mem_flatMap, mark] at h
  rcases h with (⟨req, -, h⟩ | h) | ⟨c, -, h⟩
  · split at h <;> simp at h
    rw [h]
    exact .inl rfl
  · cases hpc : l.pc <;> simp [hpc, IoPc.places, mark] at h
    rw [h.2]
    exact .inl rfl
  · split at h
    · rw [List.mem_singleton] at h
      rw [h]
      split
      · exact .inr rfl
      · exact .inl rfl
    · cases h

/-- 1 if the call has the request in its hands. -/
def handAt (calls : List Call) (r : Nat) : Nat :=
  match calls[r]? with
  | none => 0
  | some c => ind (c.pc.phase = .hand)

/-- Where the request is before it is answered. -/
def CurlHttpCli.front (s : CurlHttpCli) (r : Nat) : List Place :=
  (s.calls[r]?.toList.flatMap Call.places) ++ s.loops.zipIdx.flatMap fun l => l.1.places l.2 r

theorem length_behind (s : CurlHttpCli) (r : Nat) : (s.behind r).length = s.answered r := by
  have hrsp : (s.rsp.places r).length = s.rsp.held r := by
    cases s.rsp <;> simp [RspPc.places, RspPc.held]
  simp only [CurlHttpCli.behind, List.length_append, hrsp, List.length_flatMap, length_mark,
    CurlHttpCli.answered, answers]

theorem isAnswered_behind {p : Place} {r : Nat} (h : p ∈ s.behind r) : p.isAnswered = true := by
  simp only [CurlHttpCli.behind, List.mem_append, List.mem_flatMap, mark] at h
  rcases h with (⟨req, -, h⟩ | h) | ⟨req, -, h⟩
  · split at h <;> simp at h
    rw [h]
    rfl
  · cases hrsp : s.rsp <;> simp [hrsp, RspPc.places, mark] at h
    · rw [h.2]
      rfl
    · rw [h.2]
      rfl
  · split at h <;> simp at h
    rw [h]
    rfl

theorem length_places (s : CurlHttpCli) (r : Nat) :
    (s.places r).length = handAt s.calls r + s.held r := by
  have hloops : (s.loops.zipIdx.map fun l => (l.1.places l.2 r).length) =
      s.loops.map fun l => l.held r := by
    conv_rhs => rw [← List.zipIdx_map_fst 0 s.loops, List.map_map]
    exact List.map_congr_left fun l _ => l.1.length_places l.2 r
  have hcalls : (s.calls[r]?.toList.flatMap Call.places).length = handAt s.calls r := by
    unfold handAt
    cases s.calls[r]? <;> simp [Call.places]
  simp only [CurlHttpCli.places, List.length_append, hcalls, length_behind, List.length_flatMap,
    hloops, CurlHttpCli.held]
  omega

theorem countP_stale_front (s : CurlHttpCli) (r : Nat) :
    (s.front r).countP Place.isStale = s.stale r := by
  have hcalls : (s.calls[r]?.toList.flatMap Call.places).countP Place.isStale = 0 := by
    cases s.calls[r]? <;> simp [Call.places, countP_mark, Place.isStale]
  have hloops : (s.loops.zipIdx.map fun l => (l.1.places l.2 r).countP Place.isStale) =
      s.loops.map fun l => l.stale r := by
    conv_rhs => rw [← List.zipIdx_map_fst 0 s.loops, List.map_map]
    exact List.map_congr_left fun l _ => l.1.countP_stale l.2 r
  rw [CurlHttpCli.front, List.countP_append, hcalls, List.countP_flatMap, Function.comp_def, hloops,
    CurlHttpCli.stale, Nat.zero_add]

theorem countP_stale (s : CurlHttpCli) (r : Nat) :
    (s.places r).countP Place.isStale = s.stale r := by
  have hbehind : (s.behind r).countP Place.isStale = 0 := by
    rw [List.countP_eq_zero]
    intro p hp
    have := isAnswered_behind hp
    cases p <;> simp_all [Place.isStale, Place.isAnswered]
  have hfront := countP_stale_front s r
  rw [CurlHttpCli.front] at hfront
  rw [CurlHttpCli.places, List.countP_append, hfront, hbehind, Nat.add_zero]

/-- The response thread has counted down a request that is there. -/
def Place.isPast : Place → Bool
  | .calling | .calledBack => true
  | .call | .queued _ | .dealt _ | .bound _ _ | .stale _ _ | .responded | .taken => false

theorem countP_past (s : CurlHttpCli) (r : Nat) :
    (s.places r).countP Place.isPast = s.past r := by
  have hcalls : (s.calls[r]?.toList.flatMap Call.places).countP Place.isPast = 0 := by
    cases s.calls[r]? <;> simp [Call.places, countP_mark, Place.isPast]
  have hloops : (s.loops.zipIdx.flatMap fun l => l.1.places l.2 r).countP Place.isPast = 0 := by
    rw [List.countP_eq_zero]
    intro p hp
    obtain ⟨l, -, hp⟩ := List.mem_flatMap.mp hp
    have := AsyncCurlHttp.isCounted_places hp
    cases p <;> simp_all [Place.isCounted, Place.isStale, Place.isPast]
  have hrsp : (s.rsp.places r).countP Place.isPast = ind (s.rsp = .callBack r) := by
    cases s.rsp <;> simp [RspPc.places, countP_mark, Place.isPast, ind]
  have hresponses : (s.responses.flatMap fun req => mark (req = some r) .responded).countP
      Place.isPast = 0 := by
    simp [List.countP_flatMap, Function.comp_def, countP_mark, Place.isPast]
  have hback : (s.calledBack.flatMap fun req => mark (req = r) .calledBack).countP
      Place.isPast = (s.calledBack.map fun req => ind (req = r)).sum := by
    simp [List.countP_flatMap, Function.comp_def, countP_mark, Place.isPast]
  unfold CurlHttpCli.places CurlHttpCli.behind CurlHttpCli.past
  rw [List.countP_append, List.countP_append, List.countP_append, List.countP_append, hcalls,
    hloops, hresponses, hrsp, hback]
  omega

/-- Every place counts, is past counting, or is stale. -/
theorem length_eq_countP (places : List Place) :
    places.length =
      places.countP Place.isCounted + places.countP Place.isPast + places.countP Place.isStale := by
  induction places with
  | nil => rfl
  | cons p places ih =>
    rw [List.length_cons, List.countP_cons, List.countP_cons, List.countP_cons, ih]
    cases p <;> simp only [Place.isCounted, Place.isPast, Place.isStale, if_true, if_false,
      Bool.false_eq_true] <;> omega

/-- A counted request is at one place that is not stale, and another one at none. -/
theorem Conserved.length_places (hi : Conserved s) (r : Nat) :
    (s.places r).length = countedAt s.calls r + s.stale r := by
  rw [CurlHttp.length_places, hi.held]
  unfold handAt pushed countedAt
  cases s.calls[r]? with
  | none => simp
  | some c =>
    cases h : c.pc.phase <;> simp [h, ind, Phase.pushed, Phase.counted]

/-- What is stale is in front, and what has been answered is behind. -/
theorem Conserved.length_front (hi : Conserved s) (r : Nat) :
    (s.front r).length + s.answered r = countedAt s.calls r + s.stale r ∧
      s.stale r ≤ (s.front r).length := by
  have hlen := hi.length_places r
  have hsplit : (s.places r).length = (s.front r).length + (s.behind r).length :=
    List.length_append
  have hle : (s.front r).countP Place.isStale ≤ (s.front r).length := List.countP_le_length
  rw [length_behind] at hsplit
  rw [countP_stale_front] at hle
  exact ⟨by omega, hle⟩

theorem sum_map_countedAt (calls : List Call) :
    ((List.range calls.length).map fun r => countedAt calls r).sum = counted calls := by
  have h : (List.range calls.length).map (fun r => calls[r]?) = calls.map some := by
    apply List.ext_getElem (by simp)
    intro i h1 h2
    simp
  have hg := congrArg (List.map fun c : Option Call => c.elim 0 fun c => c.pc.phase.counted) h
  rw [List.map_map, List.map_map] at hg
  have heq : (fun r => countedAt calls r) =
      (fun c : Option Call => c.elim 0 fun c => c.pc.phase.counted) ∘ fun r => calls[r]? := by
    funext r
    simp only [countedAt, Function.comp_apply]
    cases calls[r]? <;> rfl
  rw [heq, hg]
  rfl

theorem sum_range_ind (req n : Nat) :
    ((List.range n).map fun r => ind (req = r)).sum = ind (req < n) := by
  induction n with
  | zero => rfl
  | succ n ih =>
    rw [List.range_succ, List.map_append, List.sum_append, ih]
    simp only [ind, List.map_cons, List.map_nil, List.sum_cons, List.sum_nil]
    split <;> split <;> split <;> omega

theorem sum_range_back {back : List Nat} {n : Nat} (h : ∀ req ∈ back, req < n) :
    ((List.range n).map fun r => (back.map fun req => ind (req = r)).sum).sum = back.length := by
  induction back with
  | nil => simp
  | cons req back ih =>
    have hreq : ind (req < n) = 1 := if_pos (h req (.head _))
    have ih := ih fun x hx => h x (.tail _ hx)
    simp only [List.map_cons, List.sum_cons, List.sum_map_add, sum_range_ind, hreq, ih,
      List.length_cons]
    omega

/-- Only requests of calls are anywhere. -/
theorem Conserved.lt_of_answered (hi : Conserved s) {r : Nat} (h : 0 < s.answered r) :
    r < s.calls.length := by
  by_contra hlt
  obtain ⟨hsum, hle⟩ := hi.length_front r
  have hnone : countedAt s.calls r = 0 := by
    rw [countedAt, List.getElem?_eq_none (by omega)]
  omega

theorem sum_past (hi : Conserved s) :
    ((List.range s.calls.length).map s.past).sum = s.rsp.calling + s.calledBack.length := by
  have hback : ∀ req ∈ s.calledBack, req < s.calls.length := by
    intro req hreq
    apply hi.lt_of_answered
    have hle : ind (req = req) ≤ (s.calledBack.map fun x => ind (x = req)).sum :=
      List.single_le_sum (by simp) _ (List.mem_map.mpr ⟨req, hreq, rfl⟩)
    have hone : ind (req = req) = 1 := if_pos rfl
    unfold CurlHttpCli.answered
    omega
  have hrsp : ((List.range s.calls.length).map fun r => ind (s.rsp = .callBack r)).sum =
      s.rsp.calling := by
    cases hr : s.rsp with
    | callBack req =>
      have hlt : req < s.calls.length := by
        apply hi.lt_of_answered
        have hone : s.rsp.held req = 1 := by
          rw [hr]
          exact if_pos rfl
        unfold CurlHttpCli.answered
        omega
      have hsum := sum_range_ind req s.calls.length
      simp only [RspPc.callBack.injEq]
      rw [hsum]
      exact if_pos hlt
    | deal | count req | check | ended => simp [ind, RspPc.calling]
  have hpast : s.past = fun r =>
      ind (s.rsp = .callBack r) + (s.calledBack.map fun req => ind (req = r)).sum := rfl
  rw [hpast, List.sum_map_add, hrsp, sum_range_back hback]

/-- A list has at most one element with `q`. -/
theorem ind_any {α : Type} {l : List α} {q : α → Bool} (h : l.countP q ≤ 1) :
    (if l.any q then 1 else 0) = l.countP q := by
  by_cases hany : l.any q
  · have hpos : 0 < l.countP q := by
      obtain ⟨x, hx, hq⟩ := List.any_eq_true.mp hany
      exact List.countP_pos_iff.mpr ⟨x, hx, hq⟩
    rw [if_pos hany]
    omega
  · have hzero : l.countP q = 0 := by
      rw [List.countP_eq_zero]
      intro x hx hq
      exact hany (List.any_eq_true.mpr ⟨x, hx, hq⟩)
    rw [if_neg hany, hzero]

theorem isCounted_iff (r : Nat) : s.isCounted r ↔ countedAt s.calls r = 1 := by
  unfold CurlHttpCli.isCounted countedAt
  cases s.calls[r]? with
  | none => simp
  | some c => cases h : c.pc.phase <;> simp [h, Phase.counted]

theorem countedAt_le (calls : List Call) (r : Nat) : countedAt calls r ≤ 1 := by
  unfold countedAt
  cases calls[r]? with
  | none => simp
  | some c => cases h : c.pc.phase <;> simp [h, Phase.counted]

theorem Conserved.onePlace (hi : Conserved s) {r : Nat} (hr : s.isCounted r) : s.OnePlace r := by
  have hone := (isCounted_iff r).mp hr
  have hlen := hi.length_places r
  have hbehind := length_behind s r
  obtain ⟨hsum, hle⟩ := hi.length_front r
  have hanswered := hi.stale r
  rcases Nat.eq_zero_or_pos (s.stale r) with h0 | hpos
  · -- no connection is left to point to it
    obtain ⟨p, hp⟩ := List.length_eq_one_iff.mp (by omega : (s.places r).length = 1)
    have hstale := countP_stale s r
    rw [hp, h0] at hstale
    exact ⟨p, by simpa using hstale, .inl hp⟩
  · obtain ⟨q, hq⟩ := List.length_eq_one_iff.mp (by omega : (s.front r).length = 1)
    obtain ⟨p, hp⟩ := List.length_eq_one_iff.mp (by omega : (s.behind r).length = 1)
    have hplaces : s.places r = s.front r ++ s.behind r := rfl
    have hans : p.isAnswered = true := isAnswered_behind (s := s) (r := r) (by simp [hp])
    have hqstale : q.isStale = true := by
      have hfront := countP_stale_front s r
      rw [hq] at hfront
      by_contra hnot
      rw [List.countP_singleton, if_neg hnot] at hfront
      omega
    cases q with
    | stale loop conn =>
      refine ⟨p, ?_, .inr ⟨loop, conn, by rw [hplaces, hq, hp]; rfl, hans⟩⟩
      cases p <;> first | rfl | cases hans
    | call | queued _ | dealt _ | bound _ _ | responded | taken | calling | calledBack =>
      cases hqstale

theorem Conserved.accounted (hi : Conserved s) : Accounted s := by
  suffices h : s.asyncNum =
      ((List.range s.calls.length).countP fun r => (s.places r).any Place.isCounted : Nat) by
    refine ⟨fun r hr => hi.onePlace hr, fun r hr => ?_, h, by omega⟩
    have hlen := hi.length_places r
    have hle := countedAt_le s.calls r
    have hne := (isCounted_iff r).not.mp hr
    have hanswered := hi.stale r
    obtain ⟨hsum, hstale⟩ := hi.length_front r
    exact List.length_eq_zero_iff.mp (by omega)
  have hsplit : ∀ r, (if (s.places r).any Place.isCounted then 1 else 0) + s.past r =
      countedAt s.calls r := by
    intro r
    have hlen := hi.length_places r
    have hle := countedAt_le s.calls r
    have hparts := length_eq_countP (s.places r)
    rw [countP_past, countP_stale] at hparts
    rw [ind_any (by omega)]
    omega
  have hsum : ((List.range s.calls.length).map fun r =>
      (if (s.places r).any Place.isCounted then 1 else 0) + s.past r).sum = counted s.calls := by
    rw [← sum_map_countedAt]
    exact congrArg List.sum (List.map_congr_left fun r _ => hsplit r)
  rw [List.sum_map_add, sum_past hi] at hsum
  have hcount := sum_map_ite (fun r => (s.places r).any Place.isCounted)
    (List.range s.calls.length)
  have hnum := hi.num
  omega

/-- In every run. -/
theorem requests_accounted {ioThreadNum : Nat} {reqs : List HttpReqSession}
    (h : (moveSystem cfg ioThreadNum reqs).Reach s) : Accounted s :=
  (reach_conserved h).accounted

end

/-! ## Between whole turns -/

section

variable {cfg : Config} {s s' : CurlHttpCli}

theorem AsyncCurlHttp.Steps.isHead {reqs : Nat → Option HttpReqSession} {l : AsyncCurlHttp}
    {e : LoopEvent} {f : LoopEffect} (h : l.Steps reqs e f) : f.loop.pc.isHead = true := by
  cases h with
  | read | socket | noMsg | spent | empty | respond | bind | out | skip | swept => rfl
  | done i c url hpc _ _ => exact isHead_of_eq hpc rfl
  | leave _ _ _ pc _ hor => rcases hor with rfl | rfl <;> rfl

/-- No loop is inside a turn. -/
def Heads (loops : List AsyncCurlHttp) : Prop := ∀ l ∈ loops, l.pc.isHead = true

theorem Heads.set {loops : List AsyncCurlHttp} (hi : Heads loops) {i : Nat} {l : AsyncCurlHttp}
    (hl : l.pc.isHead = true) : Heads (loops.set i l) := by
  intro l' hl'
  rcases List.mem_or_eq_of_mem_set hl' with h | rfl
  · exact hi l' h
  · exact hl

/-- A loop that stays where it is. -/
theorem Heads.set_same {loops : List AsyncCurlHttp} (hi : Heads loops) {i : Nat}
    {l : AsyncCurlHttp} (l' : AsyncCurlHttp) (hl : loops[i]? = some l) (hpc : l'.pc = l.pc) :
    Heads (loops.set i l') :=
  hi.set (AsyncCurlHttp.isHead_of_eq hpc (hi l (List.mem_of_getElem? hl)))

theorem Heads.next (hi : Heads s.loops) {a : CurlAct} (h : s.next cfg a = some s') :
    Heads s'.loops := by
  cases a with
  | call i =>
    simp only [CurlHttpCli.next] at h
    split at h
    · cases h
    · cases callStep_effect h with
      | move | asyncReq | refuse => exact hi
      | push index l _ hl _ => exact hi.set_same (l.push i) hl rfl
      | wakeup index l _ hl => exact hi.set_same (l.wakeup) hl rfl
  | loop i e =>
    simp only [CurlHttpCli.next, loopStep] at h
    split at h
    · cases h
    · obtain ⟨f, hf, rfl⟩ := Option.map_eq_some_iff.mp h
      exact hi.set (AsyncCurlHttp.step_steps hf).isHead
  | rsp =>
    obtain ⟨_, _, _, _, rfl⟩ := rspStep_cases h
    exact hi
  | wake =>
    rcases wakeStep_cases h with ⟨_, rfl⟩ | ⟨i, l, hl, rfl⟩
    · exact hi
    · exact hi.set_same (l.wakeup) hl rfl
  | exit =>
    rcases exitStep_cases h with ⟨_, _, _, _, rfl⟩ | ⟨i, l, hl, rfl⟩
    · exact hi
    · exact hi.set_same (l.asyncCurlExit) hl rfl

theorem init_heads (cfg : Config) (ioThreadNum : Nat) (reqs : List HttpReqSession) :
    Heads (curlSystem cfg ioThreadNum reqs).init.loops := by
  intro l hl
  rw [List.eq_of_mem_replicate hl]
  rfl

end

/-! ## More places than four -/

/-- A request that `curlHttpRequest` has returned 0 for is in a request queue, bound, in the response
queue, or called back, and nowhere else. -/
def InFourPlaces (s : CurlHttpCli) : Prop :=
  ∀ r c, s.calls[r]? = some c → c.pc.phase = .sent → ∃ p, s.places r = [p] ∧
    ((∃ loop, p = .queued loop) ∨ (∃ loop conn, p = .bound loop conn) ∨ p = .responded ∨
      p = .calledBack)

/-- The response thread has taken the request of call `r`. -/
def CurlHttpCli.isTaken (s : CurlHttpCli) (r : Nat) : Bool :=
  (s.places r).any fun p => p = .taken ∨ p = .calling ∨ p = .calledBack

/-- The call has counted its request, and not returned. -/
def Phase.isInside : Phase → Bool
  | .hand | .between _ => true
  | .out | .sent => false

/-- The count is the number of requests for which `curlHttpRequest` has returned 0 and that the
response thread has not taken, and of those inside `curlHttpRequest`. -/
def CountsInside (s : CurlHttpCli) : Prop :=
  s.asyncNum = ((List.range s.calls.length).countP fun r => s.calls[r]?.any fun c =>
    (c.pc.phase = .sent ∧ ¬ s.isTaken r) ∨ c.pc.phase.isInside : Nat)

instance (s : CurlHttpCli) : Decidable (CountsInside s) := inferInstanceAs (Decidable (_ = _))

def plainConfig : Config := ⟨0, fun _ => 0⟩

def plainRequest : HttpReqSession := ⟨[104], 1, true⟩

/-- A call up to where it wakes the loop. -/
def pushRun : List CurlAct := List.replicate 7 (.call 0)

/-- The call returns, and the loop takes the request out of its queue. -/
def dealtRun : List CurlAct :=
  List.flatten [pushRun, [.call 0, .loop 0 .read, .loop 0 (.turn .newError 1)]]

/-- The wakeup of every second comes before that of the call, the connection cannot be built, and the
response thread counts the request down. -/
def insideRun : List CurlAct :=
  List.flatten [pushRun, [.wake, .wake, .loop 0 .read, .loop 0 (.turn .newError 1)],
    [.loop 0 (.turn .newError 1), .rsp, .rsp]]

/-- One loop, and one call. -/
def plainSystem : Sys CurlHttpCli CurlAct := curlSystem plainConfig 1 [plainRequest]

/-- The same, with another thread between any two steps of a turn. -/
def plainMoves : Sys CurlHttpCli CurlAct := moveSystem plainConfig 1 [plainRequest]

/-- Neither holds in every state: a loop has a request that it has taken and neither bound nor
answered, and a request that is still inside `curlHttpRequest` may have been taken by the response
thread. -/
theorem dealt_is_nowhere :
    (¬ ∀ cfg ioThreadNum reqs s, (moveSystem cfg ioThreadNum reqs).Reach s → InFourPlaces s) ∧
    ¬ ∀ cfg ioThreadNum reqs s, (moveSystem cfg ioThreadNum reqs).Reach s → CountsInside s := by
  constructor
  · intro h
    have hmap : (plainMoves.run plainMoves.init dealtRun).map
        (fun s => (s.calls[0]?.map (·.pc.phase), s.places 0)) = some (some .sent, [.dealt 0]) := by
      decide +kernel
    obtain ⟨s, hrun, heq⟩ := Option.map_eq_some_iff.mp hmap
    obtain ⟨hcall, hplaces⟩ := Prod.mk.inj heq
    obtain ⟨c, hc, hsent⟩ := Option.map_eq_some_iff.mp hcall
    obtain ⟨p, hp, hfour⟩ := h _ _ _ s (Sys.Reach.init.run _ hrun) 0 c hc hsent
    rw [hplaces] at hp
    cases hp
    rcases hfour with ⟨_, hp⟩ | ⟨_, _, hp⟩ | hp | hp <;> cases hp
  · intro h
    have hmap : (plainMoves.run plainMoves.init insideRun).map
        (fun s => decide (CountsInside s)) = some false := by decide +kernel
    obtain ⟨s, hrun, hnot⟩ := Option.map_eq_some_iff.mp hmap
    exact of_decide_eq_false hnot (h _ _ _ s (Sys.Reach.init.run _ hrun))

/-- A request whose handle libcurl does not take is answered when its time is up, before
`connInfoReinit`. -/
def sweptRun : List CurlAct :=
  List.flatten [pushRun, [.call 0, .loop 0 .read, .loop 0 (.turn (.ok false) 100)],
    [.loop 0 (.turn (.ok false) 100), .loop 0 (.turn .newError 100), .loop 0 .forEach],
    [.loop 0 .forEach, .loop 0 (.leave 0), .wake, .wake, .loop 0 .read],
    [.loop 0 (.turn .newError 300), .loop 0 .forEach]]

theorem requests_accounted_swept : ∃ s, plainMoves.run plainMoves.init sweptRun = some s ∧
    (s.places 0, s.asyncNum) = ([.stale 0 0, .responded], 1) ∧ Accounted s := by
  have hmap : (plainMoves.run plainMoves.init sweptRun).map (fun s => (s.places 0, s.asyncNum)) =
      some ([.stale 0 0, .responded], 1) := by decide +kernel
  obtain ⟨s, hrun, heq⟩ := Option.map_eq_some_iff.mp hmap
  exact ⟨s, hrun, heq, requests_accounted (Sys.Reach.init.run _ hrun)⟩

end CurlHttp
end CmakeFrame
