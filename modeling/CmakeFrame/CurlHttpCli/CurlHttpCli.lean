import CmakeFrame.CurlHttpCli.AsyncCurlHttp
import CmakeFrame.Lib.Sys
import CmakeFrame.Lib.Threads

/-!
# `curlHttpCli/src/CurlHttpCli.cpp`: all threads

Any number of calls of `curlHttpRequest`, the IO loops, the response thread, the thread that wakes the
loops every second, and one call of `curlHttpCliExit`. `curlHttpCliInit` has returned, and every loop
is ready. There are two systems of the same threads. In `moveSystem` a step of any thread is what it
does between two points where another thread can come in. In `curlSystem` an IO loop makes one turn of
its code at a time: the processing of a request, a completion and a swept connection are one step
each, and the other threads come in between them.

* `CallPc`, `RspPc`, `WakePc`, `ExitPc`: where each thread is.
* `callStep`, `loopStep`, `rspStep`, `wakeStep`, `exitStep`: their steps.
* `curlSystem`, `moveSystem`: the systems; `reach_move`: what the first one reaches, the second one
  does.
* `Phase`, `CallEffect`, `rspStep_cases`, `wakeStep_cases`, `exitStep_cases`: what a step can do.
-/

namespace CmakeFrame
namespace CurlHttp

open Lib

/-- `maxQueue_`, and the memory that the queue of each URL is built in. -/
structure Config where
  maxQueue : Nat
  garbage : Bytes → Nat

/-- Where a call of `curlHttpRequest` is. -/
inductive CallPc where
  /-- Before it looks at `isExit`. -/
  | called
  /-- In the loop that waits until all IO threads are ready. -/
  | waiting
  /-- Behind `asyncReq()`, before `connInfoFromUrl` looks for the URL. -/
  | find
  /-- Before `httpcliConnPop`. -/
  | pop
  /-- Before `addUrlConnInfo` looks for the URL. -/
  | add
  /-- Before it puts a queue into the map. -/
  | insert
  /-- Before `lastIndex++`. -/
  | pick
  /-- Before `curlhttpRequest` of a loop. -/
  | push (index : Nat)
  /-- Before `wakeup()` of the loop. -/
  | wakeup (index : Nat)
  /-- `ret` is below 0, before `asyncRsp()`. -/
  | refuse
  | returned (ret : Int)
  deriving DecidableEq, Repr

/-- `conn` is `pConninf`. -/
structure Call where
  req : HttpReqSession
  pc : CallPc
  conn : Option ConnId
  deriving DecidableEq, Repr

/-- Where the response thread is. -/
inductive RspPc where
  /-- Before or in `dealResponse`. -/
  | deal
  /-- It has taken `req`, before `asyncRsp()`. -/
  | count (req : Nat)
  /-- Before `httpRespondCallBack()`. -/
  | callBack (req : Nat)
  /-- Before it looks at `threadExit`. -/
  | check
  | ended
  deriving DecidableEq, Repr

/-- Where `httpIoWakeThread` is. -/
inductive WakePc where
  | sleep
  /-- Before `wakeup()` of loop `i`. -/
  | wakeup (i : Nat)
  | check
  | ended
  deriving DecidableEq, Repr

/-- Where `curlHttpCliExit` is. -/
inductive ExitPc where
  /-- It has not been called. -/
  | before
  /-- In the loop that looks at the count. -/
  | polling
  /-- In `join()` of the thread that wakes the loops. -/
  | joinWake
  /-- Before `asyncCurlExit()` of loop `i`. -/
  | asyncCurlExit (i : Nat)
  /-- Before `httpResponseExit()`. -/
  | rspExit
  /-- In `join()` of the response thread. -/
  | joinRsp
  /-- In the loop that looks at `exitIothread`. -/
  | waitIo
  | returned
  deriving DecidableEq, Repr

/-- `calledBack` is history. -/
structure CurlHttpCli where
  isExit : Bool
  threadExit : Bool
  rspExit : Bool
  asyncNum : Int
  lastIndex : UInt32
  calls : List Call
  loops : List AsyncCurlHttp
  urlMap : UrlMap
  responses : List (Option Nat)
  calledBack : List Nat
  rsp : RspPc
  wake : WakePc
  exit : ExitPc

/-- What a pointer to a request points to: the request of a call. -/
def CurlHttpCli.reqs (s : CurlHttpCli) (req : Nat) : Option HttpReqSession :=
  s.calls[req]?.map (·.req)

/-- `readyIothread == ioThreadNum`, and there are IO threads. -/
def CurlHttpCli.allReady (s : CurlHttpCli) : Bool :=
  s.loops ≠ [] ∧ ∀ l ∈ s.loops, l.pc ≠ .ended

/-- `isFull()` of the queue of a loop. -/
def Config.isFull (cfg : Config) (l : AsyncCurlHttp) : Bool :=
  0 < cfg.maxQueue ∧ cfg.maxQueue ≤ l.queue.length

/-- Call `i` goes on with `c`. -/
def CurlHttpCli.setCall (s : CurlHttpCli) (i : Nat) (c : Call) : CurlHttpCli :=
  { s with calls := s.calls.set i c }

def CurlHttpCli.setLoop (s : CurlHttpCli) (i : Nat) (l : AsyncCurlHttp) : CurlHttpCli :=
  { s with loops := s.loops.set i l }

/-- `wakeup()` -/
def AsyncCurlHttp.wakeup (l : AsyncCurlHttp) : AsyncCurlHttp :=
  { l with counter := l.counter + 2 }

/-- `asyncCurlExit()` -/
def AsyncCurlHttp.asyncCurlExit (l : AsyncCurlHttp) : AsyncCurlHttp :=
  { l with counter := l.counter + 1 }

/-- `httpRequest(req)` -/
def AsyncCurlHttp.push (l : AsyncCurlHttp) (req : Nat) : AsyncCurlHttp :=
  { l with queue := l.queue ++ [req], pushed := l.pushed ++ [req] }

/-- The next step of call `i`, which is at `c`. -/
def callStep (cfg : Config) (s : CurlHttpCli) (i : Nat) (c : Call) : Option CurlHttpCli :=
  match c.pc with
  | .called =>
    some (s.setCall i { c with pc := if s.isExit then .returned (-2) else .waiting })
  | .waiting =>
    if s.allReady then
      some { s.setCall i { c with pc := .find } with asyncNum := s.asyncNum + 1 }
    else none
  | .find =>
    some (s.setCall i { c with pc := if (s.urlMap c.req.httpRequestUrl).isSome then .pop else .add })
  | .pop =>
    match s.urlMap c.req.httpRequestUrl with
    | none => none
    | some q =>
      match q.httpcliConnPop with
      | .wait => none
      | .null => some (s.setCall i { c with pc := .add })
      | .conn conn q =>
        some { s.setCall i { c with pc := .push conn.ioThreadSubindex, conn := some conn } with
          urlMap := Function.update s.urlMap c.req.httpRequestUrl (some q) }
  | .add =>
    some (s.setCall i
      { c with pc := if (s.urlMap c.req.httpRequestUrl).isSome then .pick else .insert })
  | .insert =>
    some { s.setCall i { c with pc := .pick } with
      urlMap := s.urlMap.insert cfg.garbage c.req.httpRequestUrl c.req.httpUrlmaxConns }
  | .pick =>
    some { s.setCall i { c with pc := .push (s.lastIndex.toNat % s.loops.length) } with
      lastIndex := s.lastIndex + 1 }
  | .push index =>
    match s.loops[index]? with
    | none => none
    | some l =>
      -- `asyncCurlHttpPtrVect[index].reset()` is the end of `curlHttpCliExit`
      if s.exit = .returned then some (s.setCall i { c with pc := .refuse })
      else if cfg.isFull l then none
      else some ((s.setCall i { c with pc := .wakeup index }).setLoop index (l.push i))
  | .wakeup index =>
    match s.loops[index]? with
    | none => none
    | some l =>
      -- the code calls a method of a null pointer here
      if s.exit = .returned then none
      else some ((s.setCall i { c with pc := .returned 0 }).setLoop index l.wakeup)
  | .refuse =>
    some { s.setCall i { c with pc := .returned (-1) } with asyncNum := s.asyncNum - 1 }
  | .returned _ => none

/-- What a step of loop `i` does to all others. -/
def CurlHttpCli.apply (cfg : Config) (s : CurlHttpCli) (i : Nat) (e : LoopEffect) : CurlHttpCli :=
  { s.setLoop i e.loop with
    responses := s.responses ++ e.rsp.toList
    urlMap := match e.back with
      | none => s.urlMap
      | some r => s.urlMap.returnUrlConnInfo cfg.garbage i r }

def loopStep (cfg : Config) (s : CurlHttpCli) (i : Nat) (e : LoopEvent) : Option CurlHttpCli :=
  match s.loops[i]? with
  | none => none
  | some l => (l.step s.reqs e).map (s.apply cfg i)

/-- One of the steps of which a turn of loop `i` consists. -/
def moveStep (cfg : Config) (s : CurlHttpCli) (i : Nat) (e : LoopEvent) : Option CurlHttpCli :=
  match s.loops[i]? with
  | none => none
  | some l => (l.move s.reqs e).map (s.apply cfg i)

/-- `httpRspCallBackThread` -/
def rspStep (s : CurlHttpCli) : Option CurlHttpCli :=
  match s.rsp with
  | .deal =>
    match s.responses with
    | [] => if s.rspExit then some { s with rsp := .check } else none
    | none :: rest => some { s with responses := rest, rsp := .check }
    | some req :: rest => some { s with responses := rest, rsp := .count req }
  | .count req => some { s with asyncNum := s.asyncNum - 1, rsp := .callBack req }
  | .callBack req => some { s with calledBack := s.calledBack ++ [req], rsp := .check }
  | .check => some { s with rsp := if s.threadExit then .ended else .deal }
  | .ended => none

/-- `httpIoWakeThread` -/
def wakeStep (s : CurlHttpCli) : Option CurlHttpCli :=
  match s.wake with
  | .sleep => some { s with wake := .wakeup 0 }
  | .wakeup i =>
    match s.loops[i]? with
    | none => some { s with wake := .check }
    | some l => some { s.setLoop i l.wakeup with wake := .wakeup (i + 1) }
  | .check => some { s with wake := if s.threadExit then .ended else .sleep }
  | .ended => none

/-- `curlHttpCliExit` -/
def exitStep (s : CurlHttpCli) : Option CurlHttpCli :=
  match s.exit with
  | .before => some { s with isExit := true, exit := .polling }
  | .polling =>
    if s.loops = [] then none
    else if s.asyncNum ≤ 0 then some { s with threadExit := true, exit := .joinWake }
    else some s
  | .joinWake => if s.wake = .ended then some { s with exit := .asyncCurlExit 0 } else none
  | .asyncCurlExit i =>
    match s.loops[i]? with
    | none => some { s with exit := .rspExit }
    | some l => some { s.setLoop i l.asyncCurlExit with exit := .asyncCurlExit (i + 1) }
  | .rspExit => some { s with rspExit := true, exit := .joinRsp }
  | .joinRsp => if s.rsp = .ended then some { s with exit := .waitIo } else none
  | .waitIo => if ∀ l ∈ s.loops, l.pc = .ended then some { s with exit := .returned } else none
  | .returned => none

inductive CurlAct where
  | call (i : Nat)
  | loop (i : Nat) (e : LoopEvent)
  | rsp
  | wake
  | exit
  deriving DecidableEq, Repr

def CurlHttpCli.next (cfg : Config) (s : CurlHttpCli) : CurlAct → Option CurlHttpCli
  | .call i =>
    match s.calls[i]? with
    | none => none
    | some c => callStep cfg s i c
  | .loop i e => loopStep cfg s i e
  | .rsp => rspStep s
  | .wake => wakeStep s
  | .exit => exitStep s

/-- The same, but only one step of a turn of a loop. -/
def CurlHttpCli.nextMove (cfg : Config) (s : CurlHttpCli) : CurlAct → Option CurlHttpCli
  | .loop i e => moveStep cfg s i e
  | a => s.next cfg a

/-- The calls for the requests `reqs`, and `ioThreadNum` loops. -/
def curlSystem (cfg : Config) (ioThreadNum : Nat) (reqs : List HttpReqSession) :
    Sys CurlHttpCli CurlAct where
  init :=
    { isExit := false
      threadExit := false
      rspExit := false
      asyncNum := 0
      lastIndex := 0
      calls := reqs.map fun req => ⟨req, .called, none⟩
      loops := List.replicate ioThreadNum .ready
      urlMap := fun _ => none
      responses := []
      calledBack := []
      rsp := .deal
      wake := .sleep
      exit := .before }
  next := CurlHttpCli.next cfg

/-- The same, with another thread between any two steps of a turn. -/
def moveSystem (cfg : Config) (ioThreadNum : Nat) (reqs : List HttpReqSession) :
    Sys CurlHttpCli CurlAct where
  init := (curlSystem cfg ioThreadNum reqs).init
  next := CurlHttpCli.nextMove cfg

/-! ## The steps of a turn -/

section

variable {cfg : Config} {s s' : CurlHttpCli} {i : Nat} {l : AsyncCurlHttp}

theorem loops_apply (cfg : Config) (hl : s.loops[i]? = some l) (f : LoopEffect) :
    (s.apply cfg i f).loops[i]? = some f.loop := by
  have hlt : i < s.loops.length := (List.getElem?_eq_some_iff.mp hl).1
  simp [CurlHttpCli.apply, CurlHttpCli.setLoop, hlt]

/-- The two parts of an effect, one after the other. -/
theorem apply_apply (l₁ l₂ : AsyncCurlHttp) (rsp : Option (Option Nat)) (back : Option Return) :
    (s.apply cfg i ⟨l₁, rsp, none⟩).apply cfg i ⟨l₂, none, back⟩ = s.apply cfg i ⟨l₂, rsp, back⟩ := by
  simp [CurlHttpCli.apply, CurlHttpCli.setLoop]

theorem apply_quiet (l₁ : AsyncCurlHttp) (f : LoopEffect) :
    (s.apply cfg i ⟨l₁, none, none⟩).apply cfg i f = s.apply cfg i f := by
  simp [CurlHttpCli.apply, CurlHttpCli.setLoop]

theorem moveStep_apply (cfg : Config) (hl : s.loops[i]? = some l) {e : LoopEvent} {f : LoopEffect}
    (h : l.move s.reqs e = some f) : s.nextMove cfg (.loop i e) = some (s.apply cfg i f) := by
  simp only [CurlHttpCli.nextMove, moveStep, hl, h, Option.map_some]

/-- Every step of the first system is a run of the second one. -/
theorem next_move (ioThreadNum : Nat) (reqs : List HttpReqSession) {a : CurlAct}
    (h : s.next cfg a = some s') : ∃ as, (moveSystem cfg ioThreadNum reqs).run s as = some s' := by
  cases a with
  | call i => exact ⟨[.call i], by simp [Sys.run, moveSystem, CurlHttpCli.nextMove, h]⟩
  | rsp => exact ⟨[.rsp], by simp [Sys.run, moveSystem, CurlHttpCli.nextMove, h]⟩
  | wake => exact ⟨[.wake], by simp [Sys.run, moveSystem, CurlHttpCli.nextMove, h]⟩
  | exit => exact ⟨[.exit], by simp [Sys.run, moveSystem, CurlHttpCli.nextMove, h]⟩
  | loop i e =>
    simp only [CurlHttpCli.next, loopStep] at h
    split at h
    · cases h
    · rename_i l hl
      obtain ⟨f, hf, rfl⟩ := Option.map_eq_some_iff.mp h
      rcases AsyncCurlHttp.step_move hf with hone | ⟨l₁, h1, h2⟩ | ⟨l₁, l₂, h1, h2, h3⟩
      · have hstep := moveStep_apply cfg hl hone
        exact ⟨[.loop i e], by simp [Sys.run, moveSystem, hstep]⟩
      · have hl1 := loops_apply cfg hl ⟨l₁, none, none⟩
        have hstep1 := moveStep_apply cfg hl h1
        have hstep2 := moveStep_apply cfg hl1 h2
        refine ⟨[.loop i e, .loop i e], ?_⟩
        simp [Sys.run, moveSystem, hstep1, hstep2, apply_quiet]
      · have hl1 := loops_apply cfg hl ⟨l₁, f.rsp, none⟩
        have hl2 := loops_apply cfg hl1 ⟨l₂, none, none⟩
        have hstep1 := moveStep_apply cfg hl h1
        have hstep2 := moveStep_apply cfg hl1 h2
        have hstep3 := moveStep_apply cfg hl2 h3
        refine ⟨[.loop i e, .loop i .finish, .loop i .finish], ?_⟩
        simp only [Sys.run, moveSystem, hstep1, hstep2, hstep3, Option.bind_some]
        rw [apply_apply, apply_apply]

theorem reach_move {ioThreadNum : Nat} {reqs : List HttpReqSession}
    (h : (curlSystem cfg ioThreadNum reqs).Reach s) : (moveSystem cfg ioThreadNum reqs).Reach s :=
  h.of_runs (S := curlSystem cfg ioThreadNum reqs) (T := moveSystem cfg ioThreadNum reqs) rfl
    fun _ _ _ hs => next_move ioThreadNum reqs hs

end

/-! ## What a call does -/

/-- Where the request of a call is, as far as the call knows. -/
inductive Phase where
  /-- It is not counted, or no longer. -/
  | out
  /-- It is counted, and the call has it. -/
  | hand
  /-- It is in the queue of a loop that the call has still to wake. -/
  | between (index : Nat)
  | sent
  deriving DecidableEq, Repr

def CallPc.phase : CallPc → Phase
  | .called | .waiting => .out
  | .find | .pop | .add | .insert | .pick | .push _ | .refuse => .hand
  | .wakeup index => .between index
  | .returned ret => if 0 ≤ ret then .sent else .out

/-- What a step of call `i` does. -/
inductive CallEffect (cfg : Config) (s : CurlHttpCli) (i : Nat) (c : Call) : CurlHttpCli → Prop
  /-- The request stays where it is. -/
  | move (pc : CallPc) (conn : Option ConnId) (urlMap : UrlMap) (lastIndex : UInt32) :
      pc.phase = c.pc.phase →
      CallEffect cfg s i c { s.setCall i { c with pc, conn } with urlMap, lastIndex }
  | asyncReq : c.pc = .waiting → s.allReady = true →
      CallEffect cfg s i c { s.setCall i { c with pc := .find } with asyncNum := s.asyncNum + 1 }
  | push (index : Nat) (l : AsyncCurlHttp) : c.pc = .push index → s.loops[index]? = some l →
      s.exit ≠ .returned →
      CallEffect cfg s i c ((s.setCall i { c with pc := .wakeup index }).setLoop index (l.push i))
  | wakeup (index : Nat) (l : AsyncCurlHttp) : c.pc = .wakeup index → s.loops[index]? = some l →
      CallEffect cfg s i c ((s.setCall i { c with pc := .returned 0 }).setLoop index l.wakeup)
  | refuse : c.pc = .refuse →
      CallEffect cfg s i c
        { s.setCall i { c with pc := .returned (-1) } with asyncNum := s.asyncNum - 1 }

theorem callStep_effect {cfg : Config} {s s' : CurlHttpCli} {i : Nat} {c : Call}
    (h : callStep cfg s i c = some s') : CallEffect cfg s i c s' := by
  obtain ⟨req, pc, conn⟩ := c
  cases pc with
  | called =>
    cases h
    refine .move _ conn s.urlMap s.lastIndex ?_
    cases s.isExit <;> rfl
  | waiting =>
    simp only [callStep] at h
    split at h
    · rename_i hready
      cases h
      exact .asyncReq rfl hready
    · cases h
  | find =>
    cases h
    refine .move _ conn s.urlMap s.lastIndex ?_
    split <;> rfl
  | pop =>
    simp only [callStep] at h
    split at h
    · cases h
    · split at h
      · cases h
      · cases h
        exact .move .add conn s.urlMap s.lastIndex rfl
      · rename_i popped q _
        cases h
        exact .move (.push popped.ioThreadSubindex) (some popped) _ s.lastIndex rfl
  | add =>
    cases h
    refine .move _ conn s.urlMap s.lastIndex ?_
    split <;> rfl
  | insert =>
    cases h
    exact .move .pick conn _ s.lastIndex rfl
  | pick =>
    cases h
    exact .move _ conn s.urlMap _ rfl
  | push index =>
    simp only [callStep] at h
    split at h
    · cases h
    · rename_i l hl
      split at h
      · cases h
        exact .move .refuse conn s.urlMap s.lastIndex rfl
      · rename_i hexit
        split at h
        · cases h
        · cases h
          exact .push index l rfl hl hexit
  | wakeup index =>
    simp only [callStep] at h
    split at h
    · cases h
    · rename_i l hl
      split at h
      · cases h
      · cases h
        exact .wakeup index l rfl hl
  | refuse =>
    cases h
    exact .refuse rfl
  | returned ret => cases h

/-- The response thread takes, counts and calls back. -/
theorem rspStep_cases {s s' : CurlHttpCli} (h : rspStep s = some s') :
    ∃ asyncNum responses calledBack rsp,
      s' = { s with asyncNum, responses, calledBack, rsp } := by
  unfold rspStep at h
  split at h
  · split at h
    · split at h <;> cases h
      exact ⟨_, _, _, _, rfl⟩
    · cases h
      exact ⟨_, _, _, _, rfl⟩
    · cases h
      exact ⟨_, _, _, _, rfl⟩
  · cases h
    exact ⟨_, _, _, _, rfl⟩
  · cases h
    exact ⟨_, _, _, _, rfl⟩
  · cases h
    exact ⟨_, _, _, _, rfl⟩
  · cases h

/-- The thread that wakes the loops touches nothing else. -/
theorem wakeStep_cases {s s' : CurlHttpCli} (h : wakeStep s = some s') :
    (∃ wake, s' = { s with wake }) ∨
    ∃ i l, s.loops[i]? = some l ∧ s' = { s.setLoop i l.wakeup with wake := .wakeup (i + 1) } := by
  unfold wakeStep at h
  split at h
  · cases h
    exact .inl ⟨_, rfl⟩
  · rename_i i _
    split at h
    · cases h
      exact .inl ⟨_, rfl⟩
    · rename_i l hl
      cases h
      exact .inr ⟨i, l, hl, rfl⟩
  · cases h
    exact .inl ⟨_, rfl⟩
  · cases h

/-- `curlHttpCliExit` sets flags, and wakes the loops. -/
theorem exitStep_cases {s s' : CurlHttpCli} (h : exitStep s = some s') :
    (∃ isExit threadExit rspExit exit, s' = { s with isExit, threadExit, rspExit, exit }) ∨
    ∃ i l, s.loops[i]? = some l ∧
      s' = { s.setLoop i l.asyncCurlExit with exit := .asyncCurlExit (i + 1) } := by
  unfold exitStep at h
  split at h
  · cases h
    exact .inl ⟨_, _, _, _, rfl⟩
  · split at h
    · cases h
    · split at h <;> cases h
      · exact .inl ⟨_, _, _, _, rfl⟩
      · exact .inl ⟨_, _, _, _, rfl⟩
  · split at h <;> cases h
    exact .inl ⟨_, _, _, _, rfl⟩
  · rename_i i _
    split at h
    · cases h
      exact .inl ⟨_, _, _, _, rfl⟩
    · rename_i l hl
      cases h
      exact .inr ⟨i, l, hl, rfl⟩
  · cases h
    exact .inl ⟨_, _, _, _, rfl⟩
  · split at h <;> cases h
    exact .inl ⟨_, _, _, _, rfl⟩
  · split at h <;> cases h
    exact .inl ⟨_, _, _, _, rfl⟩
  · cases h

end CurlHttp
end CmakeFrame
