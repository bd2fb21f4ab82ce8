import CmakeFrame.CurlHttpCli.HttpCliQueue

/-!
# `curlHttpCli/src/AsyncCurlHttp.cpp`: one IO loop

A loop waits in `event_base_dispatch` until its eventfd can be read or libcurl has something to do.
Both handlers end in `requetHttpServer`, which takes requests, and then looks for those that are out
of time.

* `ConnInfo`, `AsyncCurlHttp`: the loop; `counter` is its eventfd, as a number.
* `LoopEvent`: a step, with what the clock, libcurl and the allocator do in it.
* `AsyncCurlHttp.move`: one step between two points where another thread can come in. `dealRequest`,
  `httpResponse` and `returnUrlConnInfo`, which lock a queue that others use, are steps of their own,
  and so is `connInfoReinit`.
* `AsyncCurlHttp.step`: a whole turn of a loop of the code; `Steps`: the same, one case for each kind
  of turn.
* `step_move`: a turn is one, two or three of the steps of `move`.
-/

namespace CmakeFrame
namespace CurlHttp

open Lib

def ABSOLUTELY_OUT_HTTP_SECOND : Int := 180

/-- `added` is whether libcurl has the handle: `curl_multi_add_handle` has succeeded, and neither was
it reported as done nor removed since. -/
structure ConnInfo where
  isNew : Bool
  reqInfo : Option Nat
  reqUrl : Bytes
  outSecond : Int
  added : Bool
  deriving DecidableEq, Repr

namespace ConnInfo

/-- `connMultiRemoveHandle`, `connInfoReinit` and `connInfoIsNew`. -/
def reinit (c : ConnInfo) : ConnInfo :=
  { c with isNew := false, reqInfo := none, outSecond := 0, added := false }

/-- The test of `httpcliConnForEach`. -/
def isOut (c : ConnInfo) (seconds : Int) : Bool :=
  c.outSecond ≠ 0 ∧ ABSOLUTELY_OUT_HTTP_SECOND < seconds - c.outSecond

end ConnInfo

/-- The handler that has called `requetHttpServer`; `odd` is `one % 2`. -/
inductive Handler where
  | handleRead (odd : Bool)
  | check_multi_info
  deriving DecidableEq, Repr

/-- The loop that has found connection `i` finished. -/
inductive Finisher where
  | check_multi_info
  | httpcliConnForEach (seconds : Int) (handler : Handler)
  deriving DecidableEq, Repr

/-- Where a loop is. The last three are inside a turn. -/
inductive IoPc where
  /-- In `event_base_dispatch`, with no handler running. -/
  | dispatch
  /-- In the loop of `check_multi_info`. -/
  | multiInfo
  /-- In the loop of `requetHttpServer`, with `left` more turns to go. -/
  | requet (left : Nat) (handler : Handler)
  /-- In the loop of `httpcliConnForEach`, before connection `i`. -/
  | forEach (i : Nat) (seconds : Int) (handler : Handler)
  /-- Behind `requetHttpServer`. -/
  | leave (handler : Handler)
  /-- `event_base_dispatch` has returned. -/
  | ended
  /-- `dealRequest` has returned `req`, which is neither bound to a connection nor answered. -/
  | dealt (req left : Nat) (handler : Handler)
  /-- Before `connInfoReinit` of connection `i`, whose request is in the response queue. -/
  | reinit (i : Nat) (url : Bytes) (caller : Finisher)
  /-- Before `returnUrlConnInfo`. -/
  | giveBack (r : Return) (caller : Finisher)
  deriving DecidableEq, Repr

/-- Between two turns. -/
def IoPc.isHead : IoPc → Bool
  | .dispatch | .multiInfo | .requet _ _ | .forEach _ _ _ | .leave _ | .ended => true
  | .dealt _ _ _ | .reinit _ _ _ | .giveBack _ _ => false

/-- At connection `i`. -/
def Finisher.found (i : Nat) : Finisher → IoPc
  | .check_multi_info => .multiInfo
  | .httpcliConnForEach seconds handler => .forEach i seconds handler

/-- Behind connection `i`. -/
def Finisher.resume (i : Nat) : Finisher → IoPc
  | .check_multi_info => .multiInfo
  | .httpcliConnForEach seconds handler => .forEach (i + 1) seconds handler

/-- `pushed` and `taken` are history: the requests that were put into the queue and taken out. -/
structure AsyncCurlHttp where
  counter : Nat
  queueSize : Nat
  queue : List Nat
  conns : List ConnInfo
  stopped : Bool
  pc : IoPc
  pushed : List Nat
  taken : List Nat
  deriving DecidableEq, Repr

/-- The loop when `asyncCurlReady` has called `curlHttpThreadReady`. -/
def AsyncCurlHttp.ready : AsyncCurlHttp := ⟨0, 0, [], [], false, .dispatch, [], []⟩

/-- How `requetHttpServer(NULL, sess)` gets on with a new `ConnInfo`. -/
inductive Setup where
  | newError
  | initError
  | reqUrlError
  /-- It is set up; `added` is whether `curl_multi_add_handle` succeeds. -/
  | ok (added : Bool)
  deriving DecidableEq, Repr

inductive LoopEvent where
  /-- `handleRead` up to `requetHttpServer`. -/
  | read
  /-- `timeExpireCb` or `curlEventFdcb`, up to `check_multi_info`. -/
  | socket
  /-- `curl_multi_info_read` reports connection `c`, with its effective URL. -/
  | done (c : Nat) (eff_url : Bytes)
  /-- `curl_multi_info_read` has no more messages. -/
  | noMsg
  /-- A turn of `requetHttpServer`, at the time `seconds`. -/
  | turn (setup : Setup) (seconds : Int)
  /-- A turn of `httpcliConnForEach`. -/
  | forEach
  /-- The end of a handler, with what libcurl has left in `still_running`. -/
  | leave (still_running : Int)
  /-- `connInfoReinit` or `returnUrlConnInfo`. -/
  | finish
  deriving DecidableEq, Repr

/-- What a step does: the loop behind it, the argument of `httpResponse` and that of
`returnUrlConnInfo`. -/
structure LoopEffect where
  loop : AsyncCurlHttp
  rsp : Option (Option Nat)
  back : Option Return
  deriving DecidableEq, Repr

namespace AsyncCurlHttp

/-- A step that neither answers nor gives back. -/
def quiet (l : AsyncCurlHttp) : Option LoopEffect := some ⟨l, none, none⟩

/-- The request of `c` is answered, and `c` goes back to the queue of `url`. -/
def finish (l : AsyncCurlHttp) (i : Nat) (c : ConnInfo) (url : Bytes) : Option LoopEffect :=
  some ⟨{ l with conns := l.conns.set i c.reinit }, some c.reqInfo, some ⟨url, i, c.isNew⟩⟩

/-- `requetHttpServer(NULL, sess)` for the request `req`: `httpConnInfo()` is always null, because
nobody calls `setHttpConnInfo`. -/
def requetHttpServer (l : AsyncCurlHttp) (setup : Setup) (seconds : Int) (req : Nat)
    (sess : HttpReqSession) : LoopEffect :=
  match setup with
  | .newError | .initError | .reqUrlError => ⟨l, some (some req), none⟩
  | .ok added =>
    if ¬ sess.supported then ⟨l, some (some req), none⟩
    else
      ⟨{ l with conns := l.conns ++ [⟨true, some req, sess.httpRequestUrl, seconds, added⟩] },
        none, none⟩

/-- The loop in a turn that has taken `req`, with `left` more turns to go. -/
def dealRequest (l : AsyncCurlHttp) (req : Nat) (rest : List Nat) (left : Nat) (handler : Handler) :
    AsyncCurlHttp :=
  { l with
    queueSize := l.queueSize - 1
    queue := rest
    taken := l.taken ++ [req]
    pc := .requet left handler }

/-- The end of `handleRead` and of `check_multi_info`. -/
def leave (l : AsyncCurlHttp) (still_running : Int) : Handler → AsyncCurlHttp
  | .handleRead odd =>
    if odd ∨ l.stopped then
      { l with stopped := true, pc := if still_running = 0 then .ended else .dispatch }
    else { l with pc := .dispatch }
  | .check_multi_info =>
    { l with pc := if still_running = 0 ∧ l.stopped then .ended else .dispatch }

/-- A whole turn, where `reqs` gives what a pointer to a request points to. -/
def step (reqs : Nat → Option HttpReqSession) (l : AsyncCurlHttp) (e : LoopEvent) :
    Option LoopEffect :=
  match e, l.pc with
  | .read, .dispatch =>
    if l.counter = 0 then none
    else
      let queueSize := l.queueSize + l.counter / 2
      quiet { l with
        counter := 0
        queueSize
        pc := .requet queueSize (.handleRead (l.counter % 2 = 1)) }
  | .socket, .dispatch => quiet { l with pc := .multiInfo }
  | .done i eff_url, .multiInfo =>
    match l.conns[i]? with
    | none => none
    | some c => if c.added then l.finish i c (cstr eff_url) else none
  | .noMsg, .multiInfo => quiet { l with pc := .requet l.queueSize .check_multi_info }
  | .turn _ seconds, .requet 0 handler => quiet { l with pc := .forEach 0 seconds handler }
  | .turn setup seconds, .requet (left + 1) handler =>
    match l.queue with
    | [] => quiet { l with queueSize := l.queueSize - 1, pc := .forEach 0 seconds handler }
    | req :: rest =>
      match reqs req with
      | none => none
      | some sess =>
        some ((l.dealRequest req rest left handler).requetHttpServer setup seconds req sess)
  | .forEach, .forEach i seconds handler =>
    match l.conns[i]? with
    | none => quiet { l with pc := .leave handler }
    | some c =>
      let l := { l with pc := .forEach (i + 1) seconds handler }
      if c.isOut seconds then l.finish i c (cstr c.reqUrl) else l.quiet
  | .leave still_running, .leave handler => quiet (l.leave still_running handler)
  | _, _ => none

/-- The request of `c` goes into the response queue; `url` is that of the queue that `c` goes back
to. -/
def answer (l : AsyncCurlHttp) (i : Nat) (c : ConnInfo) (url : Bytes) (caller : Finisher) :
    Option LoopEffect :=
  some ⟨{ l with
    conns := l.conns.set i { c with added := false }
    pc := .reinit i url caller }, some c.reqInfo, none⟩

/-- One step. -/
def move (reqs : Nat → Option HttpReqSession) (l : AsyncCurlHttp) (e : LoopEvent) :
    Option LoopEffect :=
  match e, l.pc with
  | .done i eff_url, .multiInfo =>
    match l.conns[i]? with
    | none => none
    | some c => if c.added then l.answer i c (cstr eff_url) .check_multi_info else none
  | .turn _ _, .requet (left + 1) handler =>
    match l.queue with
    | [] => l.step reqs e
    | req :: rest => quiet { l.dealRequest req rest left handler with pc := .dealt req left handler }
  | .turn setup seconds, .dealt req left handler =>
    match reqs req with
    | none => none
    | some sess =>
      some ({ l with pc := .requet left handler }.requetHttpServer setup seconds req sess)
  | .forEach, .forEach i seconds handler =>
    match l.conns[i]? with
    | none => l.step reqs e
    | some c =>
      if c.isOut seconds then
        l.answer i c (cstr c.reqUrl) (.httpcliConnForEach seconds handler)
      else l.step reqs e
  | .finish, .reinit i url caller =>
    match l.conns[i]? with
    | none => none
    | some c =>
      quiet { l with
        conns := l.conns.set i c.reinit
        pc := .giveBack ⟨url, i, c.isNew⟩ caller }
  | .finish, .giveBack r caller => some ⟨{ l with pc := caller.resume r.conn }, none, some r⟩
  -- all other turns are one step
  | _, _ => l.step reqs e

/-- What a turn does. -/
inductive Steps (reqs : Nat → Option HttpReqSession) (l : AsyncCurlHttp) :
    LoopEvent → LoopEffect → Prop
  | read : l.pc = .dispatch → 0 < l.counter →
      Steps reqs l .read ⟨{ l with
        counter := 0
        queueSize := l.queueSize + l.counter / 2
        pc := .requet (l.queueSize + l.counter / 2) (.handleRead (l.counter % 2 = 1)) }, none, none⟩
  | socket : l.pc = .dispatch → Steps reqs l .socket ⟨{ l with pc := .multiInfo }, none, none⟩
  | noMsg : l.pc = .multiInfo →
      Steps reqs l .noMsg ⟨{ l with pc := .requet l.queueSize .check_multi_info }, none, none⟩
  | spent (setup : Setup) (seconds : Int) (handler : Handler) : l.pc = .requet 0 handler →
      Steps reqs l (.turn setup seconds) ⟨{ l with pc := .forEach 0 seconds handler }, none, none⟩
  | empty (setup : Setup) (seconds : Int) (left : Nat) (handler : Handler) :
      l.pc = .requet (left + 1) handler → l.queue = [] →
      Steps reqs l (.turn setup seconds)
        ⟨{ l with queueSize := l.queueSize - 1, pc := .forEach 0 seconds handler }, none, none⟩
  | respond (setup : Setup) (seconds : Int) (left : Nat) (handler : Handler) (req : Nat)
      (rest : List Nat) : l.pc = .requet (left + 1) handler → l.queue = req :: rest →
      Steps reqs l (.turn setup seconds)
        ⟨l.dealRequest req rest left handler, some (some req), none⟩
  | bind (added : Bool) (seconds : Int) (left : Nat) (handler : Handler) (req : Nat)
      (rest : List Nat) (sess : HttpReqSession) :
      l.pc = .requet (left + 1) handler → l.queue = req :: rest → reqs req = some sess →
      sess.supported = true →
      Steps reqs l (.turn (.ok added) seconds) ⟨{ l.dealRequest req rest left handler with
        conns := l.conns ++ [⟨true, some req, sess.httpRequestUrl, seconds, added⟩] }, none, none⟩
  /-- libcurl has reported connection `i`. -/
  | done (i : Nat) (c : ConnInfo) (eff_url : Bytes) : l.pc = .multiInfo → l.conns[i]? = some c →
      c.added = true →
      Steps reqs l (.done i eff_url) ⟨{ l with conns := l.conns.set i c.reinit }, some c.reqInfo,
        some ⟨cstr eff_url, i, c.isNew⟩⟩
  /-- Connection `i` is out of time. -/
  | out (i : Nat) (seconds : Int) (handler : Handler) (c : ConnInfo) :
      l.pc = .forEach i seconds handler → l.conns[i]? = some c → c.isOut seconds = true →
      Steps reqs l .forEach ⟨{ l with
        pc := .forEach (i + 1) seconds handler
        conns := l.conns.set i c.reinit }, some c.reqInfo, some ⟨cstr c.reqUrl, i, c.isNew⟩⟩
  | skip (i : Nat) (seconds : Int) (handler : Handler) : l.pc = .forEach i seconds handler →
      Steps reqs l .forEach ⟨{ l with pc := .forEach (i + 1) seconds handler }, none, none⟩
  | swept (i : Nat) (seconds : Int) (handler : Handler) : l.pc = .forEach i seconds handler →
      Steps reqs l .forEach ⟨{ l with pc := .leave handler }, none, none⟩
  | leave (still_running : Int) (handler : Handler) (stopped : Bool) (pc : IoPc) :
      l.pc = .leave handler → pc = .dispatch ∨ pc = .ended →
      Steps reqs l (.leave still_running) ⟨{ l with stopped, pc }, none, none⟩

theorem leave_eq (l : AsyncCurlHttp) (still_running : Int) (handler : Handler) :
    ∃ stopped pc, (pc = .dispatch ∨ pc = .ended) ∧
      l.leave still_running handler = { l with stopped, pc } := by
  cases handler with
  | handleRead odd =>
    unfold leave
    by_cases hs : odd = true ∨ l.stopped = true
    · exact ⟨true, if still_running = 0 then .ended else .dispatch, by split <;> simp, by simp [hs]⟩
    · exact ⟨l.stopped, .dispatch, .inl rfl, by simp [hs]⟩
  | check_multi_info =>
    exact ⟨l.stopped, if still_running = 0 ∧ l.stopped then .ended else .dispatch,
      by split <;> simp, rfl⟩

theorem step_steps {reqs : Nat → Option HttpReqSession} {l : AsyncCurlHttp} {e : LoopEvent}
    {f : LoopEffect} (h : l.step reqs e = some f) : l.Steps reqs e f := by
  unfold step at h
  split at h
  · rename_i hpc
    split at h
    · cases h
    · rename_i h0
      cases h
      exact .read hpc (Nat.pos_of_ne_zero h0)
  · rename_i hpc
    cases h
    exact .socket hpc
  · rename_i i url hpc
    split at h
    · cases h
    · rename_i c hc
      split at h
      · rename_i hadded
        cases h
        exact .done i c url hpc hc hadded
      · cases h
  · rename_i hpc
    cases h
    exact .noMsg hpc
  · rename_i setup seconds handler hpc
    cases h
    exact .spent setup seconds handler hpc
  · rename_i setup seconds left handler hpc
    split at h
    · rename_i hq
      cases h
      exact .empty setup seconds left handler hpc hq
    · rename_i req rest hq
      split at h
      · cases h
      · rename_i sess hsess
        unfold requetHttpServer at h
        split at h
        · cases h
          exact .respond _ seconds left handler req rest hpc hq
        · cases h
          exact .respond _ seconds left handler req rest hpc hq
        · cases h
          exact .respond _ seconds left handler req rest hpc hq
        · rename_i added
          split at h
          · cases h
            exact .respond _ seconds left handler req rest hpc hq
          · rename_i hsupported
            cases h
            exact .bind added seconds left handler req rest sess hpc hq hsess (by simpa using hsupported)
  · rename_i i seconds handler hpc
    split at h
    · cases h
      exact .swept i seconds handler hpc
    · rename_i c hc
      split at h
      · rename_i hout
        cases h
        exact .out i seconds handler c hpc hc hout
      · cases h
        exact .skip i seconds handler hpc
  · rename_i running handler hpc
    obtain ⟨stopped, pc, hor, heq⟩ := l.leave_eq running handler
    cases h
    rw [heq]
    exact .leave running handler stopped pc hpc hor
  · cases h

/-- What a step does. -/
inductive Moves (reqs : Nat → Option HttpReqSession) (l : AsyncCurlHttp) :
    LoopEvent → LoopEffect → Prop
  /-- A turn that touches no request and no connection. -/
  | quiet (e : LoopEvent) (l' : AsyncCurlHttp) : l.Steps reqs e ⟨l', none, none⟩ →
      l.pc.isHead = true → l'.pc.isHead = true → l'.queue = l.queue → l'.conns = l.conns →
      Moves reqs l e ⟨l', none, none⟩
  | deal (setup : Setup) (seconds : Int) (left : Nat) (handler : Handler) (req : Nat)
      (rest : List Nat) : l.pc = .requet (left + 1) handler → l.queue = req :: rest →
      Moves reqs l (.turn setup seconds)
        ⟨{ l.dealRequest req rest left handler with pc := .dealt req left handler }, none, none⟩
  | respond (setup : Setup) (seconds : Int) (left : Nat) (handler : Handler) (req : Nat) :
      l.pc = .dealt req left handler →
      Moves reqs l (.turn setup seconds) ⟨{ l with pc := .requet left handler }, some (some req), none⟩
  | bind (added : Bool) (seconds : Int) (left : Nat) (handler : Handler) (req : Nat)
      (sess : HttpReqSession) : l.pc = .dealt req left handler → reqs req = some sess →
      Moves reqs l (.turn (.ok added) seconds) ⟨{ l with
        pc := .requet left handler
        conns := l.conns ++ [⟨true, some req, sess.httpRequestUrl, seconds, added⟩] }, none, none⟩
  | answer (e : LoopEvent) (i : Nat) (c : ConnInfo) (url : Bytes) (caller : Finisher) :
      l.pc = caller.found i → l.conns[i]? = some c →
      Moves reqs l e ⟨{ l with
        conns := l.conns.set i { c with added := false }
        pc := .reinit i url caller }, some c.reqInfo, none⟩
  | reinit (i : Nat) (url : Bytes) (caller : Finisher) (c : ConnInfo) :
      l.pc = .reinit i url caller → l.conns[i]? = some c →
      Moves reqs l .finish ⟨{ l with
        conns := l.conns.set i c.reinit
        pc := .giveBack ⟨url, i, c.isNew⟩ caller }, none, none⟩
  | giveBack (r : Return) (caller : Finisher) : l.pc = .giveBack r caller →
      Moves reqs l .finish ⟨{ l with pc := caller.resume r.conn }, none, some r⟩

theorem isHead_of_eq {pc pc' : IoPc} (h : pc = pc') (hhead : pc'.isHead = true) :
    pc.isHead = true := by
  rw [h, hhead]

theorem isHead_found (caller : Finisher) (i : Nat) : (caller.found i).isHead = true := by
  cases caller <;> rfl

/-- A turn that takes no request and finds no connection finished. -/
theorem Steps.moves {reqs : Nat → Option HttpReqSession} {l : AsyncCurlHttp} {e : LoopEvent}
    {f : LoopEffect} (h : l.Steps reqs e f)
    (hdone : ∀ i url, e = .done i url → l.pc ≠ .multiInfo)
    (hturn : ∀ setup seconds left handler, e = .turn setup seconds →
      l.pc = .requet (left + 1) handler → l.queue = [])
    (hout : ∀ i seconds handler c, e = .forEach → l.pc = .forEach i seconds handler →
      l.conns[i]? = some c → c.isOut seconds = false) : l.Moves reqs e f := by
  have hsteps := h
  cases h with
  | read hpc _ => exact .quiet _ _ hsteps (isHead_of_eq hpc rfl) rfl rfl rfl
  | socket hpc => exact .quiet _ _ hsteps (isHead_of_eq hpc rfl) rfl rfl rfl
  | noMsg hpc => exact .quiet _ _ hsteps (isHead_of_eq hpc rfl) rfl rfl rfl
  | spent _ _ _ hpc => exact .quiet _ _ hsteps (isHead_of_eq hpc rfl) rfl rfl rfl
  | empty _ _ _ _ hpc _ => exact .quiet _ _ hsteps (isHead_of_eq hpc rfl) rfl rfl rfl
  | skip _ _ _ hpc => exact .quiet _ _ hsteps (isHead_of_eq hpc rfl) rfl rfl rfl
  | swept _ _ _ hpc => exact .quiet _ _ hsteps (isHead_of_eq hpc rfl) rfl rfl rfl
  | leave _ _ _ pc hpc hor =>
    refine .quiet _ _ hsteps (isHead_of_eq hpc rfl) ?_ rfl rfl
    rcases hor with rfl | rfl <;> rfl
  | respond setup seconds left handler req rest hpc hq =>
    rw [hturn setup seconds left handler rfl hpc] at hq
    cases hq
  | bind added seconds left handler req rest sess hpc hq _ _ =>
    rw [hturn _ seconds left handler rfl hpc] at hq
    cases hq
  | done i c url hpc _ _ => exact absurd hpc (hdone i url rfl)
  | out i seconds handler c hpc hc hisOut =>
    rw [hout i seconds handler c rfl hpc hc] at hisOut
    cases hisOut

theorem move_moves {reqs : Nat → Option HttpReqSession} {l : AsyncCurlHttp} {e : LoopEvent}
    {f : LoopEffect} (h : l.move reqs e = some f) : l.Moves reqs e f := by
  unfold move at h
  split at h
  · rename_i i url hpc
    split at h
    · cases h
    · rename_i c hc
      split at h
      · cases h
        exact .answer _ i c _ .check_multi_info hpc hc
      · cases h
  · rename_i setup seconds left handler hpc
    split at h
    · rename_i hq
      exact (step_steps h).moves (by simp) (fun _ _ _ _ _ _ => hq) (by simp)
    · rename_i req rest hq
      cases h
      exact .deal setup seconds left handler req rest hpc hq
  · rename_i setup seconds req left handler hpc
    split at h
    · cases h
    · rename_i sess hsess
      unfold requetHttpServer at h
      split at h
      · cases h
        exact .respond _ seconds left handler req hpc
      · cases h
        exact .respond _ seconds left handler req hpc
      · cases h
        exact .respond _ seconds left handler req hpc
      · rename_i added
        split at h
        · cases h
          exact .respond _ seconds left handler req hpc
        · cases h
          exact .bind added seconds left handler req sess hpc hsess
  · rename_i i seconds handler hpc
    split at h
    · rename_i hc
      refine (step_steps h).moves (by simp) (by simp) (fun j _ _ c _ hpc' hc' => ?_)
      rw [hpc] at hpc'
      cases hpc'
      rw [hc] at hc'
      cases hc'
    · rename_i c hc
      split at h
      · cases h
        exact .answer _ i c _ (.httpcliConnForEach seconds handler) hpc hc
      · rename_i hin
        refine (step_steps h).moves (by simp) (by simp) (fun j _ _ c' _ hpc' hc' => ?_)
        rw [hpc] at hpc'
        cases hpc'
        rw [hc] at hc'
        cases hc'
        simpa using hin
  · rename_i i url caller hpc
    split at h
    · cases h
    · rename_i c hc
      cases h
      exact .reinit i url caller c hpc hc
  · rename_i r caller hpc
    cases h
    exact .giveBack r caller hpc
  · rename_i hdone hturn _ hforEach _ _
    exact (step_steps h).moves (fun i url he hpc => hdone i url he hpc)
      (fun setup seconds left handler he hpc => (hturn setup seconds left handler he hpc).elim)
      (fun i seconds handler c he hpc _ => (hforEach i seconds handler he hpc).elim)

/-- `answer`, `connInfoReinit` and `returnUrlConnInfo` are what `finish` does. -/
theorem finish_move {reqs : Nat → Option HttpReqSession} {l l' : AsyncCurlHttp} {i : Nat}
    {c : ConnInfo} {url : Bytes} {caller : Finisher} {f : LoopEffect} (hc : l.conns[i]? = some c)
    (hl' : l' = { l with pc := caller.resume i }) (h : l'.finish i c url = some f) :
    ∃ l₁ l₂, l.answer i c url caller = some ⟨l₁, f.rsp, none⟩ ∧
      l₁.move reqs .finish = some ⟨l₂, none, none⟩ ∧
      l₂.move reqs .finish = some ⟨f.loop, none, f.back⟩ := by
  cases h
  have hlt : i < l.conns.length := (List.getElem?_eq_some_iff.mp hc).1
  refine ⟨_, { l with
    conns := l.conns.set i c.reinit
    pc := .giveBack ⟨url, i, c.isNew⟩ caller }, rfl, ?_, ?_⟩
  · simp [move, hlt, quiet, ConnInfo.reinit]
  · simp [move, hl']

/-- A turn is one, two or three steps. -/
theorem step_move {reqs : Nat → Option HttpReqSession} {l : AsyncCurlHttp} {e : LoopEvent}
    {f : LoopEffect} (h : l.step reqs e = some f) :
    l.move reqs e = some f ∨
    (∃ l₁, l.move reqs e = some ⟨l₁, none, none⟩ ∧ l₁.move reqs e = some f) ∨
    ∃ l₁ l₂, l.move reqs e = some ⟨l₁, f.rsp, none⟩ ∧
      l₁.move reqs .finish = some ⟨l₂, none, none⟩ ∧
      l₂.move reqs .finish = some ⟨f.loop, none, f.back⟩ := by
  have hstep := h
  unfold step at h
  split at h
  · rename_i hpc
    exact .inl (by simpa [move, hpc] using hstep)
  · rename_i hpc
    exact .inl (by simpa [move, hpc] using hstep)
  · rename_i i url hpc
    split at h
    · cases h
    · rename_i c hc
      split at h
      · rename_i hadded
        have hmove : l.move reqs (.done i url) = l.answer i c (cstr url) .check_multi_info := by
          simp [move, hpc, hc, hadded]
        rw [hmove]
        exact .inr (.inr (finish_move hc (by simp [Finisher.resume, ← hpc]) h))
      · cases h
  · rename_i hpc
    exact .inl (by simpa [move, hpc] using hstep)
  · rename_i hpc
    exact .inl (by simpa [move, hpc] using hstep)
  · rename_i setup seconds left handler hpc
    split at h
    · rename_i hq
      exact .inl (by simpa [move, hpc, hq] using hstep)
    · rename_i req rest hq
      split at h
      · cases h
      · rename_i sess hsess
        refine .inr (.inl ⟨{ l.dealRequest req rest left handler with pc := .dealt req left handler },
          by simp [move, hpc, hq, quiet], ?_⟩)
        simpa [move, hsess, dealRequest] using h
  · rename_i i seconds handler hpc
    split at h
    · rename_i hc
      exact .inl (by simpa [move, hpc, hc] using hstep)
    · rename_i c hc
      split at h
      · rename_i hout
        have hmove : l.move reqs .forEach =
            l.answer i c (cstr c.reqUrl) (.httpcliConnForEach seconds handler) := by
          simp [move, hpc, hc, hout]
        rw [hmove]
        exact .inr (.inr (finish_move hc rfl h))
      · rename_i hin
        exact .inl (by simpa [move, hpc, hc, hin] using hstep)
  · rename_i hpc
    exact .inl (by simpa [move, hpc] using hstep)
  · cases h

end AsyncCurlHttp

end CurlHttp
end CmakeFrame
