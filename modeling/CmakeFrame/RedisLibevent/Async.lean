import CmakeFrame.Lib.Sys
import CmakeFrame.RedisCluster.RedisReplies

/-!
# The asynchronous context of hiredis

`redislibevent/async.c`: the hiredis core with the mutex around the output buffer that this
repository adds.

* `AsyncContext`: a `redisAsyncContext` and what was seen of it so far. `Event`: the calls of the
  user's functions and the commands that were accepted.
* `User`: what the functions of the user do when they are called. It can depend on everything that
  was called before.
* `asyncCommand`, `asyncFree`, `processCallbacks`, `handleRead`, `handleWrite`: the functions of the
  source. A `Fault` is an assertion that fails, the mutex taken twice by one thread, or a context
  that is used again when it is freed.
* `sys`: one context, and all orders of calls of the user and events of the socket. They come one at a
  time: `redisAsyncCommand` puts the callback into its list without a lock, so a call beside the loop of
  the events is not one of these orders.
-/

namespace CmakeFrame
namespace RedisLibevent

open Lib
open RedisCluster (RedisReply)

/-- A `redisCallback`: the function (`none`: `NULL`) and its argument. -/
structure RedisCallback (F P : Type) where
  fn : Option F
  privdata : Option P
  pendingSubs : Int
  deriving DecidableEq, Repr

inductive Event (F P : Type) where
  /-- `redisAsyncCommand` gave `REDIS_OK`. -/
  | accepted (cb : RedisCallback F P) (cmd : Bytes)
  /-- `redisGetReply` gave a reply. -/
  | reply (r : RedisReply)
  /-- The function of a callback was called, with a reply or with `NULL`. -/
  | called (fn : F) (privdata : Option P) (r : Option RedisReply)
  | onConnect (ok : Bool)
  | onDisconnect (ok : Bool)
  /-- `redisFree`. -/
  | freed

inductive Fault where
  | assertion
  | deadlock
  | usedAfterFree
  /-- `__redisAsyncFree` is entered from the disconnect function that it calls itself. -/
  | reentered
  /-- A loop of `__redisAsyncFree` is given new callbacks for ever. -/
  | endless
  deriving DecidableEq, Repr

/-- A `redisAsyncContext`. `sent` is what the socket took of the output buffer. `wmutex` is the static
mutex of the file: all contexts share it, and here no other context takes it. -/
structure AsyncContext (F P : Type) where
  connected : Bool
  disconnecting : Bool
  freeing : Bool
  inCallback : Bool
  subscribed : Bool
  monitoring : Bool
  err : Nat
  errAc : Nat
  obuf : Bytes
  replies : List (RedisCallback F P)
  invalid : List (RedisCallback F P)
  channels : List (Bytes × RedisCallback F P)
  patterns : List (Bytes × RedisCallback F P)
  onConnect : Bool
  onDisconnect : Bool
  reading : Bool
  writing : Bool
  wmutex : Bool
  freed : Bool
  sent : Bytes
  log : List (Event F P)

/-- The two lists of callbacks. -/
inductive CallbackList where
  | replies
  | invalid

/-- What the user can call. -/
inductive Api (F P : Type) where
  | command (fn : Option F) (privdata : Option P) (cmd : Bytes)
  | free
  | disconnect

/-- The functions of the user, and the order in which `dictNext` gives the entries of a table. -/
structure User (F P : Type) where
  /-- What the function does that the last event is the call of. -/
  react : List (Event F P) → List (Api F P)
  walk : List (Bytes × RedisCallback F P) → List (Bytes × RedisCallback F P)
  walk_perm : ∀ l, (walk l).Perm l

variable {F P : Type}

/-! ## The command in a buffer -/

def tolower (c : UInt8) : UInt8 := if 65 ≤ c ∧ c ≤ 90 then c + 32 else c

/-- `strchr`: the text from the first `c` on. -/
def strchr : Bytes → UInt8 → Option Bytes
  | [], _ => none
  | b :: s, c => if b = c then some (b :: s) else if b = 0 then none else strchr s c

/-- `strncasecmp(s, t, strlen(t)) == 0` for a lower-case `t`. -/
def startsWith (s t : Bytes) : Bool := (s.take t.length).map tolower == t

structure Argument where
  str : Bytes
  len : Int
  rest : Bytes

/-- `nextArgument`: where the argument starts, its length, and the text behind it. -/
def nextArgument (start : Bytes) : Except Fault (Option Argument) :=
  match strchr start 36 with
  | none => .ok none
  | some p =>
    let len := (atoi p.tail).toInt
    match strchr p 13 with
    | none => .error .assertion
    | some q => .ok (some ⟨q.drop 2, len, (q.drop 2).drop (len + 2).toNat⟩)

/-- The arguments of a `SUBSCRIBE`. -/
def namesFrom : Nat → Bytes → Except Fault (List Bytes)
  | 0, _ => .ok []
  | fuel + 1, p => do
    match ← nextArgument p with
    | none => .ok []
    | some arg => return arg.str.take arg.len.toNat :: (← namesFrom fuel arg.rest)

inductive CommandKind where
  | subscribe (pvariant : Bool) (names : List Bytes)
  | unsubscribe
  | monitor
  | other
  deriving DecidableEq, Repr

/-- `"subscribe\r\n"`. -/
def subscribeText : Bytes := [115, 117, 98, 115, 99, 114, 105, 98, 101, 13, 10]

/-- `"unsubscribe\r\n"`. -/
def unsubscribeText : Bytes := [117, 110, 115, 117, 98, 115, 99, 114, 105, 98, 101, 13, 10]

/-- `"monitor\r\n"`. -/
def monitorText : Bytes := [109, 111, 110, 105, 116, 111, 114, 13, 10]

/-- Which command will be appended. -/
def commandKind (cmd : Bytes) : Except Fault CommandKind := do
  match ← nextArgument cmd with
  | none => .error .assertion
  | some arg =>
    let hasnext := arg.rest.head? = some 36
    let pvariant := arg.str.head?.map tolower = some 112
    let cstr := arg.str.drop (if pvariant then 1 else 0)
    if hasnext ∧ startsWith cstr subscribeText then
      return .subscribe pvariant (← namesFrom arg.rest.length arg.rest)
    else if startsWith cstr unsubscribeText then return .unsubscribe
    else if startsWith cstr monitorText then return .monitor
    else return .other

/-! ## The tables of subscriptions -/

abbrev Dict (F P : Type) := List (Bytes × RedisCallback F P)

def dictFind (d : Dict F P) (name : Bytes) : Option (RedisCallback F P) :=
  (d.find? fun e => e.1 == name).map (·.2)

def dictReplace (d : Dict F P) (name : Bytes) (cb : RedisCallback F P) : Dict F P :=
  if (dictFind d name).isSome then d.map fun e => if e.1 == name then (name, cb) else e
  else d ++ [(name, cb)]

def dictDelete (d : Dict F P) (name : Bytes) : Dict F P := d.filter fun e => !(e.1 == name)

/-- The loop over the names of a `SUBSCRIBE`. The counter of a name that is there already is kept in `cb`
for the names behind it. -/
def subscribeAll : Dict F P → RedisCallback F P → List Bytes → Dict F P
  | d, _, [] => d
  | d, cb, sname :: names =>
    let cb := match dictFind d sname with
      | some existcb => { cb with pendingSubs := existcb.pendingSubs + 1 }
      | none => cb
    subscribeAll (dictReplace d sname cb) cb names

namespace AsyncContext

/-- After `redisAsyncInitialize`, with the two functions that the user has set. -/
def init (onConnect onDisconnect : Bool) : AsyncContext F P where
  connected := false
  disconnecting := false
  freeing := false
  inCallback := false
  subscribed := false
  monitoring := false
  err := 0
  errAc := 0
  obuf := []
  replies := []
  invalid := []
  channels := []
  patterns := []
  onConnect := onConnect
  onDisconnect := onDisconnect
  reading := false
  writing := onConnect
  wmutex := false
  freed := false
  sent := []
  log := []

def extend (ac : AsyncContext F P) (es : List (Event F P)) : AsyncContext F P :=
  { ac with log := ac.log ++ es }

def push (ac : AsyncContext F P) (e : Event F P) : AsyncContext F P := ac.extend [e]

/-- A `redisCallbackList` of the context. -/
def list (ac : AsyncContext F P) : CallbackList → List (RedisCallback F P)
  | .replies => ac.replies
  | .invalid => ac.invalid

def setList (ac : AsyncContext F P) (cbs : List (RedisCallback F P)) :
    CallbackList → AsyncContext F P
  | .replies => { ac with replies := cbs }
  | .invalid => { ac with invalid := cbs }

/-- `__redisPushCallback`. -/
def pushCallback (ac : AsyncContext F P) (l : CallbackList) (cb : RedisCallback F P) :
    AsyncContext F P :=
  ac.setList (ac.list l ++ [cb]) l

/-- `__redisShiftCallback`. -/
def shiftCallback (l : CallbackList) (ac : AsyncContext F P) :
    Option (RedisCallback F P × AsyncContext F P) :=
  match ac.list l with
  | [] => none
  | cb :: cbs => some (cb, ac.setList cbs l)

/-- No command is accepted any more. -/
def closing (ac : AsyncContext F P) : Bool := ac.disconnecting || ac.freeing

/-- The append to the output buffer, under the mutex, and `_EL_ADD_WRITE`. -/
def append (ac : AsyncContext F P) (cb : RedisCallback F P) (cmd : Bytes) :
    Except Fault (Bool × AsyncContext F P) :=
  if ac.wmutex then .error .deadlock
  else .ok (true, { ac with obuf := ac.obuf ++ cmd, writing := true }.push (.accepted cb cmd))

/-- `__redisAsyncCommand`: whether it gave `REDIS_OK`. -/
def asyncCommand (ac : AsyncContext F P) (fn : Option F) (privdata : Option P) (cmd : Bytes) :
    Except Fault (Bool × AsyncContext F P) :=
  if ac.closing then .ok (false, ac)
  else do
    let cb : RedisCallback F P := ⟨fn, privdata, 1⟩
    match ← commandKind cmd with
    | .subscribe true names =>
      append { ac with subscribed := true, patterns := subscribeAll ac.patterns cb names } cb cmd
    | .subscribe false names =>
      append { ac with subscribed := true, channels := subscribeAll ac.channels cb names } cb cmd
    | .unsubscribe => if ac.subscribed then ac.append cb cmd else .ok (false, ac)
    | .monitor => ({ ac with monitoring := true }.pushCallback .replies cb).append cb cmd
    | .other =>
      if ac.subscribed then (ac.pushCallback .invalid cb).append cb cmd
      else (ac.pushCallback .replies cb).append cb cmd

/-! ## Freeing and disconnecting -/

/-- `redisAsyncFree`. -/
def free (tear : AsyncContext F P → Except Fault (AsyncContext F P)) (ac : AsyncContext F P) :
    Except Fault (AsyncContext F P) :=
  if ac.inCallback then .ok { ac with freeing := true } else tear { ac with freeing := true }

/-- `__redisAsyncDisconnect`. -/
def asyncDisconnect (tear : AsyncContext F P → Except Fault (AsyncContext F P))
    (ac : AsyncContext F P) : Except Fault (AsyncContext F P) :=
  if ac.err = 0 then
    if ac.replies.isEmpty then tear { ac with errAc := ac.err } else .error .assertion
  else tear { ac with errAc := ac.err, disconnecting := true }

/-- `redisAsyncDisconnect`. -/
def disconnect (tear : AsyncContext F P → Except Fault (AsyncContext F P))
    (ac : AsyncContext F P) : Except Fault (AsyncContext F P) :=
  if !ac.inCallback && ac.replies.isEmpty then
    asyncDisconnect tear { ac with disconnecting := true }
  else .ok { ac with disconnecting := true }

/-- A call of the user. `tear` is what `__redisAsyncFree` does. -/
def call (tear : AsyncContext F P → Except Fault (AsyncContext F P)) (ac : AsyncContext F P) :
    Api F P → Except Fault (AsyncContext F P)
  | .command fn privdata cmd => (ac.asyncCommand fn privdata cmd).map (·.2)
  | .free => ac.free tear
  | .disconnect => ac.disconnect tear

/-- A function of the user that is called by `__redisAsyncFree`, or that does not get that far. -/
def react (u : User F P) (ac : AsyncContext F P) : Except Fault (AsyncContext F P) :=
  (u.react ac.log).foldlM (call fun _ => .error .reentered) ac

/-- `__redisRunCallback`. -/
def runCallback (u : User F P) (ac : AsyncContext F P) (cb : RedisCallback F P)
    (reply : Option RedisReply) : Except Fault (AsyncContext F P) :=
  match cb.fn with
  | none => .ok ac
  | some fn => do
    let ac ← react u (push { ac with inCallback := true } (.called fn cb.privdata reply))
    return { ac with inCallback := false }

/-- The loop that runs the callbacks of a list with a `NULL` reply. -/
def drain (l : CallbackList) (u : User F P) :
    Nat → AsyncContext F P → Except Fault (AsyncContext F P)
  | fuel, ac =>
    match shiftCallback l ac with
    | none => .ok ac
    | some (cb, ac) =>
      match fuel with
      | 0 => .error .endless
      | fuel + 1 => do drain l u fuel (← ac.runCallback u cb none)

/-- The loop over the entries of a table. -/
def runAll (u : User F P) (ac : AsyncContext F P) (cbs : List (Bytes × RedisCallback F P)) :
    Except Fault (AsyncContext F P) :=
  cbs.foldlM (fun ac e => ac.runCallback u e.2 none) ac

/-- The call of the disconnect function. -/
def runDisconnect (u : User F P) (ac : AsyncContext F P) : Except Fault (AsyncContext F P) :=
  if ac.onDisconnect && ac.connected then
    (ac.push (.onDisconnect (ac.freeing || ac.errAc == 0))).react u
  else .ok ac

/-- `__redisAsyncFree`. -/
def asyncFree (u : User F P) (ac : AsyncContext F P) : Except Fault (AsyncContext F P) := do
  let ac ← drain .replies u ac.replies.length ac
  let ac ← drain .invalid u ac.invalid.length ac
  let ac ← ac.runAll u (u.walk ac.channels)
  let ac ← ac.runAll u (u.walk ac.patterns)
  let ac ← ac.runDisconnect u
  return { ac with freed := true }.push .freed

/-! ## The events of the socket -/

/-- The callback of a message: the entry of its channel or pattern, or the next one of a command that
was invalid there. It is `cb` as it was where there is none. -/
def getSubscribeCallback (ac : AsyncContext F P) (reply : RedisReply) (cb : RedisCallback F P) :
    Except Fault (RedisCallback F P × AsyncContext F P) :=
  match reply with
  | .array (.string stype :: .string sname :: rest) =>
    let pvariant := stype.head?.map tolower = some 112
    let kind := (stype.drop (if pvariant then 1 else 0)).map tolower ++ [13, 10]
    let callbacks := if pvariant then ac.patterns else ac.channels
    let set (ac : AsyncContext F P) (d : Dict F P) : AsyncContext F P :=
      if pvariant then { ac with patterns := d } else { ac with channels := d }
    match dictFind callbacks sname with
    | none => .ok (cb, ac)
    | some cb =>
      if kind = subscribeText then
        let cb := { cb with pendingSubs := cb.pendingSubs - 1 }
        .ok (cb, set ac (dictReplace callbacks sname cb))
      else if kind = unsubscribeText then
        let ac := if cb.pendingSubs = 0 then set ac (dictDelete callbacks sname) else ac
        match rest with
        | .integer n :: _ =>
          .ok (cb, if n = 0 ∧ ac.channels.isEmpty ∧ ac.patterns.isEmpty then
            { ac with subscribed := false } else ac)
        | _ => .error .assertion
      else .ok (cb, ac)
  | .array _ => .error .assertion
  | _ => .ok ((ac.shiftCallback .invalid).getD (cb, ac))

/-- `reply->type == REDIS_REPLY_ERROR`. -/
def isError : RedisReply → Bool
  | .error _ => true
  | _ => false

/-- `redisProcessCallbacks`. The replies are those that `redisGetReply` gives, and `last` the error behind
them (`none`: there are no more replies yet). -/
def processCallbacks (u : User F P) (last : Option {e : Nat // e ≠ 0}) :
    AsyncContext F P → RedisCallback F P → List RedisReply → Except Fault (AsyncContext F P)
  | ac, cb, [] =>
    match last with
    | some e => asyncDisconnect (asyncFree u) { ac with err := e.1 }
    | none =>
      if ac.disconnecting && ac.obuf.isEmpty && ac.replies.isEmpty then
        ac.asyncDisconnect (asyncFree u)
      else if ac.monitoring then .ok (ac.pushCallback .replies cb)
      else .ok ac
  | ac, cb, reply :: more => do
    let ac := ac.push (.reply reply)
    let run (ac : AsyncContext F P) (cb : RedisCallback F P) : Except Fault (AsyncContext F P) := do
      let ac ← ac.runCallback u cb (some reply)
      -- the flags are looked at behind a function only
      if cb.fn.isSome && ac.freeing then asyncFree u ac
      else processCallbacks u last ac cb more
    match ac.shiftCallback .replies with
    | some (cb, ac) => run ac cb
    | none =>
      -- `REDIS_ERR_OTHER`
      if isError reply then asyncDisconnect (asyncFree u) { ac with err := 2 }
      else if !(ac.subscribed || ac.monitoring) then .error .assertion
      else if ac.subscribed then do
        let (cb, ac) ← ac.getSubscribeCallback reply cb
        run ac cb
      else run ac cb

/-- What `redisCheckSocketError` finds. -/
inductive SocketCheck where
  | ready
  | inProgress
  | failed (err : {e : Nat // e ≠ 0})

/-- A function of the user that is called with the context behind it: the context must be there
afterwards. -/
def runConnect (u : User F P) (ac : AsyncContext F P) (ok : Bool) :
    Except Fault (AsyncContext F P) :=
  if ac.onConnect then do
    let ac := ac.push (.onConnect ok)
    let ac ← (u.react ac.log).foldlM (call (asyncFree u)) ac
    if ac.freed then .error .usedAfterFree else return ac
  else .ok ac

/-- `__redisAsyncHandleConnect`: whether the caller goes on. -/
def handleConnect (u : User F P) (ac : AsyncContext F P) :
    SocketCheck → Except Fault (Bool × AsyncContext F P)
  | .inProgress => .ok (false, ac)
  | .failed err => do
    let ac ← runConnect u { ac with err := err.1 } false
    return (false, ← ac.asyncDisconnect (asyncFree u))
  | .ready => do return (true, ← runConnect u { ac with connected := true } true)

/-- What comes of a `redisBufferRead`: an error, or replies. -/
inductive ReadResult where
  | failed (err : {e : Nat // e ≠ 0})
  | data (replies : List RedisReply) (last : Option {e : Nat // e ≠ 0})

/-- What comes of a `redisBufferWrite`: an error, or how many bytes the socket took. -/
inductive WriteResult where
  | failed (err : {e : Nat // e ≠ 0})
  | wrote (n : Nat)

/-- The first lines of both handlers: whether the socket is connected. -/
def whenConnected (u : User F P) (ac : AsyncContext F P) (check : SocketCheck)
    (go : AsyncContext F P → Except Fault (AsyncContext F P)) : Except Fault (AsyncContext F P) :=
  if ac.connected then go ac
  else do
    let (ready, ac) ← ac.handleConnect u check
    if ready then go ac else return ac

/-- `redisAsyncHandleRead`. -/
def handleRead (u : User F P) (ac : AsyncContext F P) (check : SocketCheck) (r : ReadResult) :
    Except Fault (AsyncContext F P) :=
  ac.whenConnected u check fun ac =>
    match r with
    | .failed err => asyncDisconnect (asyncFree u) { ac with err := err.1 }
    | .data replies last =>
      processCallbacks u last { ac with reading := true } ⟨none, none, 0⟩ replies

/-- `redisAsyncHandleWrite`. -/
def handleWrite (u : User F P) (ac : AsyncContext F P) (check : SocketCheck) (w : WriteResult) :
    Except Fault (AsyncContext F P) :=
  ac.whenConnected u check fun ac =>
    if ac.wmutex then .error .deadlock
    else do
      let ac := { ac with wmutex := true }
      let ac ← match w with
        | .failed err => asyncDisconnect (asyncFree u) { ac with err := err.1 }
        | .wrote n =>
          let rest := ac.obuf.drop n
          .ok { ac with sent := ac.sent ++ ac.obuf.take n, obuf := rest,
                        writing := !rest.isEmpty, reading := true }
      return { ac with wmutex := false }

end AsyncContext

open AsyncContext

/-! ## The system -/

/-- A call of the user outside of all callbacks, or an event of the socket. -/
inductive Step (F P : Type) where
  | api (a : Api F P)
  | read (check : SocketCheck) (r : ReadResult)
  | write (check : SocketCheck) (w : WriteResult)

def step (u : User F P) (ac : AsyncContext F P) : Step F P → Except Fault (AsyncContext F P)
  | .api a => ac.call (asyncFree u) a
  | .read check r => ac.handleRead u check r
  | .write check w => ac.handleWrite u check w

/-- A context from its start on. Nothing comes behind its end. -/
def sys (u : User F P) (onConnect onDisconnect : Bool) : Sys (AsyncContext F P) (Step F P) where
  init := .init onConnect onDisconnect
  next ac a := if ac.freed then none else (step u ac a).toOption

end RedisLibevent
end CmakeFrame
