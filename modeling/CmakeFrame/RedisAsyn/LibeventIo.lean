import CmakeFrame.Lib.Sys
import CmakeFrame.RedisAsyn.RedisClient

/-!
# `redisAsyn/v1.0/src/LibeventIo.cpp`: the loop that a connection lives in

`libeventIoOrder` puts commands and connect orders into a queue; the loop's `handleRead` takes them
out one by one and then, once a second, looks after its clients. The result queue is emptied by the
callback pool of `RedisAsync.cpp`, which also counts the commands that are under way.

* `ioAddRedisClient`, `handleOrder`, `handleSecond`: the table of clients, one turn of the loop of
  `handleRead`, and what comes after it.
* `IoState`, `IoAct`: one client with its loop and all that can happen to it.
* `ioSystem`: the system. Every step is one call that runs to its end; the orders, the events and
  the results come in any order. `redisAsyncDisconnect` lets the replies that are due come first, so a
  callback may come to a client that is gone.
-/

namespace CmakeFrame
namespace RedisAsyn

open Lib

/-! ## The table of clients -/

section Table

variable {ι : Type} [DecidableEq ι]

/-- `ioAddRedisClient`: every empty slot is filled, and a slot is added. -/
def ioAddRedisClient (cli : ι) (ioRedisClients_ : List (Option ι)) : List (Option ι) :=
  if some cli ∈ ioRedisClients_ then ioRedisClients_
  else ioRedisClients_.map (fun slot => some (slot.getD cli)) ++ [some cli]

end Table

/-! ## `LibeventIo` -/

/-- `RedisCliOrderNode`: a command with the node's own `outSecond_`, or no command (a connect or
disconnect order; its `outSecond_` is always 0). -/
inductive RedisCliOrderNode where
  | conn
  | cmd (outSecond_ : UInt64) (cmdOrd_ : OrderNode)
  deriving DecidableEq, Repr

/-- The members of `LibeventIo` that the functions below use. There is one client, so a slot is
empty or holds it. -/
structure LibeventIo where
  nowSecond_ : UInt64
  lastSecond_ : UInt64
  orderDeque_ : List RedisCliOrderNode
  ioRedisClients_ : List (Option Unit)
  deriving DecidableEq, Repr

/-- What the outside does during a turn of the loop: how far `connectServer` gets, and what
`redisAsyncCommand` returns. -/
structure OrderIo where
  connect : ConnectIo
  command : Int
  deriving DecidableEq, Repr

namespace LibeventIo

/-- What a turn of the loop of `handleRead` does with a node. -/
def handleNode (o : OrderIo) (nowSecond_ : UInt64) (cli : RedisClient) :
    RedisCliOrderNode → RedisClient × List CmdResult
  | .conn =>
    match cli.state_ with
    | .init => ((cli.connectServer o.connect).2, [])
    | .conn => cli.disConnect true
  | .cmd outSecond_ cmdOrd_ =>
    if outSecond_ ≠ 0 ∧ nowSecond_ > outSecond_ then (cli, [⟨cmdOrd_, CMD_OUTTIME_CODE, []⟩])
    else
      match cli.state_ with
      | .init => (cli, [⟨cmdOrd_, CMD_SVR_CLOSER_CODE, []⟩])
      | .conn => cli.requestCmd o.command cmdOrd_ nowSecond_

/-- A connect order that is to connect puts the client into the table. -/
def handleTable (cli : RedisClient) (node : RedisCliOrderNode) (table : List (Option Unit)) :
    List (Option Unit) :=
  match node, cli.state_ with
  | .conn, .init => ioAddRedisClient () table
  | _, _ => table

/-- The loop over the table: a released client is disconnected and taken out, any other one looks
for commands that are out of time. `ioDisRedisClient` gets the slot itself by reference, so it
empties no more than that slot. -/
def checkClients (epoch nowSecond_ : UInt64) :
    List (Option Unit) → RedisClient → RedisClient × List CmdResult × List (Option Unit)
  | [], cli => (cli, [], [])
  | none :: slots, cli =>
    let (cli, results, slots) := checkClients epoch nowSecond_ slots cli
    (cli, results, none :: slots)
  | some () :: slots, cli =>
    let (slot, cli, results₁) :=
      if cli.releaseState_ then (none, cli.disConnect true)
      else (some (), cli.checkOutSecondCmd epoch nowSecond_)
    let (cli, results₂, slots) := checkClients epoch nowSecond_ slots cli
    (cli, results₁ ++ results₂, slot :: slots)

/-- Whether `handleRead` looks after its clients. -/
def isSecond (io : LibeventIo) : Bool := io.lastSecond_ ≠ 0 ∧ io.nowSecond_ ≠ io.lastSecond_

/-- What `handleRead` does after the loop over the orders. -/
def handleSecond (epoch : UInt64) (cli : RedisClient) (io : LibeventIo) :
    RedisClient × List CmdResult × LibeventIo :=
  if io.isSecond then
    let (cli, results, slots) := checkClients epoch io.nowSecond_ io.ioRedisClients_ cli
    (cli, results, { io with ioRedisClients_ := slots, lastSecond_ := io.nowSecond_ })
  else if io.lastSecond_ = 0 then (cli, [], { io with lastSecond_ := io.nowSecond_ })
  else (cli, [], io)

end LibeventIo

/-! ## One client and its loop -/

/-- The client, its loop, the result queue and the count of `RedisAsync.cpp`. `inflight` are the
sequence numbers that hiredis has not called back for. The rest is history: the commands with a
callback that were accepted, the ones that were inserted into the result queue, the ones that the
callback pool has taken out, and whether a callback has come to the client behind its destructor. -/
structure IoState where
  cli : RedisClient
  io : LibeventIo
  queue_ : List CmdResult
  asyncCmdNum : Int32
  inflight : List UInt32
  destroyed : Bool
  orders : Nat
  accepted : List OrderNode
  inserted : List OrderNode
  taken : List OrderNode
  late : Bool
  deriving DecidableEq, Repr

inductive IoAct where
  /-- `libeventIoOrder` with a new command. -/
  | order (nodeOutSecond_ : UInt64) (outSecond_ : Int32) (cmdOutSecond_ : UInt64) (resultCb_ : Bool)
      (nowsecond : UInt64)
  /-- `libeventIoOrder` with a connect order. -/
  | connOrder (nowsecond : UInt64)
  /-- `libeventIoWakeup`. -/
  | wakeup (nowsecond : UInt64)
  /-- One turn of the loop of `handleRead`. -/
  | handleOrder (o : OrderIo)
  /-- The end of `handleRead`. -/
  | handleSecond (epoch : UInt64)
  | connectTimeout
  | connectCallback (epoch : UInt64) (ok : Bool)
  | disconnectCallback
  /-- hiredis calls back for a command. -/
  | cmdCallback (seq : UInt32) (reply : Option RedisReply)
  | setReleaseState
  | cmdReplyCallPool
  /-- The last reference to the client goes away. -/
  | destroy
  deriving DecidableEq, Repr

namespace IoState

/-- The state after a call of the client. -/
def withCli (s : IoState) (r : RedisClient × List CmdResult) : IoState :=
  { s with
    cli := r.1
    queue_ := s.queue_ ++ r.2
    inserted := s.inserted ++ r.2.map (·.order) }

/-- `libeventIoOrder` and `libeventIoWakeup`. -/
def pushNode (s : IoState) (node : RedisCliOrderNode) (nowsecond : UInt64) : IoState :=
  { s with io :=
    { s.io with orderDeque_ := s.io.orderDeque_ ++ [node], nowSecond_ := nowsecond } }

/-- `libeventIoOrder` with the command `cmd`. -/
def libeventIoOrder (s : IoState) (nodeOutSecond_ : UInt64) (cmd : OrderNode) (nowsecond : UInt64) :
    IoState :=
  let s := { s with orders := s.orders + 1 }
  let s :=
    if cmd.resultCb_ then
      { s with asyncCmdNum := s.asyncCmdNum + 1, accepted := s.accepted ++ [cmd] }
    else s
  s.pushNode (.cmd nodeOutSecond_ cmd) nowsecond

/-- Whether the next turn of the loop makes hiredis send a command. -/
def sends (s : IoState) (o : OrderIo) (node : RedisCliOrderNode) : Bool :=
  match node with
  | .conn => false
  | .cmd outSecond_ _ =>
    ¬ (outSecond_ ≠ 0 ∧ s.io.nowSecond_ > outSecond_) ∧ s.cli.state_ = .conn ∧ o.command = 0

/-- One turn of the loop of `handleRead` with the node `node`; `rest` is the queue behind it. -/
def handleOrder (s : IoState) (o : OrderIo) (node : RedisCliOrderNode)
    (rest : List RedisCliOrderNode) : IoState :=
  let table := LibeventIo.handleTable s.cli node s.io.ioRedisClients_
  let inflight := if s.sends o node then s.inflight ++ [s.cli.cmdSeq_] else s.inflight
  { s.withCli (LibeventIo.handleNode o s.io.nowSecond_ s.cli node) with
    io := { s.io with orderDeque_ := rest, ioRedisClients_ := table }
    inflight := inflight }

/-- `cmdReplyCallPool` with the first result of the queue. -/
def takeCmdResult (s : IoState) (node : CmdResult) (rest : List CmdResult) : IoState :=
  { s with
    queue_ := rest
    taken := s.taken ++ [node.order]
    asyncCmdNum := if node.order.resultCb_ then s.asyncCmdNum - 1 else s.asyncCmdNum }

/-- The steps while the client exists. -/
def nextAlive (s : IoState) : IoAct → Option IoState
  | .order nodeOutSecond_ outSecond_ cmdOutSecond_ resultCb_ nowsecond =>
    some (s.libeventIoOrder nodeOutSecond_ ⟨s.orders, outSecond_, cmdOutSecond_, resultCb_⟩ nowsecond)
  | .connOrder nowsecond => some (s.pushNode .conn nowsecond)
  | .wakeup nowsecond => some { s with io := { s.io with nowSecond_ := nowsecond } }
  | .handleOrder o =>
    match s.io.orderDeque_ with
    | [] => none
    | node :: rest => some (s.handleOrder o node rest)
  | .handleSecond epoch =>
    let (cli, results, io) := s.io.handleSecond epoch s.cli
    some { s.withCli (cli, results) with io := io }
  | .connectTimeout => some (s.withCli s.cli.connectTimeout)
  | .connectCallback epoch ok => some (s.withCli (s.cli.connectCallback epoch ok))
  | .disconnectCallback => some (s.withCli s.cli.disconnectCallback)
  | .cmdCallback seq reply =>
    if seq ∈ s.inflight then
      some { s.withCli (s.cli.cmdCallback seq reply) with inflight := s.inflight.erase seq }
    else none
  | .setReleaseState => some { s with cli := s.cli.setReleaseState }
  | .cmdReplyCallPool =>
    match s.queue_ with
    | [] => none
    | node :: rest => some (s.takeCmdResult node rest)
  | .destroy =>
    -- a node of the queue holds a reference to the client
    if s.io.orderDeque_ = [] then some { s.withCli s.cli.destroy with destroyed := true } else none

/-- The steps behind the destructor. A callback of the timer or of hiredis gets a pointer to the client
that is gone; what the source does then is undefined. -/
def nextDestroyed (s : IoState) : IoAct → Option IoState
  | .cmdReplyCallPool => s.nextAlive .cmdReplyCallPool
  | .connectTimeout | .connectCallback _ _ | .disconnectCallback => some { s with late := true }
  | .cmdCallback seq _ =>
    if seq ∈ s.inflight then some { s with late := true, inflight := s.inflight.erase seq } else none
  | .order _ _ _ _ _ | .connOrder _ | .wakeup _ | .handleOrder _ | .handleSecond _ | .setReleaseState
  | .destroy => none

/-- All steps. -/
def next (s : IoState) (a : IoAct) : Option IoState :=
  if s.destroyed then s.nextDestroyed a else s.nextAlive a

end IoState

/-- One new client and its loop. -/
def ioSystem (keepAliveSecond : Int32) : Sys IoState IoAct where
  init :=
    { cli := RedisClient.new keepAliveSecond
      io := ⟨0, 0, [], []⟩
      queue_ := []
      asyncCmdNum := 0
      inflight := []
      destroyed := false
      orders := 0
      accepted := []
      inserted := []
      taken := []
      late := false }
  next := IoState.next

end RedisAsyn
end CmakeFrame
