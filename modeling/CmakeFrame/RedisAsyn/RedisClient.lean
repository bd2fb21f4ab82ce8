import CmakeFrame.Lib.Decimal
import Mathlib.Data.List.Sort

/-!
# `redisAsyn/v1.0/src/RedisClient.cpp`: one connection and its pending commands

A `RedisClient` numbers the commands it sends and keeps them in `cmdSeqOrderMap_` until it has a
result for them. A result goes to `CmdResultQueue`; here each function returns the results it
inserts there, in order.

* `OrderNode`, `CmdResult`: a command, and an insertion into the queue.
* `RedisClient.requestCmd`, `requestCallBack`, `checkOutSecondCmd`, `disConnect`: send, reply,
  timeout, end of the connection.

hiredis and libevent are outside: what `redisAsyncConnect`, `evtimer_new` and `redisAsyncCommand`
give is an argument. The `PING` of `checkOutSecondCmd` has no callback and leaves no trace.
-/

namespace CmakeFrame
namespace RedisAsyn

open Lib

/-! ## Commands and results -/

/-- `OrderNode`: a command. `id` tells the objects apart (they are shared pointers in the source);
`resultCb_` is whether there is a callback. -/
structure OrderNode where
  id : Nat
  outSecond_ : Int32
  cmdOutSecond_ : UInt64
  resultCb_ : Bool
  deriving DecidableEq, Repr

def CMD_SUCCESS_CODE : Int := 0
def CMD_OUTTIME_CODE : Int := -8
def CMD_REPLY_EMPTY_CODE : Int := -9
def CMD_EMPTY_RESULT_CODE : Int := -10
def CMD_REDIS_ERROR_CODE : Int := -11
def CMD_REDIS_UNKNOWN_CODE : Int := -12
def CMD_SVR_CLOSER_CODE : Int := -13

/-- `insertCmdResult(order)`, with the `cmdRet_` and the `cmdResult_` that were set for it. -/
structure CmdResult where
  order : OrderNode
  cmdRet_ : Int
  cmdResult_ : List Bytes
  deriving DecidableEq, Repr

/-- The `type` of a `redisReply`. -/
inductive ReplyType where
  | string
  | array
  | integer
  | nil
  | status
  | error
  | other
  deriving DecidableEq, Repr

/-- A `redisReply` without its elements; `str` are its `len` bytes. -/
structure ReplyElement where
  type : ReplyType
  integer : Int64
  str : Bytes
  deriving DecidableEq, Repr

/-- A `redisReply`. -/
structure RedisReply extends ReplyElement where
  element : List ReplyElement
  deriving DecidableEq, Repr

/-- The `cmdRet_` and the `cmdResult_` that `requestCallBack` sets for a reply. -/
def RedisReply.result (reply : RedisReply) : Int × List Bytes :=
  match reply.type with
  | .string => (CMD_SUCCESS_CODE, [reply.str])
  | .array => (CMD_SUCCESS_CODE, reply.element.map (·.str))
  | .integer => (CMD_SUCCESS_CODE, [intDec reply.integer.toInt])
  | .nil => (CMD_EMPTY_RESULT_CODE, [])
  | .status => (CMD_SUCCESS_CODE, [intDec reply.integer.toInt])
  | .error => (CMD_REDIS_ERROR_CODE, [reply.str])
  | .other => (CMD_REDIS_UNKNOWN_CODE, reply.element.map (·.str))

/-! ## The pending commands -/

/-- An element of `cmdSeqOrderMap_`. `cleared` is history: `clearCmdReqBuf` has inserted a result
for it. -/
structure Pending where
  seq : UInt32
  order : OrderNode
  cleared : Bool
  deriving DecidableEq, Repr

/-- `SeqOrderNodeMap`: a `std::map`, its elements by ascending key. -/
abbrev SeqOrderNodeMap := List Pending

namespace SeqOrderNodeMap

/-- `insert`: nothing happens if the key is there. -/
def insertNew (m : SeqOrderNodeMap) (seq : UInt32) (order : OrderNode) : SeqOrderNodeMap :=
  if m.any (·.seq = seq) then m
  else List.orderedInsert (fun a b => a.seq ≤ b.seq) ⟨seq, order, false⟩ m

end SeqOrderNodeMap

/-! ## `RedisClient` -/

inductive ConnState where
  | init
  | conn
  deriving DecidableEq, Repr

inductive FreeState where
  | already
  | needFree
  deriving DecidableEq, Repr

/-- The members of `RedisClient`. Of the pointers `timev_` and `client_` only whether they are
null matters. -/
structure RedisClient where
  state_ : ConnState
  keepAliveSecond_ : Int32
  releaseState_ : Bool
  freeState_ : FreeState
  lastSecond_ : UInt64
  timev_ : Bool
  client_ : Bool
  cmdSeq_ : UInt32
  cmdSeqOrderMap_ : SeqOrderNodeMap
  deriving DecidableEq, Repr

/-- How far `connectServer` gets. -/
inductive ConnectIo where
  /-- No event base, or no address. -/
  | badParam
  /-- `redisAsyncConnect` gives a null pointer. -/
  | noContext
  /-- The context has `err` set. -/
  | contextErr
  /-- `evtimer_new` gives a null pointer. -/
  | noTimer
  | ok
  deriving DecidableEq, Repr

namespace RedisClient

/-- `RedisClient(…, keepAliveSecond, …)`. -/
def new (keepAliveSecond : Int32) : RedisClient where
  state_ := .init
  keepAliveSecond_ := keepAliveSecond
  releaseState_ := false
  freeState_ := .already
  lastSecond_ := 0
  timev_ := false
  client_ := false
  cmdSeq_ := 0
  cmdSeqOrderMap_ := []

def freeTimeEvent (c : RedisClient) : RedisClient := { c with timev_ := false }

def setReleaseState (c : RedisClient) : RedisClient := { c with releaseState_ := true }

/-- `setStateConnected`; `epoch` is `secondSinceEpoch()`. -/
def setStateConnected (epoch : UInt64) (c : RedisClient) : RedisClient :=
  { c.freeTimeEvent with state_ := .conn, lastSecond_ := epoch }

/-- `connectServer`. Only a connection with its timer has to be freed. -/
def connectServer (io : ConnectIo) (c : RedisClient) : Int × RedisClient :=
  match io with
  | .badParam => (-1, c)
  | .noContext => (-1, { c with client_ := false })
  | .contextErr => (-1, { c with client_ := true })
  | .noTimer => (-1, { c with client_ := true, timev_ := false })
  | .ok => (0, { c with client_ := true, timev_ := true, freeState_ := .needFree })

/-- `clearCmdReqBuf`: a result for every pending command with a callback. The elements stay in the
map. -/
def clearCmdReqBuf (c : RedisClient) : RedisClient × List CmdResult :=
  ({ c with cmdSeqOrderMap_ :=
      c.cmdSeqOrderMap_.map fun e => { e with cleared := e.cleared || e.order.resultCb_ } },
    (c.cmdSeqOrderMap_.filter (·.order.resultCb_)).map fun e => ⟨e.order, CMD_SVR_CLOSER_CODE, []⟩)

/-- `disConnect(isFree)`. -/
def disConnect (isFree : Bool) (c : RedisClient) : RedisClient × List CmdResult :=
  match c.freeState_ with
  | .already => (c, [])
  | .needFree =>
    let c := { c with freeState_ := .already }
    let c := c.freeTimeEvent
    let c := if isFree then { c with client_ := false } else c
    let (c, results) := c.clearCmdReqBuf
    ({ c with state_ := .init }, results)

/-- `redisAsyncCommand ret %d` -/
def redisAsyncCommandRet (ret : Int) : Bytes :=
  [114, 101, 100, 105, 115, 65, 115, 121, 110, 99, 67, 111, 109, 109, 97, 110, 100, 32, 114, 101,
    116, 32] ++ intDec ret

/-- `requestCmd(order, nowSecond)`; `ret` is what `redisAsyncCommand` returns. -/
def requestCmd (ret : Int) (order : OrderNode) (nowSecond : UInt64) (c : RedisClient) :
    RedisClient × List CmdResult :=
  let seq := c.cmdSeq_
  let c := { c with cmdSeq_ := c.cmdSeq_ + 1 }
  if ret ≠ 0 then (c, [⟨order, ret, [redisAsyncCommandRet ret]⟩])
  else
    ({ c with
      lastSecond_ := nowSecond
      cmdSeqOrderMap_ := SeqOrderNodeMap.insertNew c.cmdSeqOrderMap_ seq order }, [])

/-- The condition of `checkOutSecondCmd` on an element. -/
def isOut (nowSecond : UInt64) (e : Pending) : Bool :=
  e.order.outSecond_ ≠ 0 ∧ nowSecond > e.order.cmdOutSecond_

/-- The clock of `checkOutSecondCmd`; `epoch` is `secondSinceEpoch()`. -/
def checkSecond (epoch nowSecond : UInt64) : UInt64 := if nowSecond = 0 then epoch else nowSecond

/-- `checkOutSecondCmd(nowSecond)`. -/
def checkOutSecondCmd (epoch nowSecond : UInt64) (c : RedisClient) : RedisClient × List CmdResult :=
  let nowSecond := checkSecond epoch nowSecond
  let c :=
    if c.state_ = .conn ∧ (nowSecond - c.lastSecond_).toUInt32.toInt32 > c.keepAliveSecond_ then
      { c with lastSecond_ := nowSecond }
    else c
  ({ c with cmdSeqOrderMap_ := c.cmdSeqOrderMap_.filter fun e => !isOut nowSecond e },
    (c.cmdSeqOrderMap_.filter fun e => isOut nowSecond e && e.order.resultCb_).map
      fun e => ⟨e.order, CMD_OUTTIME_CODE, []⟩)

/-- `requestCallBack(seq, reply)`. -/
def requestCallBack (seq : UInt32) (reply : Option RedisReply) (c : RedisClient) :
    RedisClient × List CmdResult :=
  match c.cmdSeqOrderMap_.find? (·.seq = seq) with
  | none => (c, [])
  | some e =>
    let result := (reply.map RedisReply.result).getD (CMD_REPLY_EMPTY_CODE, [])
    ({ c with cmdSeqOrderMap_ := c.cmdSeqOrderMap_.eraseP (·.seq = seq) },
      if e.order.resultCb_ then [⟨e.order, result.1, result.2⟩] else [])

/-- `cmdCallback`: a null reply is dropped. -/
def cmdCallback (seq : UInt32) (reply : Option RedisReply) (c : RedisClient) :
    RedisClient × List CmdResult :=
  match reply with
  | none => (c, [])
  | some reply => c.requestCallBack seq (some reply)

/-- `connectTimeout`. -/
def connectTimeout (c : RedisClient) : RedisClient × List CmdResult :=
  match c.state_ with
  | .init => c.disConnect true
  | .conn => (c, [])

/-- `connectCallback`; `ok` is `status == REDIS_OK`. -/
def connectCallback (epoch : UInt64) (ok : Bool) (c : RedisClient) : RedisClient × List CmdResult :=
  if ok then (c.setStateConnected epoch, []) else c.disConnect false

/-- `disconnectCallback`. -/
def disconnectCallback (c : RedisClient) : RedisClient × List CmdResult := c.disConnect false

/-- `~RedisClient`. -/
def destroy (c : RedisClient) : RedisClient × List CmdResult :=
  let (c, results) :=
    match c.freeState_ with
    | .needFree => c.clearCmdReqBuf
    | .already => (c, [])
  ({ c.freeTimeEvent with
    freeState_ := .already, client_ := false, cmdSeqOrderMap_ := [], state_ := .init }, results)

end RedisClient

end RedisAsyn
end CmakeFrame
