import CmakeFrame.RedisAsyn.AnalysisNodes

/-!
# `redisAsyn/v1.0/src/RedisAsync.cpp`: `redisSvrOnConnect` and the replies of a cluster

A manager is told that a client has connected, could not connect, or has lost its connection. What
it does depends on its type and its state.

* `RedisMgr`: the manager; `Effect`: what a call leaves to the callback pool and to the timer.
* `reconnectCli`, `reconnectAtOnece`, `delayReconnect`: the client of an address gets a new connect
  order.
* `infoReplicConnsUpdate`, `clusterRedisConnsUpdate`: the counts of connected clients.
* `onConnectSingle`, `onConnectMasterSlave`, `onConnectCluster`, `redisSvrOnConnect`.
* `clusterNodesCallBack`, `clusterInitCallBack`, `clusterInfoCallBack`: the replies that make a new
  topology or change the state.

The mutex is held from the beginning to the end of a call (for a single server there is none, and
only one client that calls). Allocations do not fail.
-/

namespace CmakeFrame
namespace RedisAsyn

open Lib

/-! ## The manager -/

inductive SvrType where
  | unknown
  | single
  | masterSlave
  | cluster
  deriving DecidableEq, Repr

/-- `initState_`. -/
inductive SvrState where
  | init
  | runing
  | exception
  | error
  | invalid
  deriving DecidableEq, Repr

/-- The `state` of `redisSvrOnConnect`: `CONNECT_REDISVR_SUCCESS`, `CONNECT_REDISVR_RESET`,
`REDISVR_CONNECT_DISCONN`. -/
inductive ConnEvent where
  | success
  | reset
  | disconn
  deriving DecidableEq, Repr

/-- The codes of the exception callback that are used here. -/
inductive ExceCode where
  | connectReset
  | conectDisconnect
  | clusterNodesChange
  | unkownRedisSvrType
  | masterSlaveNodesChange
  | clusterInitstrFormate
  deriving DecidableEq, Repr

structure RedisMgr extends RedisClientMgr where
  svrType_ : SvrType
  initState_ : SvrState
  inSvrInfoStr_ : Bytes
  mSlaveCli_ : Option RedisMasterSlave

/-- What a call gives to `callBackPoolPtr`, to `TimerOrderDeque` and to the loops. -/
inductive Effect where
  | asyncStateCallBack (state : SvrState) (msg : Bytes)
  | asyncExceCallBack (code : ExceCode) (msg : Bytes)
  | redisSvrMgrInvalid
  | clusterNodesUpdate (isDelay isInit : Bool)
  | infoReplicNodesUpdate (isDelay : Bool)
  /-- A connect order for the client; with `delay`, it is due later. -/
  | insertTimerOrder (cli : RedisCli) (delay : Bool)
  /-- A connect order for a new client, in the queue of its loop. -/
  | libeventIoOrder (cli : RedisCli)
  /-- `CLUSTER INFO` on the client, due later. -/
  | clusterInfo (cli : Option RedisCli)
  deriving DecidableEq, Repr

/-- The client that gets a connect order. -/
def Effect.order : Effect → Option Nat
  | .insertTimerOrder cli _ => some cli.id
  | .libeventIoOrder cli => some cli.id
  | .asyncStateCallBack _ _ => none
  | .asyncExceCallBack _ _ => none
  | .redisSvrMgrInvalid => none
  | .clusterNodesUpdate _ _ => none
  | .infoReplicNodesUpdate _ => none
  | .clusterInfo _ => none

def orders (effects : List Effect) : List Nat := effects.filterMap Effect.order

theorem orders_append (es es' : List Effect) : orders (es ++ es') = orders es ++ orders es' :=
  List.filterMap_append

theorem orders_cons_none {e : Effect} (h : e.order = none) (es : List Effect) :
    orders (e :: es) = orders es := List.filterMap_cons_none h

@[simp] theorem orders_nil : orders [] = [] := rfl

theorem orders_libeventIoOrder (clis : List RedisCli) :
    orders (clis.map .libeventIoOrder) = clis.map (·.id) := by
  rw [orders, List.filterMap_map]
  exact congrFun (List.filterMap_eq_map (f := RedisCli.id)) clis

/-- `"%s::%d %s"`. -/
def exceMsgBuf (svr : RedisSvrInfo) (errMsg : Bytes) : Bytes :=
  cstr svr.ipAddr_ ++ [58, 58] ++ intDec svr.port_.toInt ++ [32] ++ cstr errMsg

/-! ## New connect orders -/

/-- The client that a reconnect is for. -/
def RedisMgr.reconnectCli (mgr : RedisMgr) (svr : RedisSvrInfo) : Option RedisCli :=
  ((mgr.nodeCli_.filter (·.svrInfo_ = svr)).or (mgr.mSlaveCli_.bind (·.getRedisClient svr))).or
    (mgr.cluterCli_.bind (·.getRedisClient svr))

def reconnectAtOnece (mgr : RedisMgr) (svr : RedisSvrInfo) : List Effect :=
  match mgr.reconnectCli svr with
  | none => []
  | some cli => [.insertTimerOrder cli false]

def delayReconnect (mgr : RedisMgr) (svr : RedisSvrInfo) : List Effect :=
  match mgr.reconnectCli svr with
  | none => []
  | some cli => [.insertTimerOrder cli true]

/-! ## Counts -/

/-- `NO_IN_CLUSTER_ADDRINFO`, `MASTER_CLUSTER_ADDRINFO`, `SALVE_CLUSTER_ADDRINFO`. -/
inductive AddrInfo where
  | noIn
  | master
  | slave
  deriving DecidableEq, Repr

/-- Which place of a master with its slaves has the address. -/
def RedisMasterSlave.addrInfo (ms : RedisMasterSlave) (svr : RedisSvrInfo) : AddrInfo :=
  if ms.master_.any (·.svrInfo_ = svr) then .master
  else if ms.slave_.any (·.svrInfo_ = svr) then .slave
  else .noIn

/-- The place of the first node that has the address. -/
def clusterAddrInfo (svr : RedisSvrInfo) : List RedisClusterNode → AddrInfo
  | [] => .noIn
  | node :: nodes =>
    match node.clusterNode_.addrInfo svr with
    | .noIn => clusterAddrInfo svr nodes
    | info => info

/-- `++` and `--` of a `size_t`. -/
def stepCount (onConned : Bool) (n : Nat) : Nat :=
  if onConned then (n + 1) % 2 ^ 64 else (n + (2 ^ 64 - 1)) % 2 ^ 64

def RedisMgr.countConn (mgr : RedisMgr) (onConned : Bool) : AddrInfo → RedisMgr
  | .noIn => mgr
  | .master => { mgr with masterConn_ := stepCount onConned mgr.masterConn_ }
  | .slave => { mgr with slaveConn_ := stepCount onConned mgr.slaveConn_ }

/-- `clusterRedisConnsUpdate(clusterMgr, ipaddr, port, onConned, onCount)`. -/
def clusterRedisConnsUpdate (mgr : RedisMgr) (svr : RedisSvrInfo) (onConned onCount : Bool) :
    AddrInfo × RedisMgr :=
  match mgr.cluterCli_ with
  | none => (.noIn, mgr)
  | some cluster =>
    let info := clusterAddrInfo svr cluster.clusterVectInfo_
    (info, if onCount then mgr.countConn onConned info else mgr)

/-- `infoReplicConnsUpdate(clusterMgr, ipaddr, port, onConned)`. -/
def infoReplicConnsUpdate (mgr : RedisMgr) (svr : RedisSvrInfo) (onConned : Bool) :
    AddrInfo × RedisMgr :=
  match mgr.mSlaveCli_ with
  | none => (.noIn, mgr)
  | some ms =>
    let info := ms.addrInfo svr
    (info, mgr.countConn onConned info)

/-! ## `redisSvrOnConnect` -/

section

variable (mgr : RedisMgr) (svr : RedisSvrInfo) (errMsg : Bytes)

/-- The manager is running. -/
def goRuning : RedisMgr × List Effect :=
  ({ mgr with initState_ := .runing }, [.asyncStateCallBack .runing mgr.inSvrInfoStr_])

/-- `REDIS_SINGLE_SERVER`. -/
def onConnectSingle (state : ConnEvent) : RedisMgr × List Effect :=
  match mgr.initState_, state with
  | .init, .success => goRuning mgr
  | .init, .reset =>
    (mgr, .asyncExceCallBack .connectReset (exceMsgBuf svr errMsg) :: delayReconnect mgr svr)
  | .init, .disconn => (mgr, [])
  | .runing, .success => (mgr, [])
  | .runing, .reset => (mgr, [])
  | .runing, .disconn =>
    ({ mgr with initState_ := .error },
      [.asyncExceCallBack .conectDisconnect (exceMsgBuf svr errMsg),
        .asyncStateCallBack .error mgr.inSvrInfoStr_] ++ reconnectAtOnece mgr svr)
  | .exception, _ => (mgr, [])
  | .error, .success => goRuning mgr
  | .error, .reset =>
    (mgr, .asyncExceCallBack .connectReset (exceMsgBuf svr errMsg) :: delayReconnect mgr svr)
  | .error, .disconn => (mgr, [])
  | .invalid, _ => (mgr, [])

/-- `REDIS_MASTER_SLAVE_SERVER`. -/
def onConnectMasterSlave (state : ConnEvent) : RedisMgr × List Effect :=
  match mgr.initState_, state with
  | .init, .success =>
    match mgr.mSlaveCli_ with
    | none => (mgr, [.infoReplicNodesUpdate false])
    | some _ =>
      let mgr := (infoReplicConnsUpdate mgr svr true).2
      if mgr.masterConn_ ≠ 0 then goRuning mgr else (mgr, [])
  | .init, .reset =>
    (mgr, .asyncExceCallBack .connectReset (exceMsgBuf svr errMsg) :: delayReconnect mgr svr)
  | .init, .disconn =>
    let mgr := (infoReplicConnsUpdate mgr svr true).2
    (mgr, .asyncExceCallBack .conectDisconnect (exceMsgBuf svr errMsg) :: reconnectAtOnece mgr svr)
  | .runing, .success => ((infoReplicConnsUpdate mgr svr true).2, [])
  | .runing, .reset =>
    (mgr, .asyncExceCallBack .connectReset (exceMsgBuf svr errMsg) :: delayReconnect mgr svr)
  | .runing, .disconn =>
    let (isNodes, mgr) := infoReplicConnsUpdate mgr svr true
    (mgr, .asyncExceCallBack .conectDisconnect (exceMsgBuf svr errMsg) :: reconnectAtOnece mgr svr ++
      if isNodes = .master then [.infoReplicNodesUpdate true] else [])
  | .exception, _ => (mgr, [])
  | .error, _ => (mgr, [])
  | .invalid, _ => (mgr, [])

/-- A master of the cluster is not connected. -/
def goException (msg : Bytes) : RedisMgr × List Effect :=
  ({ mgr with initState_ := .exception },
    [.asyncStateCallBack .exception msg, .clusterNodesUpdate true false])

/-- What the loss of a client does in the states `INIT` and `RUNING`, if the client is in the
cluster. -/
def onClusterLoss (isClusterInfo : AddrInfo) (orders : List Effect) (code : ExceCode) :
    RedisMgr × List Effect :=
  let msg := exceMsgBuf svr errMsg
  match isClusterInfo with
  | .noIn => (mgr, [.asyncExceCallBack code msg])
  | .slave => (mgr, .asyncExceCallBack code msg :: orders)
  | .master =>
    let (mgr, effects) := goException mgr msg
    (mgr, .asyncExceCallBack code msg :: orders ++ effects)

/-- The size of `cluterCli_->clusterVectInfo_`; `none` if the pointer is null. -/
def RedisMgr.clusterSize (mgr : RedisMgr) : Option Nat := mgr.cluterCli_.map (·.clusterVectInfo_.length)

/-- `REDIS_CLUSTER_SERVER`; `none` if a null pointer is used. -/
def onConnectCluster (state : ConnEvent) : Option (RedisMgr × List Effect) :=
  match mgr.initState_, state with
  | .init, .success =>
    if mgr.clusterSize.getD 0 = 0 then some (mgr, [.clusterNodesUpdate false true])
    else
      let mgr := (clusterRedisConnsUpdate mgr svr true true).2
      some (if mgr.clusterSize = some mgr.masterConn_ then goRuning mgr else (mgr, []))
  | .init, .reset =>
    let (isClusterInfo, mgr) := clusterRedisConnsUpdate mgr svr false false
    some (onClusterLoss mgr svr errMsg isClusterInfo (delayReconnect mgr svr) .connectReset)
  | .init, .disconn =>
    let (isClusterInfo, mgr) := clusterRedisConnsUpdate mgr svr false true
    some (onClusterLoss mgr svr errMsg isClusterInfo (reconnectAtOnece mgr svr) .conectDisconnect)
  | .runing, .success => some ((clusterRedisConnsUpdate mgr svr true true).2, [])
  | .runing, .reset =>
    some (mgr, .asyncExceCallBack .connectReset (exceMsgBuf svr errMsg) :: delayReconnect mgr svr)
  | .runing, .disconn =>
    let (isClusterInfo, mgr) := clusterRedisConnsUpdate mgr svr false true
    some (onClusterLoss mgr svr errMsg isClusterInfo (reconnectAtOnece mgr svr) .conectDisconnect)
  | .exception, .success =>
    let mgr := (clusterRedisConnsUpdate mgr svr true true).2
    match mgr.clusterSize with
    | none => none
    | some size => some (if size = mgr.masterConn_ then goRuning mgr else (mgr, []))
  | .exception, .reset =>
    some (mgr, .asyncExceCallBack .connectReset (exceMsgBuf svr errMsg) :: delayReconnect mgr svr)
  | .exception, .disconn =>
    let (isClusterInfo, mgr) := clusterRedisConnsUpdate mgr svr false true
    some (mgr, .asyncExceCallBack .conectDisconnect (exceMsgBuf svr errMsg) ::
      if isClusterInfo = .noIn then [] else reconnectAtOnece mgr svr)
  | .error, .success => some ((clusterRedisConnsUpdate mgr svr true true).2, [])
  | .error, .reset =>
    some (mgr, .asyncExceCallBack .connectReset (exceMsgBuf svr errMsg) :: delayReconnect mgr svr)
  | .error, .disconn =>
    let (isClusterInfo, mgr) := clusterRedisConnsUpdate mgr svr false true
    some (mgr, .asyncExceCallBack .conectDisconnect (exceMsgBuf svr errMsg) ::
      if isClusterInfo = .noIn then [] else reconnectAtOnece mgr svr)
  | .invalid, _ => some (mgr, [])

/-- `redisSvrOnConnect` with the manager of its handle. -/
def redisSvrOnConnect (state : ConnEvent) : Option (RedisMgr × List Effect) :=
  match mgr.svrType_ with
  | .unknown =>
    some (mgr, [.asyncExceCallBack .unkownRedisSvrType mgr.inSvrInfoStr_, .redisSvrMgrInvalid])
  | .single => some (onConnectSingle mgr svr errMsg state)
  | .masterSlave => some (onConnectMasterSlave mgr svr errMsg state)
  | .cluster => onConnectCluster mgr svr errMsg state

end

/-! ## The replies to `CLUSTER NODES` and `CLUSTER INFO` -/

/-- `vLines[i].find("master,fail") != npos`. -/
def hasMasterFail (line : Bytes) : Bool :=
  (findSub [109, 97, 115, 116, 101, 114, 44, 102, 97, 105, 108] line).isSome

/-- What a reply does: the manager, what is left to others, the counters `initIoIndex` and
`created`, and the new clients, if there is a new topology. -/
structure Replied where
  mgr : RedisMgr
  effects : List Effect
  ioIndex : UInt32
  created : Nat
  added : Option (List RedisCli)

def RedisMasterSlave.masters (ms : RedisMasterSlave) : List RedisCli := ms.master_.toList

def RedisMasterSlave.clis (ms : RedisMasterSlave) : List RedisCli := ms.masters ++ ms.slave_

/-- All clients of the cluster, node by node. -/
def RedisClusterInfo.clis (info : RedisClusterInfo) : List RedisCli :=
  info.clusterVectInfo_.flatMap (·.clusterNode_.clis)

/-- A `nodeCli_` that is not connected is replaced by the first client of the cluster that is. -/
def RedisMgr.replaceNode (mgr : RedisMgr) : RedisMgr :=
  if mgr.nodeCli_.all (·.state_ = .init) then
    match mgr.cluterCli_.bind (·.clis.find? (·.state_ = .conn)) with
    | none => mgr
    | some cli => { mgr with nodeCli_ := some cli }
  else mgr

section

variable (ioThreadNum : Nat) (mgr : RedisMgr) (ioIndex : UInt32) (created : Nat)

/-- The states behind a new topology. -/
def afterNodes : RedisMgr × List Effect :=
  match mgr.clusterSize with
  | none => (mgr, [.redisSvrMgrInvalid])
  | some size =>
    if size = mgr.masterConn_ ∧ mgr.initState_ ≠ .runing then goRuning mgr
    else if size ≠ mgr.masterConn_ ∧ mgr.initState_ = .runing then
      ({ mgr with initState_ := .exception },
        [.asyncExceCallBack .clusterNodesChange mgr.inSvrInfoStr_,
          .asyncStateCallBack .exception mgr.inSvrInfoStr_])
    else (mgr, [])

/-- What `clusterNodesCallBack` does if there is no new topology. -/
def nodesAgain : Replied :=
  let mgr := mgr.replaceNode
  ⟨mgr, [.clusterNodesUpdate true false, .clusterInfo mgr.nodeCli_], ioIndex, created, none⟩

/-- `clusterNodesCallBack(ret, priv, resultMsg)`. `none` if it does not end or uses an element that
is not there. The clients of a failed analysis are dropped. -/
def clusterNodesCallBack (ret : Int) (resultMsg : List Bytes) : Option Replied :=
  if mgr.initState_ = .invalid then some ⟨mgr, [], ioIndex, created, none⟩
  else if ret ≠ 0 then some (nodesAgain mgr ioIndex created)
  else
    match resultMsg with
    | [] => none
    | text :: _ =>
      if (split text [10]).any hasMasterFail then some (nodesAgain mgr ioIndex created)
      else
        match analysisClusterNodes mgr.toRedisClientMgr ioThreadNum text ioIndex created with
        | none => none
        | some (result, mgr', out) =>
          if result = 0 then
            let (mgr, effects) := afterNodes { mgr with toRedisClientMgr := mgr' }
            some ⟨mgr, out.addRedisCli.map .libeventIoOrder ++ effects, out.ioIndex, out.created,
              some out.addRedisCli⟩
          else some (nodesAgain mgr out.ioIndex created)

/-- `clusterInitCallBack(ret, priv, resultMsg)`. -/
def clusterInitCallBack (ret : Int) (resultMsg : List Bytes) : Option Replied :=
  if mgr.initState_ = .invalid then some ⟨mgr, [], ioIndex, created, none⟩
  else if ret ≠ 0 then some ⟨mgr, [.clusterNodesUpdate true true], ioIndex, created, none⟩
  else
    match resultMsg with
    | [] => none
    | text :: _ =>
      match analysisClusterNodes mgr.toRedisClientMgr ioThreadNum text ioIndex created with
      | none => none
      | some (result, mgr', out) =>
        if result = 0 then
          let effects := if (split text [10]).any hasMasterFail then [.clusterNodesUpdate true false] else []
          some ⟨{ mgr with toRedisClientMgr := mgr' }, out.addRedisCli.map .libeventIoOrder ++ effects,
            out.ioIndex, out.created, some out.addRedisCli⟩
        else
          some ⟨mgr, [.asyncExceCallBack .clusterInitstrFormate (mgr.inSvrInfoStr_ ++ 10 :: text),
            .clusterNodesUpdate true true], out.ioIndex, created, none⟩

/-- `clusterInfoCallBack(ret, priv, resultMsg)`. -/
def clusterInfoCallBack (ret : Int) (resultMsg : List Bytes) : Option (RedisMgr × List Effect) :=
  let bad : RedisMgr × List Effect :=
    if mgr.initState_ = .error then (mgr, [])
    else ({ mgr with initState_ := .error }, [.asyncStateCallBack .error mgr.inSvrInfoStr_])
  if mgr.initState_ = .invalid then some (mgr, [])
  else if ret ≠ 0 then some (mgr, [])
  else
    match resultMsg with
    | [] => none
    | text :: _ =>
      match split text [10] with
      | [] => none
      | line :: _ =>
        match findByte 58 line with
        | none => some bad
        | some pos =>
          if line.drop (pos + 1) = [111, 107] then
            some (if mgr.initState_ = .error then { mgr with initState_ := .exception } else mgr, [])
          else some bad

end

end RedisAsyn
end CmakeFrame
