import CmakeFrame.RedisAsyn.RedisClient
import CmakeFrame.RedisAsyn.RedisTools

/-!
# `redisAsyn/v1.0/src/PartRedisAsync.cpp`: `analysisClusterNodes`

The reply to `CLUSTER NODES` becomes a new `cluterCli_`: for every master line a `RedisClusterNode`
with the clients of the node and of its replicas, and an entry in `clusterSlotMap_` for each of
its slots.

* `RedisCli`, `RedisClusterInfo`, `RedisClientMgr`: what the manager knows.
* `analysisSvrInfo`, `slotsInfo`: an address, a slot token.
* `slotLoop`: the loop over a range; its counter has 16 bits, so that it does not end for a range
  up to 65535 (`none`).
* `slaveLoop`, `masterLine`, `nodesLoop`, `analysisClusterNodes`.

Allocations do not fail. `created` is the number of clients so far, which tells them apart.
-/

namespace CmakeFrame
namespace RedisAsyn

open Lib

/-! ## Clients and the manager -/

structure RedisSvrInfo where
  ipAddr_ : Bytes
  port_ : Int32
  deriving DecidableEq, Repr

/-- A `RedisClient` as the manager sees it; `id` tells the objects apart. -/
structure RedisCli where
  id : Nat
  svrInfo_ : RedisSvrInfo
  ioIndex_ : Nat
  state_ : ConnState
  deriving DecidableEq, Repr

structure SlotsInfo where
  slotStart_ : UInt16
  slotEnd_ : UInt16
  deriving DecidableEq, Repr

structure RedisMasterSlave where
  master_ : Option RedisCli
  slave_ : List RedisCli
  deriving DecidableEq, Repr

structure RedisClusterNode where
  nodeIds_ : Bytes
  vectSlotInfo_ : List SlotsInfo
  clusterNode_ : RedisMasterSlave
  deriving DecidableEq, Repr

/-- `SlotCliInfoMap`, a `std::map`. -/
abbrev SlotCliInfoMap := UInt16 → Option RedisCli

/-- `insert`: an entry that is there stays. -/
def SlotCliInfoMap.insertNew (m : SlotCliInfoMap) (slot : UInt16) (cli : RedisCli) : SlotCliInfoMap :=
  fun s => if s = slot then some ((m s).getD cli) else m s

structure RedisClusterInfo where
  clusterSlotMap_ : SlotCliInfoMap
  clusterVectInfo_ : List RedisClusterNode

/-- The members of `RedisClientMgr` that `analysisClusterNodes` uses. -/
structure RedisClientMgr where
  masterConn_ : Nat
  slaveConn_ : Nat
  nodeCli_ : Option RedisCli
  cluterCli_ : Option RedisClusterInfo

/-- `getRedisClient(mSlaveInfo, ipaddr, port)`: the master, then the slaves. -/
def RedisMasterSlave.getRedisClient (ms : RedisMasterSlave) (svr : RedisSvrInfo) : Option RedisCli :=
  match ms.master_ with
  | some c =>
    if c.svrInfo_ = svr then some c else ms.slave_.find? (·.svrInfo_ = svr)
  | none => ms.slave_.find? (·.svrInfo_ = svr)

/-- `getRedisClient(clusterInfo, ipaddr, port)`. -/
def RedisClusterInfo.getRedisClient (info : RedisClusterInfo) (svr : RedisSvrInfo) : Option RedisCli :=
  info.clusterVectInfo_.findSome? (·.clusterNode_.getRedisClient svr)

/-- The client that the manager has for an address: of the cluster, or, before there is one, of the
first node. -/
def RedisClientMgr.knownCli (mgr : RedisClientMgr) (svr : RedisSvrInfo) : Option RedisCli :=
  match mgr.cluterCli_ with
  | some info => info.getRedisClient svr
  | none => mgr.nodeCli_.filter (·.svrInfo_ = svr)

/-! ## Tokens -/

/-- `analysisSvrInfo(svrInfoStr)`: the text before the first `:`, and the number behind it. -/
def analysisSvrInfo (svrInfoStr : Bytes) : Option RedisSvrInfo :=
  if svrInfoStr = [] then none
  else
    match findByte 58 svrInfoStr with
    | none => none
    | some pos => some ⟨svrInfoStr.take pos, atoi (svrInfoStr.drop (pos + 1))⟩

/-- `static_cast<uint16_t>(atoi(s))`. -/
def atoi16 (s : Bytes) : UInt16 := (atoi s).toUInt32.toUInt16

/-- What the loop over the slot tokens makes of one. -/
def slotsInfo (token : Bytes) : SlotsInfo :=
  match findByte 45 token with
  | none => ⟨atoi16 token, atoi16 token⟩
  | some pos => ⟨atoi16 (token.take pos), atoi16 (token.drop (pos + 1))⟩

/-- `for(uint16_t jj = …; jj <= slotEnd_; jj++)`. After `2^16 + 1` turns it never ends. -/
def slotLoop (cli : RedisCli) (slotEnd_ : UInt16) : Nat → UInt16 → SlotCliInfoMap →
    Option SlotCliInfoMap
  | 0, _, _ => none
  | fuel + 1, jj, m =>
    if jj ≤ slotEnd_ then slotLoop cli slotEnd_ fuel (jj + 1) (m.insertNew jj cli) else some m

def insertSlots (cli : RedisCli) : List SlotsInfo → SlotCliInfoMap → Option SlotCliInfoMap
  | [], m => some m
  | slots :: rest, m =>
    match slotLoop cli slots.slotEnd_ (2 ^ 16 + 1) slots.slotStart_ m with
    | none => none
    | some m => insertSlots cli rest m

/-! ## Lines -/

def ANALYSIS_STRING_FORMATE_ERROR : Int := -1

/-- The local variables of `analysisClusterNodes`, and what it has done to its reference arguments
`ioIndex` and `addRedisCli`. -/
structure Analysis where
  ioIndex : UInt32
  created : Nat
  addRedisCli : List RedisCli
  masterConn : Nat
  slaveConn : Nat
  tmpClusterInfo : Option RedisClusterInfo

section

variable (mgr : RedisClientMgr) (ioThreadNum : Nat)

/-- The client for an address: a known one, or a new one. -/
def getOrNew (svr : RedisSvrInfo) (s : Analysis) : RedisCli × Analysis :=
  match mgr.knownCli svr with
  | some cli => (cli, s)
  | none =>
    let ioIndex := s.ioIndex + 1
    let cli : RedisCli := ⟨s.created, svr, ioIndex.toNat % ioThreadNum, .init⟩
    (cli, { s with
      ioIndex := ioIndex, created := s.created + 1, addRedisCli := s.addRedisCli ++ [cli] })

/-- The loop over all lines for the replicas of `nodeId`. -/
def slaveLoop (nodeId : Bytes) : List Bytes → List RedisCli → Analysis →
    Int × List RedisCli × Analysis
  | [], slave_, s => (0, slave_, s)
  | line :: vLines, slave_, s =>
    let tmpSalveInfo := split line [32]
    if tmpSalveInfo.length < 8 then (ANALYSIS_STRING_FORMATE_ERROR, slave_, s)
    else if nodeId = tmpSalveInfo.getD 3 [] then
      match analysisSvrInfo (tmpSalveInfo.getD 1 []) with
      | none => (ANALYSIS_STRING_FORMATE_ERROR, slave_, s)
      | some slaveInfo =>
        let (tmpCli, s) := getOrNew mgr ioThreadNum slaveInfo s
        let s := if tmpCli.state_ = .conn then { s with slaveConn := s.slaveConn + 1 } else s
        slaveLoop nodeId vLines (slave_ ++ [tmpCli]) s
    else slaveLoop nodeId vLines slave_ s

/-- A master line. -/
def masterLine (vLines nodeInfo : List Bytes) (s : Analysis) : Option (Int × Analysis) :=
  if nodeInfo.length < 9 then some (ANALYSIS_STRING_FORMATE_ERROR, s)
  else
    match analysisSvrInfo (nodeInfo.getD 1 []) with
    | none => some (ANALYSIS_STRING_FORMATE_ERROR, s)
    | some masterInfo =>
      let (tmpCli, s) := getOrNew mgr ioThreadNum masterInfo s
      let s := if tmpCli.state_ = .conn then { s with masterConn := s.masterConn + 1 } else s
      let vectSlotInfo_ := (nodeInfo.drop 8).map slotsInfo
      let info := s.tmpClusterInfo.getD ⟨fun _ => none, []⟩
      match insertSlots tmpCli vectSlotInfo_ info.clusterSlotMap_ with
      | none => none
      | some slotMap =>
        let (ret, slave_, s) := slaveLoop mgr ioThreadNum (nodeInfo.getD 0 []) vLines [] s
        let node : RedisClusterNode := ⟨nodeInfo.getD 0 [], vectSlotInfo_, ⟨some tmpCli, slave_⟩⟩
        some (ret, { s with
          tmpClusterInfo := some ⟨slotMap, info.clusterVectInfo_ ++ [node]⟩ })

/-- `strstr(flags, "master")`. -/
def isMasterFlags (flags : Bytes) : Bool :=
  (findSub [109, 97, 115, 116, 101, 114] (cstr flags)).isSome

/-- The loop over the lines. -/
def nodesLoop (vLines : List Bytes) : List Bytes → Analysis → Option (Int × Analysis)
  | [], s => some (0, s)
  | line :: lines, s =>
    let nodeInfo := split line [32]
    if nodeInfo.length < 8 then some (ANALYSIS_STRING_FORMATE_ERROR, s)
    else if isMasterFlags (nodeInfo.getD 2 []) then
      match masterLine mgr ioThreadNum vLines nodeInfo s with
      | none => none
      | some (ret, s) => if ret = 0 then nodesLoop vLines lines s else some (ret, s)
    else nodesLoop vLines lines s

/-- `analysisClusterNodes`, called with an empty `addRedisCli`. The result is the return value, the
manager and the local variables; `none` if it does not end. -/
def analysisClusterNodes (clusterNodes : Bytes) (ioIndex : UInt32) (created : Nat) :
    Option (Int × RedisClientMgr × Analysis) :=
  let s : Analysis := ⟨ioIndex, created, [], 0, 0, none⟩
  if clusterNodes = [] then some (ANALYSIS_STRING_FORMATE_ERROR, mgr, s)
  else
    match nodesLoop mgr ioThreadNum (split clusterNodes [10]) (split clusterNodes [10]) s with
    | none => none
    | some (ret, s) =>
      if ret = 0 then
        some (0, { mgr with
          cluterCli_ := s.tmpClusterInfo, masterConn_ := s.masterConn, slaveConn_ := s.slaveConn }, s)
      else some (ret, mgr, s)

end

end RedisAsyn
end CmakeFrame
