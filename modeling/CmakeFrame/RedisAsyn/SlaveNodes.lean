import CmakeFrame.RedisAsyn.Recount

/-!
# `analysisSlaveNodes` and `infoReplicationCb`

The reply to `INFO REPLICATION` becomes a new `mSlaveCli_`. A master names its slaves, a slave names
its master.

* `slaveAddr`: the address in a line of a slave.
* `roleMaster`, `roleSlave`, `analysisSlaveNodes`: the analysis. `none` if a line is used that is
  not there, or a null pointer.
* `replaceNodeCli`, `infoReplicationCb`: the callback.
* `redisAsyncCommand`: the client that gets a command.
-/

namespace CmakeFrame
namespace RedisAsyn

open Lib

/-! ## Lines -/

/-- `str.find(c, from)`. -/
def findByteFrom (c : UInt8) (s : Bytes) (from_ : Nat) : Option Nat :=
  (findByte c (s.drop from_)).map (from_ + ·)

/-- `str.substr(begin + 1, end - begin - 1)`. An `end` before `begin` wraps, and gives the rest. -/
def between (s : Bytes) (beginPos endPos : Nat) : Bytes :=
  if beginPos < endPos then (s.drop (beginPos + 1)).take (endPos - beginPos - 1)
  else s.drop (beginPos + 1)

/-- `slave0:ip=…,port=…,…`: what stands between the first `=` and the first `,`, and between the
next ones. -/
def slaveAddr (line : Bytes) : Option RedisSvrInfo :=
  match findByte 61 line, findByte 44 line with
  | some beginPos, some endPos =>
    match findByteFrom 61 line endPos with
    | none => none
    | some beginPos' =>
      match findByteFrom 44 line beginPos' with
      | none => none
      | some endPos' => some ⟨between line beginPos endPos, atoi (between line beginPos' endPos')⟩
  | _, _ => none

/-- `line.substr(line.find(':') + 1)`. -/
def afterColon (line : Bytes) : Option Bytes := (findByte 58 line).map fun pos => line.drop (pos + 1)

/-! ## The analysis -/

section

variable (mgr : RedisMgr) (ioThreadNum : Nat)

/-- The client of `mSlaveCli_` with the address, or a new one. -/
def getOrNewSlave (svr : RedisSvrInfo) (s : Analysis) : RedisCli × Analysis :=
  match mgr.mSlaveCli_.bind (·.getRedisClient svr) with
  | some cli => (cli, s)
  | none =>
    let ioIndex := s.ioIndex + 1
    let cli : RedisCli := ⟨s.created, svr, ioIndex.toNat % ioThreadNum, .init⟩
    (cli, { s with
      ioIndex := ioIndex, created := s.created + 1, addRedisCli := s.addRedisCli ++ [cli] })

/-- The loop over `slaveNum` lines; `lines` are the ones from the next on. -/
def slaveLines : Nat → List Bytes → List RedisCli → Analysis → Option (Int × List RedisCli × Analysis)
  | 0, _, slave_, s => some (0, slave_, s)
  | _ + 1, [], _, _ => none
  | slaveNum + 1, line :: lines, slave_, s =>
    match slaveAddr line with
    | none => some (ANALYSIS_STRING_FORMATE_ERROR, slave_, s)
    | some svr =>
      let (tmpCli, s) := getOrNewSlave mgr ioThreadNum svr s
      let s := if tmpCli.state_ = .conn then { s with slaveConn := s.slaveConn + 1 } else s
      slaveLines slaveNum lines (slave_ ++ [tmpCli]) s

/-- What the analysis gives: its result, and the new `mSlaveCli_` and `nodeCli_`. -/
structure SlaveResult where
  ret : Int
  mSlaveCli_ : RedisMasterSlave
  nodeCli_ : RedisCli
  out : Analysis

/-- `role:master`: the node is the master, and the lines from `vLines[3]` on name its slaves. -/
def roleMaster (node : RedisCli) (vLines : List Bytes) (s : Analysis) : Option SlaveResult :=
  let s := if node.state_ = .conn then { s with masterConn := s.masterConn + 1 } else s
  match vLines[2]? with
  | none => none
  | some line =>
    match afterColon line with
    | none => some ⟨ANALYSIS_STRING_FORMATE_ERROR, ⟨some node, []⟩, node, s⟩
    | some slaveNumStr =>
      (slaveLines mgr ioThreadNum (atoi slaveNumStr).toInt.toNat (vLines.drop 3) [] s).map fun r =>
        ⟨r.1, ⟨some node, r.2.1⟩, node, r.2.2⟩

/-- Any other role: the node is a slave, and the two lines behind it name its master. -/
def roleSlave (node : RedisCli) (vLines : List Bytes) (s : Analysis) : Option SlaveResult :=
  let s := if node.state_ = .conn then { s with slaveConn := s.slaveConn + 1 } else s
  let formateError : SlaveResult := ⟨ANALYSIS_STRING_FORMATE_ERROR, ⟨none, [node]⟩, node, s⟩
  match vLines[2]? with
  | none => none
  | some line =>
    match afterColon line with
    | none => some formateError
    | some ipaddr =>
      match vLines[3]? with
      | none => none
      | some line' =>
        match afterColon line' with
        | none => some formateError
        | some portStr =>
          let (tmpCli, s) := getOrNewSlave mgr ioThreadNum ⟨ipaddr, atoi portStr⟩ s
          if tmpCli.state_ = .conn then
            some ⟨1, ⟨some tmpCli, [node]⟩, tmpCli, { s with masterConn := s.masterConn + 1 }⟩
          else some ⟨1, ⟨some tmpCli, [node]⟩, node, s⟩

/-- `role:master` -/
def roleMasterText : Bytes := [114, 111, 108, 101, 58, 109, 97, 115, 116, 101, 114]

/-- `analysisSlaveNodes`, called with an empty `addRedisCli`: the return value, the manager and the
local variables. -/
def analysisSlaveNodes (clusterNodes : Bytes) (ioIndex : UInt32) (created : Nat) :
    Option (Int × RedisMgr × Analysis) :=
  let s : Analysis := ⟨ioIndex, created, [], 0, 0, none⟩
  if clusterNodes = [] then some (ANALYSIS_STRING_FORMATE_ERROR, mgr, s)
  else
    let vLines := split clusterNodes [10]
    match vLines[1]?, mgr.nodeCli_ with
    | some line, some node =>
      let r :=
        if (findSub roleMasterText line).isSome then roleMaster mgr ioThreadNum node vLines s
        else roleSlave mgr ioThreadNum node vLines s
      r.map fun r =>
        if r.ret < 0 then (r.ret, mgr, r.out)
        else
          (r.ret, { mgr with
            mSlaveCli_ := some r.mSlaveCli_, nodeCli_ := some r.nodeCli_
            masterConn_ := r.out.masterConn, slaveConn_ := r.out.slaveConn }, r.out)
    | _, _ => none

end

/-! ## The callback -/

/-- A `nodeCli_` that is not connected is replaced: by a connected master, and that one by the first
connected slave. `none` if there is no `mSlaveCli_`. -/
def RedisMgr.replaceNodeCli (mgr : RedisMgr) : Option RedisMgr :=
  if mgr.nodeCli_.all (·.state_ = .init) then
    mgr.mSlaveCli_.map fun ms =>
      let master := ms.master_.filter (·.state_ = .conn)
      let slave := ms.slave_.find? (·.state_ = .conn)
      { mgr with nodeCli_ := (slave.or master).or mgr.nodeCli_ }
  else some mgr

/-- The states behind a new `mSlaveCli_`. -/
def afterReplic (mgr : RedisMgr) : RedisMgr × List Effect :=
  if mgr.masterConn_ = 1 ∧ mgr.initState_ ≠ .runing then goRuning mgr
  else if mgr.masterConn_ = 0 ∧ mgr.initState_ = .runing then
    let state : SvrState := if mgr.slaveConn_ ≠ 0 then .exception else .error
    ({ mgr with initState_ := state },
      [.asyncExceCallBack .masterSlaveNodesChange mgr.inSvrInfoStr_,
        .asyncStateCallBack state mgr.inSvrInfoStr_])
  else (mgr, [])

/-- `infoReplicationCb(ret, priv, resultMsg)`; it does not look at `ret`. -/
def infoReplicationCb (ioThreadNum : Nat) (mgr : RedisMgr) (ioIndex : UInt32) (created : Nat)
    (resultMsg : List Bytes) : Option Replied :=
  if mgr.initState_ = .invalid then some ⟨mgr, [], ioIndex, created, none⟩
  else
    match resultMsg with
    | [] => none
    | text :: _ =>
      match analysisSlaveNodes mgr ioThreadNum text ioIndex created with
      | none => none
      | some (result, mgr, out) =>
        let (mgr, effects) := if result < 0 then (mgr, []) else afterReplic mgr
        let orders := if result < 0 then [] else out.addRedisCli.map .libeventIoOrder
        let created := if result < 0 then created else out.created
        let added := if result < 0 then none else some out.addRedisCli
        if result = 0 then some ⟨mgr, orders ++ effects, out.ioIndex, created, added⟩
        else
          mgr.replaceNodeCli.map fun mgr =>
            ⟨mgr, orders ++ effects ++ [.infoReplicNodesUpdate (mgr.masterConn_ = 0)], out.ioIndex,
              created, added⟩

/-! ## Commands -/

def CMD_PARAMETER_ERROR_CODE : Int := -1
def CMD_SVR_STATE_ERROR_CODE : Int := -2
def CMD_SVR_INVALID_CODE : Int := -4
def CMD_SLOTS_CALCUL_ERROR_CODE : Int := -6
def CMD_SVR_NODES_DOWN : Int := -7

def REDIS_CLUSTER_MAX_SLOT : UInt16 := 16383

/-- `getRedisClient(clusterMgr, slot)`: a connected slave of the node that has the slot. -/
def RedisMgr.slotSlave (mgr : RedisMgr) (slot : UInt16) : Option RedisCli :=
  mgr.cluterCli_.bind fun info =>
    (info.clusterVectInfo_.find? (·.covers slot)).bind (·.clusterNode_.slave_.find? (·.state_ = .conn))

/-- The client that the type of the manager gives. -/
def RedisMgr.cmdClient (mgr : RedisMgr) (slot : UInt16) : Except Int (Option RedisCli) :=
  match mgr.svrType_ with
  | .unknown => .error CMD_SVR_INVALID_CODE
  | .single => .ok mgr.nodeCli_
  | .masterSlave => .ok mgr.nodeCli_
  | .cluster =>
    if slot > REDIS_CLUSTER_MAX_SLOT then .error CMD_SLOTS_CALCUL_ERROR_CODE
    else
      match mgr.cluterCli_ with
      | none => .error CMD_SVR_INVALID_CODE
      | some info =>
        match info.clusterSlotMap_ slot with
        | none => .error CMD_SVR_NODES_DOWN
        | some cli => .ok (if cli.state_ = .init then mgr.slotSlave slot else some cli)

/-- `redisAsyncCommand` with the manager of its handle: the error code, or, if it returns 0, the
client that it queues the command on. `slot` is `getKeySlotIndex(key)`. -/
def redisAsyncCommand (mgr : RedisMgr) (slot : UInt16) (outSecond : Int32) (key cmdStr : Bytes) :
    Except Int RedisCli :=
  if key = [] ∨ cmdStr = [] ∨ outSecond = 0 then .error CMD_PARAMETER_ERROR_CODE
  else if mgr.initState_ = .init ∨ mgr.initState_ = .error ∨ mgr.initState_ = .invalid then
    .error CMD_SVR_STATE_ERROR_CODE
  else
    match mgr.cmdClient slot with
    | .error code => .error code
    | .ok none => .error CMD_SVR_NODES_DOWN
    | .ok (some cli) => if cli.state_ = .init then .error CMD_SVR_NODES_DOWN else .ok cli

end RedisAsyn
end CmakeFrame
