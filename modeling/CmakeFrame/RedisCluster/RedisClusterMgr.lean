import CmakeFrame.RedisCluster.KeySlot
import CmakeFrame.RedisCluster.RedisClusterNode

/-!
# `rediscluster/RedisClusterMgr.cpp`

The manager asks a node of the cluster for all of them, connects to those that it does not know yet,
and looks up the node of a key in `slotMap_`. When the node of a key has failed, it asks again.

* `Net`: what the network does during one call.
* `getClusterNodesInfo`, `connectClusterNode`: the reply to `CLUSTER NODES`, and one of its nodes.
* `init`, `init2`, `getConnection`, `findNodeConnection`.

The nodes of `slotMap_` are shared pointers: `heap` holds the nodes that were made, `slotMap_` and
the rest name them by their number there. Calls come one after the other. `none` is a call that uses
a null pointer or does not end.
-/

namespace CmakeFrame
namespace RedisCluster

open Lib

/-! ## The network -/

/-- What `connect()` gives for each client, and the `str` of the replies to `INFO`, `CLUSTER INFO` and
`CLUSTER NODES`, if there is one: a call asks no more than one server. -/
structure Net where
  connect : Connect
  info : Option Bytes
  clusterInfo : Option Bytes
  clusterNodes : Option Bytes

/-! ## Replies -/

/-- `split(str, delim, result)`, the same code as in `redisAsyn`. -/
def split (str delim : Bytes) : List Bytes := RedisAsyn.split str delim

/-- `cluster_enabled:` -/
def clusterEnabledText : Bytes :=
  [99, 108, 117, 115, 116, 101, 114, 95, 101, 110, 97, 98, 108, 101, 100, 58]

/-- `clusterEnabled`. -/
def clusterEnabled (reply : Option Bytes) : Bool :=
  match reply with
  | none => false
  | some str =>
    match findSub clusterEnabledText (cstr str) with
    | none => false
    | some p => [49].isPrefixOf ((cstr str).drop (p + clusterEnabledText.length))

/-- `clusterInfo`: what stands behind the first colon. There has to be one. -/
def clusterInfo (reply : Option Bytes) : Option Bool :=
  match reply with
  | none => some false
  | some str =>
    match findByte 58 (cstr str) with
    | none => none
    | some p => some ([111, 107].isPrefixOf ((cstr str).drop (p + 1)))

/-- `master,fail` -/
def masterFailText : Bytes := [109, 97, 115, 116, 101, 114, 44, 102, 97, 105, 108]

/-- `strstr(flags, str) != NULL`. -/
def hasText (flags str : Bytes) : Bool := (findSub str (cstr flags)).isSome

/-- The node is no slave and no master that has failed. -/
def isLive (flags : Bytes) : Bool :=
  hasText flags [109, 97, 115, 116, 101, 114] ∧ ¬ hasText flags masterFailText ∧
    ¬ hasText flags ([109, 121, 115, 101, 108, 102, 44] ++ masterFailText)

/-- The node of a line; its address is `addr` before it is parsed. -/
def lineNode (addr : Addr) (nodeInfo : List Bytes) : NodeInfo :=
  (nodeInfo.drop 8).foldl (fun node token => node.parseSlotString token)
    (NodeInfo.parseNodeString (nodeInfo.getD 1 []) ⟨nodeInfo.getD 0 [], addr, []⟩)

/-- The loop of `getClusterNodesInfo`: what it returns, and `nodes_`. A `NodeInfo` is not initialised
before it is parsed. -/
def nodesLoop (uninit : Addr) : List Bytes → List NodeInfo → Bool × List NodeInfo
  | [], nodes_ => (true, nodes_)
  | line :: vLines, nodes_ =>
    let nodeInfo := split line [32]
    if nodeInfo.length < 8 then (false, nodes_)
    else if isLive (nodeInfo.getD 2 []) then
      if nodeInfo.length < 9 then (false, nodes_)
      else nodesLoop uninit vLines (nodes_ ++ [lineNode uninit nodeInfo])
    else nodesLoop uninit vLines nodes_

/-! ## The manager -/

structure RedisClusterMgr where
  bStatus_ : Bool
  fullCoverage_ : Int32
  brokers_ : Bytes
  ipStr_ : Bytes
  port_ : Int32
  minSize_ : Int32
  maxSize_ : Int32
  timeout_ : Int32
  password_ : Bytes
  nodes_ : List NodeInfo
  nodesStatus_ : Bytes → Option Bool
  slotMap_ : UInt16 → Option Nat
  heap : List RedisClusterNode
  created : Nat

namespace RedisClusterMgr

/-- A new manager; `fullCoverage_` is not initialised. -/
def new (uninit : Int32) : RedisClusterMgr where
  bStatus_ := true
  fullCoverage_ := uninit
  brokers_ := []
  ipStr_ := [49, 50, 55, 46, 48, 46, 48, 46, 49]
  port_ := 7000
  minSize_ := 1
  maxSize_ := 8
  timeout_ := 15
  password_ := []
  nodes_ := []
  nodesStatus_ := fun _ => none
  slotMap_ := fun _ => none
  heap := []
  created := 0

/-- `getClusterNodesInfo`; a missing reply leaves `nodes_`. -/
def getClusterNodesInfo (uninit : Addr) (reply : Option Bytes) (mgr : RedisClusterMgr) :
    Bool × RedisClusterMgr :=
  match reply with
  | none => (false, mgr)
  | some str =>
    let (bRet, nodes_) := nodesLoop uninit (split (cstr str) [10]) []
    (bRet, { mgr with nodes_ := nodes_ })

/-- `for (uint16_t pos = …; pos <= slotEnd; pos++) slotMap_[pos] = clusterNode`. After `2^16 + 1` turns
it never ends. -/
def slotLoop (node : Nat) (slotEnd : UInt16) :
    Nat → UInt16 → (UInt16 → Option Nat) → Option (UInt16 → Option Nat)
  | 0, _, _ => none
  | fuel + 1, pos, m =>
    if pos ≤ slotEnd then slotLoop node slotEnd fuel (pos + 1) (Function.update m pos (some node))
    else some m

def assignSlots (node : Nat) : List SlotsInfo → (UInt16 → Option Nat) → Option (UInt16 → Option Nat)
  | [], m => some m
  | slots :: rest, m =>
    match slotLoop node slots.slotEnd_ (2 ^ 16 + 1) slots.slotStart_ m with
    | none => none
    | some m => assignSlots node rest m

/-- `connectClusterNode`. A node that is known is left as it is. -/
def connectClusterNode (connect : Connect) (node : NodeInfo) (mgr : RedisClusterMgr) :
    Option (Bool × RedisClusterMgr) :=
  if mgr.nodesStatus_ node.id = some true then some (true, mgr)
  else
    match RedisClusterNode.init connect node mgr.minSize_ mgr.maxSize_ mgr.timeout_ mgr.password_
      mgr.created with
    | (false, _, created) => some (false, { mgr with created := created })
    | (true, clusterNode, created) =>
      match assignSlots mgr.heap.length node.slots mgr.slotMap_ with
      | none => none
      | some slotMap_ =>
        some (true, { mgr with
          slotMap_ := slotMap_, created := created, heap := mgr.heap ++ [clusterNode]
          nodesStatus_ := Function.update mgr.nodesStatus_ node.id
            (some ((mgr.nodesStatus_ node.id).getD true)) })

/-- The loop over `nodes_`. -/
def connectLoop (connect : Connect) : List NodeInfo → RedisClusterMgr → Option (Int × RedisClusterMgr)
  | [], mgr => some (0, mgr)
  | node :: nodes, mgr =>
    match connectClusterNode connect node mgr with
    | none => none
    | some (false, mgr) => some (-1, mgr)
    | some (true, mgr) => connectLoop connect nodes mgr

/-- What `init` and `init2` do with a server that they are connected to. -/
def askNode (net : Net) (uninit : Addr) (mgr : RedisClusterMgr) : Option (Int × RedisClusterMgr) :=
  if clusterEnabled net.info then
    match clusterInfo net.clusterInfo with
    | none => none
    | some false => some (-1, mgr)
    | some true =>
      match mgr.getClusterNodesInfo uninit net.clusterNodes with
      | (false, mgr) => some (-1, mgr)
      | (true, mgr) => connectLoop net.connect mgr.nodes_ mgr
  else some (-1, mgr)

def init (net : Net) (uninit : Addr) (ipStr : Bytes) (port minSize maxSize timeout : Int32)
    (password : Bytes) (fullCoverage : Int32) (mgr : RedisClusterMgr) :
    Option (Int × RedisClusterMgr) :=
  let client := mgr.created
  let mgr := { mgr with
    ipStr_ := ipStr, port_ := port, minSize_ := minSize, maxSize_ := maxSize, timeout_ := timeout
    password_ := password, fullCoverage_ := fullCoverage, created := mgr.created + 1 }
  if net.connect client ⟨ipStr, port⟩ then mgr.askNode net uninit else some (-1, mgr)

/-- The loop of `init2` over the brokers. -/
def brokersLoop (net : Net) (uninit : Addr) :
    List Bytes → RedisClusterMgr → Option (Int × RedisClusterMgr)
  | [], mgr => some (-1, mgr)
  | broker :: result, mgr =>
    match findByte 58 broker with
    | none => some (-1, mgr)
    | some index =>
      let client := mgr.created
      let mgr := { mgr with created := mgr.created + 1 }
      if net.connect client ⟨broker.take index, atoi (broker.drop (index + 1))⟩ then
        mgr.askNode net uninit
      else brokersLoop net uninit result mgr

def init2 (net : Net) (uninit : Addr) (brokers : Bytes) (minSize maxSize timeout : Int32)
    (password : Bytes) (fullCoverage : Int32) (mgr : RedisClusterMgr) :
    Option (Int × RedisClusterMgr) :=
  let mgr := { mgr with
    brokers_ := brokers, minSize_ := minSize, maxSize_ := maxSize, timeout_ := timeout
    password_ := password, fullCoverage_ := fullCoverage }
  -- without a broker the loop ends at once, with the same result
  brokersLoop net uninit (split brokers [44]) mgr

/-- `it->second->getRedisClient()` for the node `k`. -/
def getRedisClient (connect : Connect) (k : Nat) (mgr : RedisClusterMgr) :
    Option (Option Nat × RedisClusterMgr) :=
  match mgr.heap[k]? with
  | none => none
  | some node =>
    let (client, node, created) := node.getRedisClient connect mgr.created
    some (client, { mgr with heap := mgr.heap.set k node, created := created })

/-- The reconnect of `getConnection` for the node `node`. -/
def reconnect (net : Net) (uninit : Addr) (node : RedisClusterNode) (mgr : RedisClusterMgr) :
    Option (Int × RedisClusterMgr) :=
  let mgr := { mgr with
    bStatus_ := false, nodesStatus_ := Function.update mgr.nodesStatus_ node.info_.id none }
  (mgr.init2 net uninit mgr.brokers_ mgr.minSize_ mgr.maxSize_ mgr.timeout_ mgr.password_ 0).map
    fun r => if r.1 = 0 then (0, { r.2 with bStatus_ := true }) else r

/-- `getConnection(slotIndex)`: the client, or `none` for a null pointer. -/
def getConnection (net : Net) (uninit : Addr) (slotIndex : UInt16) (mgr : RedisClusterMgr) :
    Option (Option Nat × RedisClusterMgr) :=
  match mgr.slotMap_ slotIndex with
  | none => some (none, mgr)
  | some k =>
    match mgr.heap[k]? with
    | none => none
    | some node =>
      if node.bStatus_ then mgr.getRedisClient net.connect k
      else
        match mgr.reconnect net uninit node with
        | none => none
        | some (ret, mgr) =>
          if ret ≠ 0 then some (none, mgr)
          else
            -- an entry of `slotMap_` does not go away
            match mgr.slotMap_ slotIndex with
            | none => none
            | some k => mgr.getRedisClient net.connect k

def findNodeConnection (net : Net) (uninit : Addr) (key : Bytes) (mgr : RedisClusterMgr) :
    Option (Option Nat × RedisClusterMgr) :=
  if mgr.bStatus_ = false ∧ mgr.fullCoverage_ ≠ 0 then some (none, mgr)
  else mgr.getConnection net uninit (getKeySlotIndex key)

end RedisClusterMgr

end RedisCluster
end CmakeFrame
