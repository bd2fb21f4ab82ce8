import CmakeFrame.RedisAsyn.AnalysisNodes

/-!
# `rediscluster/RedisClusterNode.h`, `RedisClusterNode.cpp`: a node and its connections

* `NodeInfo`: a node of the cluster, with `parseNodeString` and `parseSlotString`.
* `RedisClusterNode`: the pool of the connections to one node; `init`, `getRedisClient`,
  `releaseRedisClient`, `removeRedisClient`, `stop`.

A client is known by the number of clients that were made before it. Whether its `connect()` succeeds
is for the network to say (`Connect`).
-/

namespace CmakeFrame
namespace RedisCluster

open Lib

/-- `ipStr` and `port` of a server. -/
abbrev Addr := RedisAsyn.RedisSvrInfo

/-- Whether the client connects to the address. -/
abbrev Connect := Nat → Addr → Bool

/-! ## `NodeInfo` -/

abbrev SlotsInfo := RedisAsyn.SlotsInfo

structure NodeInfo where
  id : Bytes
  addr : Addr
  slots : List SlotsInfo
  deriving DecidableEq, Repr

namespace NodeInfo

/-- `ParseNodeString`. Without a colon the members stay as they are; nobody looks at what it returns. -/
def parseNodeString (nodeStr : Bytes) (node : NodeInfo) : NodeInfo :=
  match findByte 58 nodeStr with
  | none => node
  | some pos => { node with addr := ⟨nodeStr.take pos, atoi (nodeStr.drop (pos + 1))⟩ }

/-- `ParseSlotString`, which reads a token as `analysisClusterNodes` does. -/
def parseSlotString (slotStr : Bytes) (node : NodeInfo) : NodeInfo :=
  { node with slots := node.slots ++ [RedisAsyn.slotsInfo slotStr] }

end NodeInfo

/-! ## `RedisClusterNode` -/

def kMinSize : Int32 := 1
def kMaxSize : Int32 := 64

structure RedisClusterNode where
  bStatus_ : Bool
  info_ : NodeInfo
  minSize_ : Int32
  maxSize_ : Int32
  timeout_ : Int32
  password_ : Bytes
  useMap_ : List Nat
  idleList_ : List Nat
  deriving DecidableEq, Repr

namespace RedisClusterNode

/-- The loop of `init` that connects the first clients; `created` is how many there are so far. -/
def initLoop (connect : Connect) : Nat → RedisClusterNode → Nat → Bool × RedisClusterNode × Nat
  | 0, node, created => (true, node, created)
  | n + 1, node, created =>
    if connect created node.info_.addr then
      initLoop connect n { node with idleList_ := node.idleList_ ++ [created] } (created + 1)
    else (false, node, created + 1)

/-- A new node and its `init(info, minSize, maxSize, timeout, password)`. -/
def init (connect : Connect) (info : NodeInfo) (minSize maxSize timeout : Int32) (password : Bytes)
    (created : Nat) : Bool × RedisClusterNode × Nat :=
  let node : RedisClusterNode :=
    { bStatus_ := true
      info_ := info
      minSize_ := if minSize < kMinSize then kMinSize else minSize
      maxSize_ := if maxSize > kMaxSize then kMaxSize else maxSize
      timeout_ := timeout
      password_ := password
      useMap_ := []
      idleList_ := [] }
  if node.minSize_ > node.maxSize_ then (false, node, created)
  else initLoop connect node.minSize_.toInt.toNat node created

/-- `getRedisClient()`: an idle client, or a new one. -/
def getRedisClient (connect : Connect) (node : RedisClusterNode) (created : Nat) :
    Option Nat × RedisClusterNode × Nat :=
  match node.idleList_ with
  | c :: idleList_ =>
    (some c, { node with idleList_ := idleList_, useMap_ := node.useMap_ ++ [c] }, created)
  | [] =>
    if (node.useMap_.length : Int) < node.maxSize_.toInt then
      if connect created node.info_.addr then
        (some created, { node with useMap_ := node.useMap_ ++ [created] }, created + 1)
      else if node.useMap_ = [] then (none, { node with bStatus_ := false }, created + 1)
      else (none, node, created + 1)
    else (none, node, created)

def releaseRedisClient (client : Nat) (node : RedisClusterNode) : RedisClusterNode :=
  if client ∈ node.useMap_ then
    { node with idleList_ := node.idleList_ ++ [client], useMap_ := node.useMap_.erase client }
  else node

def removeRedisClient (client : Nat) (node : RedisClusterNode) : RedisClusterNode :=
  if client ∈ node.useMap_ then
    let node := { node with useMap_ := node.useMap_.erase client }
    if node.useMap_ = [] ∧ node.idleList_ = [] then { node with bStatus_ := false } else node
  else node

/-- `RedisClient::recycle()` for a client of the node; `connStatus_` is whether its last command went
through. -/
def recycle (client : Nat) (connStatus_ : Bool) (node : RedisClusterNode) : RedisClusterNode :=
  if connStatus_ then node.releaseRedisClient client else node.removeRedisClient client

/-- The clients that the node has. -/
def clients (node : RedisClusterNode) : List Nat := node.idleList_ ++ node.useMap_

/-- `stop()`, which deletes them all. -/
def stop (node : RedisClusterNode) : RedisClusterNode := { node with idleList_ := [], useMap_ := [] }

end RedisClusterNode

end RedisCluster
end CmakeFrame
