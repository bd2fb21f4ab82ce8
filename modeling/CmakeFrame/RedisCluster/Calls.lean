import CmakeFrame.Lib.Sys
import CmakeFrame.RedisCluster.RedisClusterMgr

/-!
# `rediscluster`: calls of `findNodeConnection` side by side

The manager of `RedisClusterMgr` with any number of threads in `findNodeConnection` and `recycle`. A
step is what one thread does up to the next point where another one may come in: a reconnect is made
under `initMtx_`, but the others go on reading `slotMap_` while it writes one entry after the other.
The pools of the nodes have a mutex of their own.

A node is deleted, with all its clients, when the last `shared_ptr` to it goes away. A client knows its
node as `manager_`, a plain pointer.

* `FindPc`, `Init2Pc`: where a call is; `SharedMgr`: the state.
* `findStep`, `init2Step`, `recycleStep`: the steps; `Setup`, `callSystem`: the system.
* `brokersLoop_eq`: `init2` is asking, and then the loop over the nodes.
-/

namespace CmakeFrame
namespace RedisCluster

open Lib

/-! ## `init2` up to the loop over the nodes -/

namespace RedisClusterMgr

/-- What `init` and `init2` do with a server that they are connected to, up to the loop over `nodes_`:
whether they get there. -/
def askNodes (net : Net) (uninit : Addr) (mgr : RedisClusterMgr) : Option (Bool × RedisClusterMgr) :=
  if clusterEnabled net.info then
    match clusterInfo net.clusterInfo with
    | none => none
    | some false => some (false, mgr)
    | some true => some (mgr.getClusterNodesInfo uninit net.clusterNodes)
  else some (false, mgr)

/-- `init`, when it has stored its arguments. -/
def askServer (net : Net) (uninit : Addr) (mgr : RedisClusterMgr) : Option (Bool × RedisClusterMgr) :=
  let client := mgr.created
  let mgr := { mgr with created := mgr.created + 1 }
  if net.connect client ⟨mgr.ipStr_, mgr.port_⟩ then mgr.askNodes net uninit else some (false, mgr)

/-- The loop of `init2` over the brokers. -/
def askBrokers (net : Net) (uninit : Addr) :
    List Bytes → RedisClusterMgr → Option (Bool × RedisClusterMgr)
  | [], mgr => some (false, mgr)
  | broker :: result, mgr =>
    match findByte 58 broker with
    | none => some (false, mgr)
    | some index =>
      let client := mgr.created
      let mgr := { mgr with created := mgr.created + 1 }
      if net.connect client ⟨broker.take index, atoi (broker.drop (index + 1))⟩ then
        mgr.askNodes net uninit
      else askBrokers net uninit result mgr

/-- The rest of `init` and `init2`, when they have asked. -/
def connectNodes (connect : Connect) : Bool × RedisClusterMgr → Option (Int × RedisClusterMgr)
  | (false, mgr) => some (-1, mgr)
  | (true, mgr) => connectLoop connect mgr.nodes_ mgr

theorem askNode_eq (net : Net) (uninit : Addr) (mgr : RedisClusterMgr) :
    mgr.askNode net uninit = (mgr.askNodes net uninit).bind (connectNodes net.connect) := by
  unfold askNode askNodes
  split
  · cases clusterInfo net.clusterInfo with
    | none => rfl
    | some ok =>
      cases ok with
      | false => rfl
      | true =>
        show _ = connectNodes net.connect (mgr.getClusterNodesInfo uninit net.clusterNodes)
        rcases mgr.getClusterNodesInfo uninit net.clusterNodes with ⟨ok, mgr'⟩
        cases ok <;> rfl
  · rfl

theorem brokersLoop_eq (net : Net) (uninit : Addr) (brokers : List Bytes) (mgr : RedisClusterMgr) :
    brokersLoop net uninit brokers mgr =
      (askBrokers net uninit brokers mgr).bind (connectNodes net.connect) := by
  induction brokers generalizing mgr with
  | nil => rfl
  | cons broker result ih =>
    unfold brokersLoop askBrokers
    cases findByte 58 broker with
    | none => rfl
    | some index =>
      simp only
      split
      · exact askNode_eq net uninit _
      · exact ih _

end RedisClusterMgr

/-! ## The state -/

/-- Where a call of `findNodeConnection` is. -/
inductive FindPc where
  /-- Before it looks at `bStatus_` of the manager. -/
  | called
  /-- Before it looks for the slot, and at the status of its node. -/
  | find
  /-- The node has failed, before `bStatus_ = false`. -/
  | failed
  /-- Before it has `initMtx_`. -/
  | lock
  /-- In `init2`. -/
  | init2
  /-- Before it reads the pointer of its slot to call `getRedisClient()`. -/
  | slot
  /-- It has read the pointer to node `k`, before it has `mutex_` of the node. -/
  | getRedisClient (k : Nat)
  | returned (client : Option Nat)
  deriving DecidableEq, Repr

structure FindCall where
  slotIndex : UInt16
  pc : FindPc
  deriving DecidableEq, Repr

/-- Where an `init2` is, or the `init` that the user has called. -/
inductive Init2Pc where
  /-- Before `init` asks its server. -/
  | askServer
  /-- Before `init2` asks the brokers. -/
  | askBrokers
  /-- In the loop over `nodes_`. -/
  | nodes (nodes : List NodeInfo)
  /-- In the loops over the slots of a node, whose `clusterNode` is `k`. -/
  | slots (k : Nat) (slots : List SlotsInfo) (id : Bytes) (nodes : List NodeInfo)
  deriving DecidableEq, Repr

/-- `caller` is the call of `findNodeConnection` that reconnects; without one it is the user's. -/
structure Init2 where
  caller : Option Nat
  pc : Init2Pc
  deriving DecidableEq, Repr

/-- `useCount k` is how many `shared_ptr` there are to node `k`, `manager_ c` what client `c` has as
`manager_`. `init2` is the one that runs, which has `initMtx_`, and `ready` whether that of the user
has returned 0. `out` and `deleted` are history: the clients that were returned and are not recycled,
and those that were deleted with their node. -/
structure SharedMgr where
  mgr : RedisClusterMgr
  useCount : Nat → Nat
  manager_ : Nat → Option Nat
  init2 : Option Init2
  ready : Bool
  calls : List FindCall
  out : List Nat
  deleted : List Nat

namespace SharedMgr

/-- Call `i` goes on at `pc`. -/
def goto (s : SharedMgr) (i : Nat) (pc : FindPc) : SharedMgr :=
  { s with calls := s.calls.modify i fun c => { c with pc } }

/-- The clients up to `created` are made, with the pointer `manager`. -/
def make (s : SharedMgr) (created : Nat) (manager : Option Nat) : SharedMgr :=
  { s with
    mgr := { s.mgr with created }
    manager_ := fun c => if s.mgr.created ≤ c ∧ c < created then manager else s.manager_ c }

/-- A `shared_ptr` to node `k` goes away, and the last one takes the node with it. The memory of the
node stays as `stop()` has left it. -/
def release (s : SharedMgr) (k : Nat) : SharedMgr :=
  match s.mgr.heap[k]? with
  | none => s
  | some node =>
    if s.useCount k = 1 then
      { s with
        mgr := { s.mgr with heap := s.mgr.heap.set k node.stop }
        useCount := Function.update s.useCount k 0
        deleted := s.deleted ++ node.clients }
    else { s with useCount := Function.update s.useCount k (s.useCount k - 1) }

/-- The entry of `pos` is a new pointer to node `k`; the one that was there is still to go. -/
def point (s : SharedMgr) (pos : UInt16) (k : Nat) : SharedMgr :=
  { s with
    mgr := { s.mgr with slotMap_ := Function.update s.mgr.slotMap_ pos (some k) }
    useCount := Function.update s.useCount k (s.useCount k + 1) }

/-- `slotMap_[pos] = clusterNode` -/
def assign (s : SharedMgr) (pos : UInt16) (k : Nat) : SharedMgr :=
  match s.mgr.slotMap_ pos with
  | none => s.point pos k
  | some old => (s.point pos k).release old

/-! ## Steps -/

/-- The next step of call `i` of `findNodeConnection`, which is at `c`. -/
def findStep (connect : Connect) (s : SharedMgr) (i : Nat) (c : FindCall) : Option SharedMgr :=
  match c.pc with
  | .called =>
    -- nobody calls it before the manager is there
    if ¬ s.ready then none
    else if s.mgr.bStatus_ = false ∧ s.mgr.fullCoverage_ ≠ 0 then some (s.goto i (.returned none))
    else some (s.goto i .find)
  | .find =>
    match s.mgr.slotMap_ c.slotIndex with
    | none => some (s.goto i (.returned none))
    | some k =>
      match s.mgr.heap[k]? with
      | none => none
      | some node => some (s.goto i (if node.bStatus_ then .slot else .failed))
  | .failed => some { s.goto i .lock with mgr := { s.mgr with bStatus_ := false } }
  | .lock =>
    if s.init2.isSome then none
    else if s.mgr.bStatus_ then some (s.goto i .slot)
    else
      match s.mgr.slotMap_ c.slotIndex with
      | none => none
      | some k =>
        match s.mgr.heap[k]? with
        | none => none
        | some node =>
          -- `init2` stores what it is given: `fullCoverage` is 0, the rest is what was there
          some { s.goto i .init2 with
            init2 := some ⟨some i, .askBrokers⟩
            mgr := { s.mgr with
              nodesStatus_ := Function.update s.mgr.nodesStatus_ node.info_.id none
              fullCoverage_ := 0 } }
  | .init2 => none
  | .slot =>
    match s.mgr.slotMap_ c.slotIndex with
    | none => none
    | some k => some (s.goto i (.getRedisClient k))
  | .getRedisClient k =>
    match s.mgr.heap[k]? with
    | none => none
    | some node =>
      let (client, node, created) := node.getRedisClient connect s.mgr.created
      let s := (s.goto i (.returned client)).make created (some k)
      some { s with
        mgr := { s.mgr with heap := s.mgr.heap.set k node }
        out := s.out ++ client.toList }
  | .returned _ => none

/-- `init2` is over, and the call that has called it goes on at `pc`. -/
def leave (s : SharedMgr) (r : Init2) (pc : FindPc) : SharedMgr :=
  match r.caller with
  | none => { s with init2 := none }
  | some i => { s.goto i pc with init2 := none }

/-- `init2` returns 0. -/
def connected (s : SharedMgr) (r : Init2) : SharedMgr :=
  match r.caller with
  | none => { s.leave r .slot with ready := true }
  | some _ => { s.leave r .slot with mgr := { s.mgr with bStatus_ := true } }

/-- The server or the brokers are asked. -/
def asked (s : SharedMgr) (r : Init2) (answer : Option (Bool × RedisClusterMgr)) :
    Option SharedMgr :=
  match answer with
  | none => none
  | some (ret, mgr) =>
    let s := { s.make mgr.created none with mgr }
    if ret then some { s with init2 := some { r with pc := .nodes mgr.nodes_ } }
    else some (s.leave r (.returned none))

/-- `connectClusterNode(node)`, up to the loops over the slots. -/
def connectClusterNode (connect : Connect) (s : SharedMgr) (r : Init2) (node : NodeInfo)
    (nodes : List NodeInfo) : SharedMgr :=
  if s.mgr.nodesStatus_ node.id = some true then { s with init2 := some { r with pc := .nodes nodes } }
  else
    let k := s.mgr.heap.length
    let (bRet, clusterNode, created) := RedisClusterNode.init connect node s.mgr.minSize_
      s.mgr.maxSize_ s.mgr.timeout_ s.mgr.password_ s.mgr.created
    let s := s.make created (some k)
    if bRet then
      { s with
        mgr := { s.mgr with heap := s.mgr.heap ++ [clusterNode] }
        useCount := Function.update s.useCount k 1
        init2 := some { r with pc := .slots k node.slots node.id nodes } }
    else
      -- the only pointer to the new node goes away
      leave { s with
        mgr := { s.mgr with heap := s.mgr.heap ++ [clusterNode.stop] }
        deleted := s.deleted ++ clusterNode.clients } r (.returned none)

/-- The next step of the `init2` that runs. -/
def init2Step (net : Net) (uninit : Addr) (s : SharedMgr) (r : Init2) : Option SharedMgr :=
  match r.pc with
  | .askServer => s.asked r (s.mgr.askServer net uninit)
  | .askBrokers =>
    s.asked r (RedisClusterMgr.askBrokers net uninit (split s.mgr.brokers_ [44]) s.mgr)
  | .nodes [] => some (s.connected r)
  | .nodes (node :: nodes) => some (s.connectClusterNode net.connect r node nodes)
  | .slots k (slots :: rest) id nodes =>
    if slots.slotStart_ ≤ slots.slotEnd_ then
      some { s.assign slots.slotStart_ k with
        init2 := some { r with
          pc := .slots k ({ slots with slotStart_ := slots.slotStart_ + 1 } :: rest) id nodes } }
    else some { s with init2 := some { r with pc := .slots k rest id nodes } }
  | .slots k [] id nodes =>
    let s := s.release k
    some { s with
      mgr := { s.mgr with
        nodesStatus_ := Function.update s.mgr.nodesStatus_ id
          (some ((s.mgr.nodesStatus_ id).getD true)) }
      init2 := some { r with pc := .nodes nodes } }

/-- `recycle()` of a client that was returned; `connStatus_` is whether its last command went
through. -/
def recycleStep (s : SharedMgr) (client : Nat) (connStatus_ : Bool) : Option SharedMgr :=
  if client ∈ s.out then
    match s.manager_ client with
    | none => none
    | some k =>
      match s.mgr.heap[k]? with
      | none => none
      | some node =>
        some { s with
          mgr := { s.mgr with heap := s.mgr.heap.set k (node.recycle client connStatus_) }
          out := s.out.erase client }
  else none

end SharedMgr

inductive CallAct where
  | find (i : Nat) (connect : Connect)
  | init2 (net : Net) (uninit : Addr)
  | recycle (client : Nat) (connStatus_ : Bool)

def SharedMgr.next (s : SharedMgr) : CallAct → Option SharedMgr
  | .find i connect =>
    match s.calls[i]? with
    | none => none
    | some c => s.findStep connect i c
  | .init2 net uninit =>
    match s.init2 with
    | none => none
    | some r => s.init2Step net uninit r
  | .recycle client connStatus_ => s.recycleStep client connStatus_

/-- The call of `init` or `init2` that the user makes on a new manager. -/
inductive Setup where
  | init (ipStr : Bytes) (port minSize maxSize timeout : Int32) (password : Bytes)
      (fullCoverage : Int32)
  | init2 (brokers : Bytes) (minSize maxSize timeout : Int32) (password : Bytes)
      (fullCoverage : Int32)

namespace Setup

/-- The manager that has stored the arguments. -/
def mgr : Setup → RedisClusterMgr
  | .init ipStr port minSize maxSize timeout password fullCoverage =>
    { RedisClusterMgr.new fullCoverage with
      ipStr_ := ipStr, port_ := port, minSize_ := minSize, maxSize_ := maxSize, timeout_ := timeout
      password_ := password }
  | .init2 brokers minSize maxSize timeout password fullCoverage =>
    { RedisClusterMgr.new fullCoverage with
      brokers_ := brokers, minSize_ := minSize, maxSize_ := maxSize, timeout_ := timeout
      password_ := password }

def pc : Setup → Init2Pc
  | .init .. => .askServer
  | .init2 .. => .askBrokers

end Setup

/-- A new manager, and calls of `findNodeConnection` for `keys`. -/
def callSystem (setup : Setup) (keys : List Bytes) : Sys SharedMgr CallAct where
  init :=
    { mgr := setup.mgr
      useCount := fun _ => 0
      manager_ := fun _ => none
      init2 := some ⟨none, setup.pc⟩
      ready := false
      calls := keys.map fun key => ⟨RedisClusterMgr.getKeySlotIndex key, .called⟩
      out := []
      deleted := [] }
  next := SharedMgr.next

end RedisCluster
end CmakeFrame
