import CmakeFrame.RedisAsyn.ConnCount
import CmakeFrame.RedisAsyn.Recount

/-!
# The counts of a cluster

A client changes its state, and later its notification gets the lock of the manager; in between, a
reply may have made a new topology and counted anew.

* `load`: the clients of a manager with their states of now.
* `clusterSystem`: a manager with its clients, the notifications under way and the replies.
* `Announced`: the condition on a step; `ClusterInv`: the invariant, about what the manager has been
  told (`told`).
* `clusterCounted`: if all steps meet the condition, the counts are right whenever no notification
  is under way.
* `recount_between_wraps`: a recount between the two steps of a lost client makes a count wrap.
-/

namespace CmakeFrame
namespace RedisAsyn

open Lib

/-! ## States of now -/

def RedisCli.load (states : ConnStates) (c : RedisCli) : RedisCli := { c with state_ := states c.id }

def RedisMasterSlave.load (states : ConnStates) (ms : RedisMasterSlave) : RedisMasterSlave :=
  ⟨ms.master_.map (·.load states), ms.slave_.map (·.load states)⟩

def RedisClusterNode.load (states : ConnStates) (node : RedisClusterNode) : RedisClusterNode :=
  { node with clusterNode_ := node.clusterNode_.load states }

def RedisClusterInfo.load (states : ConnStates) (info : RedisClusterInfo) : RedisClusterInfo :=
  ⟨fun slot => (info.clusterSlotMap_ slot).map (·.load states),
    info.clusterVectInfo_.map (·.load states)⟩

/-- The manager, each of its clients with its state of now. -/
def RedisMgr.load (states : ConnStates) (mgr : RedisMgr) : RedisMgr :=
  { mgr with
    nodeCli_ := mgr.nodeCli_.map (·.load states)
    cluterCli_ := mgr.cluterCli_.map (·.load states)
    mSlaveCli_ := mgr.mSlaveCli_.map (·.load states) }

def RedisMgr.masters (mgr : RedisMgr) : List RedisCli := (mgr.cluterCli_.map (·.masters)).getD []

def RedisMgr.slaves (mgr : RedisMgr) : List RedisCli := (mgr.cluterCli_.map (·.slaves)).getD []

section Load

variable {states : ConnStates}

theorem up_map_load (st : ConnStates) (clis : List RedisCli) :
    up st (clis.map (·.load states)) = up st clis := by
  simp only [up, List.countP_map]
  rfl

theorem RedisClusterInfo.masters_load (info : RedisClusterInfo) :
    (info.load states).masters = info.masters.map (·.load states) := by
  simp only [masters, load, List.flatMap_map, List.map_flatMap]
  congr 1
  funext node
  cases hm : node.clusterNode_.master_ <;>
    simp [RedisClusterNode.load, RedisMasterSlave.load, RedisMasterSlave.masters, hm]

theorem RedisClusterInfo.slaves_load (info : RedisClusterInfo) :
    (info.load states).slaves = info.slaves.map (·.load states) := by
  simp only [slaves, load, List.flatMap_map, List.map_flatMap]
  rfl

theorem RedisMgr.masters_load (mgr : RedisMgr) :
    (mgr.load states).masters = mgr.masters.map (·.load states) := by
  unfold RedisMgr.masters RedisMgr.load
  cases mgr.cluterCli_ with
  | none => rfl
  | some info => exact info.masters_load

theorem RedisMgr.slaves_load (mgr : RedisMgr) :
    (mgr.load states).slaves = mgr.slaves.map (·.load states) := by
  unfold RedisMgr.slaves RedisMgr.load
  cases mgr.cluterCli_ with
  | none => rfl
  | some info => exact info.slaves_load

/-- A known client of a loaded manager tells its state of now. -/
theorem known_load {mgr : RedisMgr} {c : RedisCli} (h : Known (mgr.load states).toRedisClientMgr c) :
    c.state_ = states c.id := by
  have hload : ∀ clis : List RedisCli, c ∈ clis.map (·.load states) → c.state_ = states c.id := by
    intro clis hc
    obtain ⟨c₀, -, rfl⟩ := List.mem_map.mp hc
    rfl
  rcases h.mem with ⟨info, hinfo, hc⟩ | hc
  · obtain ⟨info₀, -, rfl⟩ := Option.map_eq_some_iff.mp hinfo
    rw [RedisClusterInfo.masters_load, RedisClusterInfo.slaves_load, ← List.map_append] at hc
    exact hload _ hc
  · obtain ⟨c₀, -, rfl⟩ := Option.map_eq_some_iff.mp hc
    rfl

end Load

/-! ## The system -/

/-- `pending` are the notifications of clients that have changed their state. `told` is history:
the states of the clients that the counts of the manager are about. -/
structure ClusterState where
  mgr : RedisMgr
  states : ConnStates
  addrs : Nat → RedisSvrInfo
  pending : List Notice
  ioIndex : UInt32
  created : Nat
  told : ConnStates

inductive ClusterAct where
  /-- A client changes its state; its notification is under way. -/
  | change (n : Notice)
  /-- The notification of the client gets the lock. -/
  | notify (id : Nat)
  /-- `clusterNodesCallBack`. -/
  | nodesReply (ret : Int) (resultMsg : List Bytes)
  /-- `clusterInitCallBack`. -/
  | initReply (ret : Int) (resultMsg : List Bytes)
  /-- `clusterInfoCallBack`. -/
  | infoReply (ret : Int) (resultMsg : List Bytes)
  deriving DecidableEq, Repr

/-- The client's state behind the event, and the manager's knowledge of it. -/
def Notice.tell (n : Notice) (told : ConnStates) : ConnStates :=
  match n.state with
  | .success => Function.update told n.id .conn
  | .reset => told
  | .disconn => Function.update told n.id .init

/-- A topology that is built fits into the memory. -/
def RedisMgr.fits (mgr : RedisMgr) : Bool := mgr.masters.length < 2 ^ 60 ∧ mgr.slaves.length < 2 ^ 60

namespace ClusterState

/-- The state behind a reply. A new topology goes with new counts. -/
def replied (s : ClusterState) (r : Replied) : Option ClusterState :=
  if r.mgr.fits then
    some { s with
      mgr := r.mgr, ioIndex := r.ioIndex, created := r.created
      addrs := fun id => (((r.added.getD []).find? (·.id = id)).map (·.svrInfo_)).getD (s.addrs id)
      told := if r.added.isSome then s.states else s.told }
  else none

def next (ioThreadNum : Nat) (s : ClusterState) : ClusterAct → Option ClusterState
  | .change n =>
    -- the client's loop does one thing after the other
    if n.id < s.created ∧ ∀ n' ∈ s.pending, n'.id ≠ n.id then
      (n.state.change n.id s.states).map fun states =>
        { s with states := states, pending := s.pending ++ [n] }
    else none
  | .notify id =>
    match s.pending.find? (·.id = id) with
    | none => none
    | some n =>
      (redisSvrOnConnect s.mgr (s.addrs id) n.errMsg n.state).map fun r =>
        { s with
          mgr := r.1, pending := s.pending.filter (·.id ≠ id), told := n.tell s.told }
  | .nodesReply ret resultMsg =>
    (clusterNodesCallBack ioThreadNum (s.mgr.load s.states) s.ioIndex s.created ret resultMsg).bind s.replied
  | .initReply ret resultMsg =>
    (clusterInitCallBack ioThreadNum (s.mgr.load s.states) s.ioIndex s.created ret resultMsg).bind s.replied
  | .infoReply ret resultMsg =>
    (clusterInfoCallBack s.mgr ret resultMsg).map fun r => { s with mgr := r.1 }

end ClusterState

/-- A new manager with its first client. -/
def clusterSystem (ioThreadNum : Nat) (svr : RedisSvrInfo) : Sys ClusterState ClusterAct where
  init :=
    { mgr := ⟨⟨0, 0, some ⟨0, svr, 0, .init⟩, none⟩, .cluster, .init, [], none⟩
      states := fun _ => .init
      addrs := fun _ => svr
      pending := []
      ioIndex := 0
      created := 1
      told := fun _ => .init }
  next := ClusterState.next ioThreadNum

/-! ## The condition -/

/-- `clusterRedisConnsUpdate`'s place of an address. -/
def RedisMgr.addrInfo (mgr : RedisMgr) (svr : RedisSvrInfo) : AddrInfo :=
  (mgr.cluterCli_.map fun info => clusterAddrInfo svr info.clusterVectInfo_).getD .noIn

/-- The state that the event reports. -/
def ConnEvent.reports : ConnEvent → ConnState
  | .success => .conn
  | .reset => .init
  | .disconn => .init

/-- The place that is found by the address is the one place of the client. -/
def OwnPlace (mgr : RedisMgr) (svr : RedisSvrInfo) (id : Nat) : Prop :=
  times id mgr.masters = (if mgr.addrInfo svr = .master then 1 else 0) ∧
    times id mgr.slaves = (if mgr.addrInfo svr = .slave then 1 else 0)

instance (mgr : RedisMgr) (svr : RedisSvrInfo) (id : Nat) : Decidable (OwnPlace mgr svr id) :=
  inferInstanceAs (Decidable (_ ∧ _))

/-- A notification that a recount has overtaken finds nothing, any other one finds its own client. -/
def NoticeOk (s : ClusterState) (n : Notice) : Prop :=
  n.state ≠ .reset →
    if s.told n.id = n.state.reports then s.mgr.addrInfo (s.addrs n.id) = .noIn
    else OwnPlace s.mgr (s.addrs n.id) n.id

instance (s : ClusterState) (n : Notice) : Decidable (NoticeOk s n) :=
  inferInstanceAs (Decidable (_ → _))

/-- The notifications are so, and the first topology is not for a manager that runs. -/
def Announced (s : ClusterState) : ClusterAct → Prop
  | .change _ => True
  | .notify id => ∀ n ∈ s.pending, n.id = id → NoticeOk s n
  | .nodesReply _ _ => True
  | .initReply _ _ => s.mgr.initState_ ≠ .runing
  | .infoReply _ _ => True

instance (s : ClusterState) (a : ClusterAct) : Decidable (Announced s a) :=
  match a with
  | .change _ => instDecidableTrue
  | .notify id => List.decidableBAll (fun n : Notice => n.id = id → NoticeOk s n) s.pending
  | .nodesReply _ _ => instDecidableTrue
  | .initReply _ _ => inferInstanceAs (Decidable (s.mgr.initState_ ≠ .runing))
  | .infoReply _ _ => instDecidableTrue

/-- The counts are right whenever no notification is under way, they never wrap, and a manager runs
only if all masters are connected. -/
structure CountsRight (s : ClusterState) : Prop where
  masters : s.pending = [] → s.mgr.masterConn_ = up s.states s.mgr.masters
  slaves : s.pending = [] → s.mgr.slaveConn_ = up s.states s.mgr.slaves
  noWrap : s.mgr.masterConn_ ≤ s.mgr.masters.length ∧ s.mgr.slaveConn_ ≤ s.mgr.slaves.length
  runing : s.pending = [] → s.mgr.initState_ = .runing → ∀ c ∈ s.mgr.masters, s.states c.id = .conn

/-! ## What a notification does -/

theorem clusterRedisConnsUpdate_eq (mgr : RedisMgr) (svr : RedisSvrInfo) (onConned : Bool) :
    clusterRedisConnsUpdate mgr svr onConned true =
        (mgr.addrInfo svr, mgr.countConn onConned (mgr.addrInfo svr)) ∧
      clusterRedisConnsUpdate mgr svr onConned false = (mgr.addrInfo svr, mgr) := by
  unfold clusterRedisConnsUpdate RedisMgr.addrInfo
  cases mgr.cluterCli_ with
  | none => exact ⟨rfl, rfl⟩
  | some info => exact ⟨rfl, rfl⟩

/-- The counts and the nodes. -/
structure SameCluster (mgr mgr' : RedisMgr) : Prop where
  masterConn : mgr'.masterConn_ = mgr.masterConn_
  slaveConn : mgr'.slaveConn_ = mgr.slaveConn_
  cluterCli : mgr'.cluterCli_ = mgr.cluterCli_
  svrType : mgr'.svrType_ = mgr.svrType_

theorem SameCluster.refl (mgr : RedisMgr) : SameCluster mgr mgr := ⟨rfl, rfl, rfl, rfl⟩

theorem goRuning_sameCluster (mgr : RedisMgr) : SameCluster mgr (goRuning mgr).1 := ⟨rfl, rfl, rfl, rfl⟩

theorem onClusterLoss_same (mgr : RedisMgr) (svr : RedisSvrInfo) (errMsg : Bytes) (info : AddrInfo)
    (orders : List Effect) (code : ExceCode) :
    SameCluster mgr (onClusterLoss mgr svr errMsg info orders code).1 ∧
      (onClusterLoss mgr svr errMsg info orders code).1.initState_ =
        if info = .master then .exception else mgr.initState_ := by
  cases info <;> exact ⟨⟨rfl, rfl, rfl, rfl⟩, rfl⟩

/-- The manager, with the event counted. -/
def RedisMgr.counted (mgr : RedisMgr) (svr : RedisSvrInfo) : ConnEvent → RedisMgr
  | .success => mgr.countConn true (mgr.addrInfo svr)
  | .reset => mgr
  | .disconn => mgr.countConn false (mgr.addrInfo svr)

/-- A cluster without nodes has no place for an address. -/
theorem addrInfo_of_empty {mgr : RedisMgr} (h : mgr.clusterSize.getD 0 = 0) (svr : RedisSvrInfo) :
    mgr.addrInfo svr = .noIn := by
  unfold RedisMgr.addrInfo
  cases hc : mgr.cluterCli_ with
  | none => rfl
  | some info =>
    simp only [RedisMgr.clusterSize, hc, Option.map_some, Option.getD_some, List.length_eq_zero_iff] at h
    simp [h, clusterAddrInfo]

/-- All that `onConnectCluster` can do. -/
inductive ClusterNotified (mgr : RedisMgr) (svr : RedisSvrInfo) (errMsg : Bytes) :
    ConnEvent → RedisMgr × List Effect → Prop where
  /-- The nodes are not known, and are asked for. -/
  | first (hst : mgr.initState_ = .init) (hno : mgr.addrInfo svr = .noIn) :
      ClusterNotified mgr svr errMsg .success (mgr, [.clusterNodesUpdate false true])
  | up (hst : mgr.initState_ ≠ .invalid) :
      ClusterNotified mgr svr errMsg .success (mgr.counted svr .success, [])
  /-- Now all masters are counted. -/
  | all (hsize : (mgr.counted svr .success).clusterSize = some (mgr.counted svr .success).masterConn_) :
      ClusterNotified mgr svr errMsg .success (goRuning (mgr.counted svr .success))
  | resetInit (hst : mgr.initState_ = .init) :
      ClusterNotified mgr svr errMsg .reset
        (onClusterLoss mgr svr errMsg (mgr.addrInfo svr) (delayReconnect mgr svr) .connectReset)
  | reset (hst : mgr.initState_ ≠ .init) (hvalid : mgr.initState_ ≠ .invalid) :
      ClusterNotified mgr svr errMsg .reset
        (mgr, .asyncExceCallBack .connectReset (exceMsgBuf svr errMsg) :: delayReconnect mgr svr)
  | lost (hst : mgr.initState_ = .init ∨ mgr.initState_ = .runing) :
      ClusterNotified mgr svr errMsg .disconn
        (onClusterLoss (mgr.counted svr .disconn) svr errMsg (mgr.addrInfo svr)
          (reconnectAtOnece (mgr.counted svr .disconn) svr) .conectDisconnect)
  /-- The state is one of a loss already. -/
  | lostAgain (hst : mgr.initState_ = .exception ∨ mgr.initState_ = .error) :
      ClusterNotified mgr svr errMsg .disconn
        (mgr.counted svr .disconn, .asyncExceCallBack .conectDisconnect (exceMsgBuf svr errMsg) ::
          if mgr.addrInfo svr = .noIn then [] else reconnectAtOnece (mgr.counted svr .disconn) svr)
  | invalid (state : ConnEvent) (hst : mgr.initState_ = .invalid) :
      ClusterNotified mgr svr errMsg state (mgr, [])

theorem onConnectCluster_cases {mgr : RedisMgr} {svr : RedisSvrInfo} {errMsg : Bytes}
    {state : ConnEvent} {r : RedisMgr × List Effect}
    (h : onConnectCluster mgr svr errMsg state = some r) : ClusterNotified mgr svr errMsg state r := by
  obtain ⟨heq, -⟩ := clusterRedisConnsUpdate_eq mgr svr true
  obtain ⟨heqf, heqr⟩ := clusterRedisConnsUpdate_eq mgr svr false
  cases hst : mgr.initState_ with
  | init =>
    cases state with
    | success =>
      simp only [onConnectCluster, hst, heq] at h
      split at h
      · rename_i hsize
        cases h
        exact .first hst (addrInfo_of_empty hsize svr)
      · split at h
        · rename_i hsize
          cases h
          exact .all hsize
        · cases h
          exact .up (by simp [hst])
    | reset =>
      simp only [onConnectCluster, hst, heqr] at h
      cases h
      exact .resetInit hst
    | disconn =>
      simp only [onConnectCluster, hst, heqf] at h
      cases h
      exact .lost (.inl hst)
  | runing =>
    cases state with
    | success =>
      simp only [onConnectCluster, hst, heq] at h
      cases h
      exact .up (by simp [hst])
    | reset =>
      simp only [onConnectCluster, hst] at h
      cases h
      exact .reset (by simp [hst]) (by simp [hst])
    | disconn =>
      simp only [onConnectCluster, hst, heqf] at h
      cases h
      exact .lost (.inr hst)
  | exception =>
    cases state with
    | success =>
      simp only [onConnectCluster, hst, heq] at h
      split at h
      · cases h
      · rename_i size hsize
        split at h
        · rename_i heqsize
          cases h
          exact .all (hsize.trans (congrArg some heqsize))
        · cases h
          exact .up (by simp [hst])
    | reset =>
      simp only [onConnectCluster, hst] at h
      cases h
      exact .reset (by simp [hst]) (by simp [hst])
    | disconn =>
      simp only [onConnectCluster, hst, heqf] at h
      cases h
      exact .lostAgain (.inl hst)
  | error =>
    cases state with
    | success =>
      simp only [onConnectCluster, hst, heq] at h
      cases h
      exact .up (by simp [hst])
    | reset =>
      simp only [onConnectCluster, hst] at h
      cases h
      exact .reset (by simp [hst]) (by simp [hst])
    | disconn =>
      simp only [onConnectCluster, hst, heqf] at h
      cases h
      exact .lostAgain (.inr hst)
  | invalid =>
    simp only [onConnectCluster, hst] at h
    cases h
    exact .invalid state hst

/-- A notification counts its event. The manager runs behind it only if all masters are counted, or
if it did before and no master was lost. -/
theorem onConnectCluster_counts {mgr : RedisMgr} (hs : mgr.initState_ ≠ .invalid) {svr : RedisSvrInfo}
    {errMsg : Bytes} {state : ConnEvent} {r : RedisMgr × List Effect}
    (h : onConnectCluster mgr svr errMsg state = some r) :
    SameCluster (mgr.counted svr state) r.1 ∧ r.1.initState_ ≠ .invalid ∧
      (r.1.initState_ = .runing →
        mgr.initState_ = .runing ∧ (state = .disconn → mgr.addrInfo svr ≠ .master) ∨
        r.1.clusterSize = some r.1.masterConn_) := by
  have hup : (mgr.counted svr .success).initState_ = mgr.initState_ := (countConn_same mgr true _).1
  have hdown : (mgr.counted svr .disconn).initState_ = mgr.initState_ := (countConn_same mgr false _).1
  cases onConnectCluster_cases h with
  | first hst hno =>
    refine ⟨?_, hs, fun hrun => .inl ⟨hrun, by simp⟩⟩
    -- nothing is counted, as there is no node
    rw [RedisMgr.counted, hno]
    exact SameCluster.refl _
  | up => exact ⟨SameCluster.refl _, hup.trans_ne hs, fun hrun => .inl ⟨hup.symm.trans hrun, by simp⟩⟩
  | all hsize => exact ⟨goRuning_sameCluster _, by simp [goRuning], fun _ => .inr hsize⟩
  | resetInit hst =>
    obtain ⟨hsame, hstate⟩ := onClusterLoss_same mgr svr errMsg (mgr.addrInfo svr)
      (delayReconnect mgr svr) .connectReset
    rw [hst] at hstate
    refine ⟨hsame, ?_, ?_⟩ <;> rw [hstate] <;> split <;> simp
  | reset => exact ⟨SameCluster.refl _, hs, fun hrun => .inl ⟨hrun, by simp⟩⟩
  | lost =>
    obtain ⟨hsame, hstate⟩ := onClusterLoss_same (mgr.counted svr .disconn) svr errMsg
      (mgr.addrInfo svr) (reconnectAtOnece (mgr.counted svr .disconn) svr) .conectDisconnect
    rw [hdown] at hstate
    refine ⟨hsame, ?_, fun hrun => .inl ?_⟩
    · rw [hstate]
      split
      · simp
      · exact hs
    · rw [hstate] at hrun
      split at hrun
      · cases hrun
      · rename_i hmaster
        exact ⟨hrun, fun _ => hmaster⟩
  | lostAgain hst =>
    refine ⟨SameCluster.refl _, hdown.trans_ne hs, fun hrun => ?_⟩
    rcases hst with hst | hst <;> simp [hdown, hst] at hrun
  | invalid _ hst => exact absurd hst hs

theorem SameCluster.masters {mgr mgr' : RedisMgr} (h : SameCluster mgr mgr') :
    mgr'.masters = mgr.masters ∧ mgr'.slaves = mgr.slaves := by
  unfold RedisMgr.masters RedisMgr.slaves
  rw [h.cluterCli]
  exact ⟨rfl, rfl⟩

theorem counted_masters (mgr : RedisMgr) (svr : RedisSvrInfo) (state : ConnEvent) :
    (mgr.counted svr state).masters = mgr.masters ∧ (mgr.counted svr state).slaves = mgr.slaves ∧
      (mgr.counted svr state).svrType_ = mgr.svrType_ := by
  unfold RedisMgr.masters RedisMgr.slaves
  cases state with
  | success =>
    obtain ⟨-, hc, ht⟩ := countConn_same mgr true (mgr.addrInfo svr)
    rw [RedisMgr.counted, hc]
    exact ⟨rfl, rfl, ht⟩
  | reset => exact ⟨rfl, rfl, rfl⟩
  | disconn =>
    obtain ⟨-, hc, ht⟩ := countConn_same mgr false (mgr.addrInfo svr)
    rw [RedisMgr.counted, hc]
    exact ⟨rfl, rfl, ht⟩

theorem stepCount_down {n : Nat} (h : n < 2 ^ 60) (hpos : 0 < n) : stepCount false n = n - 1 := by
  unfold stepCount
  rw [if_neg (by simp)]
  omega

/-- The counts behind the loss of a client that was counted. -/
theorem countConn_down {mgr : RedisMgr} {info : AddrInfo} {m s : Nat}
    (hm : mgr.masterConn_ = m + if info = .master then 1 else 0) (hm' : mgr.masterConn_ < 2 ^ 60)
    (hs : mgr.slaveConn_ = s + if info = .slave then 1 else 0) (hs' : mgr.slaveConn_ < 2 ^ 60) :
    (mgr.countConn false info).masterConn_ = m ∧ (mgr.countConn false info).slaveConn_ = s := by
  cases info with
  | noIn => exact ⟨hm, hs⟩
  | master =>
    simp only [if_true, reduceCtorEq, if_false, Nat.add_zero] at hm hs
    have hdown := stepCount_down hm' (by omega)
    simp only [RedisMgr.countConn, hdown]
    exact ⟨by omega, hs⟩
  | slave =>
    simp only [if_true, reduceCtorEq, if_false, Nat.add_zero] at hm hs
    have hdown := stepCount_down hs' (by omega)
    simp only [RedisMgr.countConn, hdown]
    exact ⟨hm, by omega⟩

/-! ## The invariant -/

structure ClusterInv (s : ClusterState) : Prop where
  svrType : s.mgr.svrType_ = .cluster
  valid : s.mgr.initState_ ≠ .invalid
  masters : s.mgr.masterConn_ = up s.told s.mgr.masters
  slaves : s.mgr.slaveConn_ = up s.told s.mgr.slaves
  fits : s.mgr.masters.length < 2 ^ 60 ∧ s.mgr.slaves.length < 2 ^ 60
  fresh : ∀ id, s.created ≤ id → s.states id = .init
  quiet : ∀ id, (∀ n ∈ s.pending, n.id ≠ id) → s.told id = s.states id
  pending : ∀ n ∈ s.pending, s.states n.id = n.state.reports ∧ (n.state = .reset → s.told n.id = .init)
  runing : s.mgr.initState_ = .runing → ∀ c ∈ s.mgr.masters, s.told c.id = .conn

section Steps

variable {s s' : ClusterState}

/-- The event is counted as what it tells. -/
theorem ClusterInv.tell_counts (hi : ClusterInv s) {n : Notice} (hn : NoticeOk s n) :
    (s.mgr.counted (s.addrs n.id) n.state).masterConn_ = up (n.tell s.told) s.mgr.masters ∧
      (s.mgr.counted (s.addrs n.id) n.state).slaveConn_ = up (n.tell s.told) s.mgr.slaves := by
  have hm := hi.masters
  have hs := hi.slaves
  have hml := up_le_length s.told s.mgr.masters
  have hsl := up_le_length s.told s.mgr.slaves
  obtain ⟨hfm, hfs⟩ := hi.fits
  unfold NoticeOk at hn
  cases hev : n.state with
  | reset =>
    rw [Notice.tell, hev]
    exact ⟨hm, hs⟩
  | success =>
    simp only [hev, ne_eq, reduceCtorEq, not_false_eq_true, forall_const, ConnEvent.reports] at hn
    obtain ⟨hcm, hcs⟩ := @countConn_up s.mgr (by omega) (by omega) (s.mgr.addrInfo (s.addrs n.id))
    rw [Notice.tell, hev, RedisMgr.counted, hcm, hcs]
    simp only
    split at hn
    · rename_i htold
      rw [hn, ← htold, Function.update_eq_self]
      exact ⟨hm, hs⟩
    · rename_i htold
      have hinit : s.told n.id = .init := by
        cases h : s.told n.id with
        | init => rfl
        | conn => exact absurd h htold
      obtain ⟨htm, hts⟩ := hn
      rw [up_conn hinit, up_conn hinit, htm, hts]
      omega
  | disconn =>
    simp only [hev, ne_eq, reduceCtorEq, not_false_eq_true, forall_const, ConnEvent.reports] at hn
    rw [Notice.tell, hev, RedisMgr.counted]
    simp only
    split at hn
    · rename_i htold
      rw [hn, ← htold, Function.update_eq_self]
      exact ⟨hm, hs⟩
    · rename_i htold
      have hconn : s.told n.id = .conn := by
        cases h : s.told n.id with
        | init => exact absurd h htold
        | conn => rfl
      obtain ⟨htm, hts⟩ := hn
      have hum := up_init hconn s.mgr.masters
      have hus := up_init hconn s.mgr.slaves
      rw [htm] at hum
      rw [hts] at hus
      exact countConn_down (hm.trans hum) (by omega) (hs.trans hus) (by omega)

/-- If as many masters are connected as there are nodes, all are. -/
theorem all_conn_of_size {told : ConnStates} {mgr : RedisMgr} (hm : mgr.masterConn_ = up told mgr.masters)
    (hsize : mgr.clusterSize = some mgr.masterConn_) : ∀ c ∈ mgr.masters, told c.id = .conn := by
  unfold RedisMgr.clusterSize at hsize
  obtain ⟨info, hinfo, hlen⟩ := Option.map_eq_some_iff.mp hsize
  have hmasters : mgr.masters = info.masters := by simp [RedisMgr.masters, hinfo]
  have hle : ∀ nodes : List RedisClusterNode,
      (nodes.flatMap (·.clusterNode_.masters)).length ≤ nodes.length := by
    intro nodes
    induction nodes with
    | nil => simp
    | cons node nodes ih =>
      have := masters_length node.clusterNode_
      simp only [List.flatMap_cons, List.length_append, List.length_cons]
      omega
  have hall : up told info.masters = info.masters.length := by
    have h1 := up_le_length told info.masters
    have h2 : info.masters.length ≤ info.clusterVectInfo_.length := hle _
    rw [hmasters] at hm
    omega
  rw [hmasters]
  intro c hc
  have := List.countP_eq_length.mp hall c hc
  simpa using this

theorem tell_ne {n : Notice} {told : ConnStates} {id : Nat} (h : id ≠ n.id) : n.tell told id = told id := by
  unfold Notice.tell
  cases n.state with
  | success => exact Function.update_of_ne h _ _
  | reset => rfl
  | disconn => exact Function.update_of_ne h _ _

theorem tell_self {n : Notice} {told : ConnStates} (h : n.state = .reset → told n.id = .init) :
    n.tell told n.id = n.state.reports := by
  unfold Notice.tell
  cases hev : n.state with
  | success => simp [ConnEvent.reports]
  | reset => exact h hev
  | disconn => simp [ConnEvent.reports]

/-- A manager that runs and loses no master knows all of them as connected behind the notification. -/
theorem ClusterInv.tell_runing (hi : ClusterInv s) {n : Notice} (hmem : n ∈ s.pending)
    (hok : NoticeOk s n) (hwas : s.mgr.initState_ = .runing)
    (hnot : n.state = .disconn → s.mgr.addrInfo (s.addrs n.id) ≠ .master) {c : RedisCli}
    (hc : c ∈ s.mgr.masters) : n.tell s.told c.id = .conn := by
  have htold := hi.runing hwas c hc
  by_cases hid : c.id = n.id
  · rw [hid]
    refine (tell_self (hi.pending n hmem).2).trans ?_
    cases hev : n.state with
    | success => rfl
    | reset =>
      -- the client has never been told to be connected
      have hinit := (hi.pending n hmem).2 hev
      rw [← hid, htold] at hinit
      cases hinit
    | disconn =>
      -- the client is no master
      have hown := hok (by simp [hev])
      rw [hev, ← hid, htold, if_neg (by simp [ConnEvent.reports])] at hown
      have htimes := hown.1
      rw [hid, if_neg (hnot hev)] at htimes
      exact absurd hid (times_eq_zero.mp htimes c hc)
  · exact (tell_ne hid).trans htold

theorem ClusterInv.notify {ioThreadNum : Nat} {id : Nat} (hi : ClusterInv s)
    (hc : Announced s (.notify id)) (h : s.next ioThreadNum (.notify id) = some s') : ClusterInv s' := by
  simp only [ClusterState.next] at h
  split at h
  · cases h
  rename_i n hfind
  have hmem := List.mem_of_find?_eq_some hfind
  obtain rfl : n.id = id := by simpa using List.find?_some hfind
  have hok : NoticeOk s n := hc n hmem rfl
  rw [redisSvrOnConnect, hi.svrType] at h
  obtain ⟨r, hr, rfl⟩ := Option.map_eq_some_iff.mp h
  obtain ⟨hsame, hvalid, hrun⟩ := onConnectCluster_counts hi.valid hr
  obtain ⟨hcm, hcs⟩ := hi.tell_counts hok
  obtain ⟨hkm, hks, hkt⟩ := counted_masters s.mgr (s.addrs n.id) n.state
  obtain ⟨hmasters, hslaves⟩ := hsame.masters
  have hcount : r.1.masterConn_ = up (n.tell s.told) r.1.masters := by
    rw [hsame.masterConn, hcm, hmasters, hkm]
  refine ⟨?_, hvalid, hcount, ?_, ?_, hi.fresh, ?_, ?_, fun hrun' c hcm => ?_⟩
  · rw [hsame.svrType, hkt, hi.svrType]
  · rw [hsame.slaveConn, hcs, hslaves, hks]
  · rw [hmasters, hslaves, hkm, hks]
    exact hi.fits
  · intro id hno
    by_cases hid : id = n.id
    · subst hid
      obtain ⟨hst, hreset⟩ := hi.pending n hmem
      exact (tell_self hreset).trans hst.symm
    · refine (tell_ne hid).trans ?_
      exact hi.quiet id fun n' hn' hid' =>
        hno n' (List.mem_filter.mpr ⟨hn', by simpa [hid'] using hid⟩) hid'
  · intro n' hn'
    obtain ⟨hn', hne⟩ := List.mem_filter.mp hn'
    obtain ⟨hst, hreset⟩ := hi.pending n' hn'
    exact ⟨hst, fun hev => (tell_ne (by simpa using hne)).trans (hreset hev)⟩
  · rcases hrun hrun' with ⟨hwas, hnot⟩ | hsize
    · exact hi.tell_runing hmem hok hwas hnot (by rwa [hmasters, hkm] at hcm)
    · exact all_conn_of_size hcount hsize c hcm

/-- What a change of the state leaves, and what it reports. -/
theorem ConnEvent.change_spec {e : ConnEvent} {id : Nat} {states states' : ConnStates}
    (h : e.change id states = some states') :
    states' id = e.reports ∧ (e = .reset → states id = .init) ∧ ∀ id', id' ≠ id → states' id' = states id' := by
  cases e with
  | success =>
    simp only [change] at h
    split at h
    · cases h
      exact ⟨by simp [reports], by simp, fun id' hne => Function.update_of_ne hne _ _⟩
    · cases h
  | reset =>
    simp only [change] at h
    split at h
    · rename_i hinit
      cases h
      exact ⟨hinit, fun _ => hinit, fun _ _ => rfl⟩
    · cases h
  | disconn =>
    simp only [change] at h
    split at h
    · cases h
      exact ⟨by simp [reports], by simp, fun id' hne => Function.update_of_ne hne _ _⟩
    · cases h

theorem ClusterInv.change {ioThreadNum : Nat} {n : Notice} (hi : ClusterInv s)
    (h : s.next ioThreadNum (.change n) = some s') : ClusterInv s' := by
  simp only [ClusterState.next] at h
  split at h
  · rename_i hguard
    obtain ⟨hlt, hno⟩ := hguard
    obtain ⟨states, hchange, rfl⟩ := Option.map_eq_some_iff.mp h
    obtain ⟨hself, hreset, hother⟩ := ConnEvent.change_spec hchange
    refine { hi with fresh := fun id hle => ?_, quiet := fun id hq => ?_, pending := fun n' hn' => ?_ }
    · have hne : id ≠ n.id := (Nat.lt_of_lt_of_le hlt hle).ne'
      exact (hother id hne).trans (hi.fresh id hle)
    · have hne : id ≠ n.id := fun e => hq n (by simp) e.symm
      exact (hi.quiet id fun n' hn' => hq n' (List.mem_append_left _ hn')).trans (hother id hne).symm
    · rcases List.mem_append.mp hn' with hn' | hn'
      · obtain ⟨hst, hr⟩ := hi.pending n' hn'
        exact ⟨(hother n'.id (hno n' hn')).trans hst, hr⟩
      · cases List.mem_singleton.mp hn'
        exact ⟨hself, fun hev => (hi.quiet n.id hno).trans (hreset hev)⟩
  · cases h

/-! ## Replies -/

theorem connected_eq_up {states : ConnStates} {clis : List RedisCli}
    (h : ∀ c ∈ clis, c.state_ = states c.id) : connected clis = up states clis := by
  unfold connected up
  refine List.countP_congr fun c hc => ?_
  rw [h c hc]

/-- A new topology has right counts. -/
theorem recounted {mgr : RedisMgr} {states : ConnStates} {ioThreadNum : Nat} {text : Bytes}
    {ioIndex : UInt32} {created : Nat} {mgr' : RedisClientMgr} {out : Analysis}
    (hfresh : ∀ id, created ≤ id → states id = .init)
    (h : analysisClusterNodes (mgr.load states).toRedisClientMgr ioThreadNum text ioIndex created =
      some (0, mgr', out)) :
    mgr'.masterConn_ = up states (({ mgr.load states with toRedisClientMgr := mgr' } : RedisMgr).masters) ∧
      mgr'.slaveConn_ = up states (({ mgr.load states with toRedisClientMgr := mgr' } : RedisMgr).slaves) ∧
      created ≤ out.created := by
  obtain ⟨ha, rfl⟩ := analysisClusterNodes_analysed h
  have hstate : ∀ c ∈ out.info.masters ++ out.info.slaves, c.state_ = states c.id := by
    intro c hc
    rcases ha.origin c hc with hk | hnew
    · exact known_load hk
    · obtain ⟨hinit, hlo, -⟩ := ha.new c hnew
      rw [hinit, hfresh c.id hlo]
  have hinfo : ∀ f : RedisClusterInfo → List RedisCli, f ⟨fun _ => none, []⟩ = [] →
      (out.tmpClusterInfo.map f).getD [] = f out.info := by
    intro f hf
    unfold Analysis.info
    cases out.tmpClusterInfo with
    | none => exact hf.symm
    | some info => rfl
  refine ⟨?_, ?_, ha.created⟩
  · change out.masterConn = up states ((out.tmpClusterInfo.map (·.masters)).getD [])
    rw [hinfo RedisClusterInfo.masters rfl, ha.masters]
    exact connected_eq_up fun c hc => hstate c (List.mem_append_left _ hc)
  · change out.slaveConn = up states ((out.tmpClusterInfo.map (·.slaves)).getD [])
    rw [hinfo RedisClusterInfo.slaves rfl, ha.slaves]
    exact connected_eq_up fun c hc => hstate c (List.mem_append_right _ hc)

/-- What a reply leaves: the old topology with its counts, or a new one with right counts. A manager
that was not running runs behind it only if all masters are counted. -/
structure ReplyOk (s : ClusterState) (r : Replied) : Prop where
  svrType : r.mgr.svrType_ = .cluster
  valid : r.mgr.initState_ ≠ .invalid
  created : s.created ≤ r.created
  old : r.added = none → r.mgr.initState_ = s.mgr.initState_ ∧
    r.mgr.masterConn_ = s.mgr.masterConn_ ∧ r.mgr.slaveConn_ = s.mgr.slaveConn_ ∧
    r.mgr.masters = s.mgr.masters.map (·.load s.states) ∧
    r.mgr.slaves = s.mgr.slaves.map (·.load s.states)
  new : r.added ≠ none → r.mgr.masterConn_ = up s.states r.mgr.masters ∧
    r.mgr.slaveConn_ = up s.states r.mgr.slaves ∧
    (r.mgr.initState_ = .runing → r.mgr.masters = [] ∨ r.mgr.clusterSize = some r.mgr.masterConn_)

theorem ClusterInv.replied (hi : ClusterInv s) {r : Replied} (hr : ReplyOk s r)
    (h : s.replied r = some s') : ClusterInv s' := by
  unfold ClusterState.replied at h
  split at h
  · rename_i hfits
    cases h
    have hfits : r.mgr.masters.length < 2 ^ 60 ∧ r.mgr.slaves.length < 2 ^ 60 := by
      simpa [RedisMgr.fits] using hfits
    have hfresh : ∀ id, r.created ≤ id → s.states id = .init := fun id hle =>
      hi.fresh id (hr.created.trans hle)
    by_cases hadd : r.added = none
    · obtain ⟨hst, hmc, hsc, hm, hs⟩ := hr.old hadd
      simp only [hadd, Option.isSome_none, Bool.false_eq_true, if_false]
      refine ⟨hr.svrType, hr.valid, ?_, ?_, hfits, hfresh, hi.quiet, hi.pending, fun hrun c hc => ?_⟩
      · rw [hmc, hm, up_map_load]
        exact hi.masters
      · rw [hsc, hs, up_map_load]
        exact hi.slaves
      · rw [hm] at hc
        obtain ⟨c₀, hc₀, rfl⟩ := List.mem_map.mp hc
        exact hi.runing (hst.symm.trans hrun) c₀ hc₀
    · obtain ⟨hm, hs, hrun⟩ := hr.new hadd
      rw [if_pos (Option.isSome_iff_ne_none.mpr hadd)]
      refine ⟨hr.svrType, hr.valid, hm, hs, hfits, hfresh, fun _ _ => rfl, fun n hn => ?_,
        fun hst c hc => ?_⟩
      · obtain ⟨hstate, -⟩ := hi.pending n hn
        refine ⟨hstate, fun hev => ?_⟩
        rw [hev] at hstate
        exact hstate
      · rcases hrun hst with hnil | hsize
        · rw [hnil] at hc
          cases hc
        · exact all_conn_of_size hm hsize c hc
  · cases h

theorem replaceNode_same (mgr : RedisMgr) :
    SameCluster mgr mgr.replaceNode ∧ mgr.replaceNode.initState_ = mgr.initState_ := by
  unfold RedisMgr.replaceNode
  split
  · split <;> exact ⟨⟨rfl, rfl, rfl, rfl⟩, rfl⟩
  · exact ⟨SameCluster.refl mgr, rfl⟩

/-- A manager that keeps its topology. -/
theorem ClusterInv.replyOld (hi : ClusterInv s) {mgr : RedisMgr}
    (hsame : SameCluster (s.mgr.load s.states) mgr) (hstate : mgr.initState_ = s.mgr.initState_)
    (effects : List Effect) (ioIndex : UInt32) :
    ReplyOk s ⟨mgr, effects, ioIndex, s.created, none⟩ := by
  obtain ⟨hm, hs⟩ := hsame.masters
  refine ⟨hsame.svrType.trans hi.svrType, hstate ▸ hi.valid, Nat.le_refl _, fun _ => ?_,
    fun h => absurd rfl h⟩
  exact ⟨hstate, hsame.masterConn, hsame.slaveConn, hm.trans s.mgr.masters_load,
    hs.trans s.mgr.slaves_load⟩

theorem ClusterInv.nodesAgain (hi : ClusterInv s) (ioIndex : UInt32) :
    ReplyOk s (nodesAgain (s.mgr.load s.states) ioIndex s.created) := by
  obtain ⟨hsame, hstate⟩ := replaceNode_same (s.mgr.load s.states)
  exact hi.replyOld hsame hstate _ _

/-- Behind a new topology the manager runs exactly if all masters are counted. -/
theorem afterNodes_spec (mgr : RedisMgr) :
    SameCluster mgr (afterNodes mgr).1 ∧
      (mgr.initState_ ≠ .invalid → (afterNodes mgr).1.initState_ ≠ .invalid) ∧
      ((afterNodes mgr).1.initState_ = .runing →
        mgr.masters = [] ∨ mgr.clusterSize = some mgr.masterConn_) := by
  unfold afterNodes
  cases hsize : mgr.clusterSize with
  | none =>
    refine ⟨SameCluster.refl mgr, fun h => h, fun _ => .inl ?_⟩
    have hnone : mgr.cluterCli_ = none := Option.map_eq_none_iff.mp hsize
    simp [RedisMgr.masters, hnone]
  | some size =>
    simp only
    split
    · rename_i heq
      exact ⟨goRuning_sameCluster mgr, by simp [goRuning], fun _ => .inr (congrArg some heq.1)⟩
    · rename_i hne
      split
      · exact ⟨⟨rfl, rfl, rfl, rfl⟩, by simp, fun h => by cases h⟩
      · rename_i hne'
        refine ⟨SameCluster.refl mgr, fun h => h, fun hrun => .inr (congrArg some ?_)⟩
        by_contra hsize
        exact hne' ⟨hsize, hrun⟩

theorem ClusterInv.afterNodes {ioThreadNum : Nat} {text : Bytes} {mgr' : RedisClientMgr}
    {out : Analysis} (hi : ClusterInv s)
    (h : analysisClusterNodes (s.mgr.load s.states).toRedisClientMgr ioThreadNum text s.ioIndex
      s.created = some (0, mgr', out)) :
    ReplyOk s
      ⟨(RedisAsyn.afterNodes { s.mgr.load s.states with toRedisClientMgr := mgr' }).1,
        out.addRedisCli.map .libeventIoOrder ++
          (RedisAsyn.afterNodes { s.mgr.load s.states with toRedisClientMgr := mgr' }).2,
        out.ioIndex, out.created, some out.addRedisCli⟩ := by
  obtain ⟨hm, hs, hcreated⟩ := recounted hi.fresh h
  obtain ⟨hsame, hval, hrun⟩ := afterNodes_spec { s.mgr.load s.states with toRedisClientMgr := mgr' }
  obtain ⟨hmasters, hslaves⟩ := hsame.masters
  refine ⟨hsame.svrType.trans hi.svrType, hval hi.valid, hcreated, fun h => (by cases h), fun _ => ?_⟩
  refine ⟨?_, ?_, fun hst => ?_⟩
  · rw [hsame.masterConn, hmasters]
    exact hm
  · rw [hsame.slaveConn, hslaves]
    exact hs
  · rw [hmasters, RedisMgr.clusterSize, hsame.cluterCli, hsame.masterConn]
    exact hrun hst

theorem ClusterInv.nodesReply {ioThreadNum : Nat} {ret : Int} {resultMsg : List Bytes} {r : Replied}
    (hi : ClusterInv s)
    (h : clusterNodesCallBack ioThreadNum (s.mgr.load s.states) s.ioIndex s.created ret resultMsg =
      some r) : ReplyOk s r := by
  have hvalid : (s.mgr.load s.states).initState_ ≠ .invalid := hi.valid
  unfold clusterNodesCallBack at h
  rw [if_neg hvalid] at h
  split at h
  · cases h
    exact hi.nodesAgain _
  split at h
  · cases h
  split at h
  · cases h
    exact hi.nodesAgain _
  split at h
  · cases h
  rename_i text _ _ _ result mgr' out hana
  split at h
  · rename_i hret
    subst hret
    cases h
    exact hi.afterNodes hana
  · cases h
    exact hi.nodesAgain _

theorem ClusterInv.initReply {ioThreadNum : Nat} {ret : Int} {resultMsg : List Bytes} {r : Replied}
    (hi : ClusterInv s) (hc : s.mgr.initState_ ≠ .runing)
    (h : clusterInitCallBack ioThreadNum (s.mgr.load s.states) s.ioIndex s.created ret resultMsg =
      some r) : ReplyOk s r := by
  have hvalid : (s.mgr.load s.states).initState_ ≠ .invalid := hi.valid
  have hold := hi.replyOld (SameCluster.refl (s.mgr.load s.states)) rfl
  unfold clusterInitCallBack at h
  rw [if_neg hvalid] at h
  split at h
  · cases h
    exact hold _ _
  split at h
  · cases h
  split at h
  · cases h
  rename_i text _ _ result mgr' out hana
  split at h
  · rename_i hret
    subst hret
    cases h
    obtain ⟨hm, hs, hcreated⟩ := recounted hi.fresh hana
    refine ⟨hi.svrType, hi.valid, hcreated, fun h => (by cases h), fun _ => ⟨hm, hs, fun hst => ?_⟩⟩
    exact absurd hst hc
  · cases h
    exact hold _ _

/-- The reply to `CLUSTER INFO` only changes the state, and never to `RUNING`. -/
theorem clusterInfoCallBack_spec {mgr : RedisMgr} {ret : Int} {resultMsg : List Bytes}
    {r : RedisMgr × List Effect} (h : clusterInfoCallBack mgr ret resultMsg = some r) :
    orders r.2 = [] ∧ ∃ state, r.1 = { mgr with initState_ := state } ∧
      (mgr.initState_ ≠ .invalid → state ≠ .invalid) ∧ (state = .runing → mgr.initState_ = .runing) := by
  have hsame : ∃ state, mgr = { mgr with initState_ := state } ∧
      (mgr.initState_ ≠ .invalid → state ≠ .invalid) ∧ (state = .runing → mgr.initState_ = .runing) :=
    ⟨mgr.initState_, rfl, fun h => h, fun h => h⟩
  unfold clusterInfoCallBack at h
  simp only at h
  split at h
  · cases h
    exact ⟨rfl, hsame⟩
  split at h
  · cases h
    exact ⟨rfl, hsame⟩
  split at h
  · cases h
  split at h
  · cases h
  have hbad : (if mgr.initState_ = .error then (mgr, []) else ({ mgr with initState_ := .error },
      [Effect.asyncStateCallBack .error mgr.inSvrInfoStr_])) = r → orders r.2 = [] ∧ ∃ state,
      r.1 = { mgr with initState_ := state } ∧ (mgr.initState_ ≠ .invalid → state ≠ .invalid) ∧
      (state = .runing → mgr.initState_ = .runing) := by
    intro hr
    split at hr
    · cases hr
      exact ⟨rfl, hsame⟩
    · cases hr
      exact ⟨rfl, .error, rfl, by simp, by simp⟩
  split at h
  · exact hbad (Option.some.inj h)
  split at h
  · split at h
    · cases h
      exact ⟨rfl, .exception, rfl, by simp, by simp⟩
    · cases h
      exact ⟨rfl, hsame⟩
  · exact hbad (Option.some.inj h)

theorem ClusterInv.next {ioThreadNum : Nat} {a : ClusterAct} (hi : ClusterInv s) (hc : Announced s a)
    (h : s.next ioThreadNum a = some s') : ClusterInv s' := by
  cases a with
  | change n => exact hi.change h
  | notify id => exact hi.notify hc h
  | nodesReply ret resultMsg =>
    obtain ⟨r, hr, hs⟩ := Option.bind_eq_some_iff.mp h
    exact hi.replied (hi.nodesReply hr) hs
  | initReply ret resultMsg =>
    obtain ⟨r, hr, hs⟩ := Option.bind_eq_some_iff.mp h
    exact hi.replied (hi.initReply hc hr) hs
  | infoReply ret resultMsg =>
    obtain ⟨r, hr, rfl⟩ := Option.map_eq_some_iff.mp h
    obtain ⟨-, state, heq, hval, hrun⟩ := clusterInfoCallBack_spec hr
    rw [heq]
    exact { hi with valid := hval hi.valid, runing := fun hst => hi.runing (hrun hst) }

theorem clusterSystem_inv (ioThreadNum : Nat) (svr : RedisSvrInfo) :
    ClusterInv (clusterSystem ioThreadNum svr).init where
  svrType := rfl
  valid := by simp [clusterSystem]
  masters := rfl
  slaves := rfl
  fits := by simp [clusterSystem, RedisMgr.masters, RedisMgr.slaves]
  fresh _ _ := rfl
  quiet _ _ := rfl
  pending := by simp [clusterSystem]
  runing := by simp [clusterSystem]

/-- In every run whose steps all meet the condition, the counts are right. -/
theorem clusterCounted {ioThreadNum : Nat} {svr : RedisSvrInfo}
    (h : ((clusterSystem ioThreadNum svr).only Announced).Reach s) : CountsRight s := by
  have hi : ClusterInv s := h.inv_only (I := ClusterInv) (clusterSystem_inv ioThreadNum svr)
    fun _ _ _ hi hc hs => hi.next hc hs
  have htold : s.pending = [] → s.told = s.states := fun hp => funext fun id =>
    hi.quiet id (by simp [hp])
  refine ⟨fun hp => ?_, fun hp => ?_, ⟨?_, ?_⟩, fun hp hrun c hc => ?_⟩
  · rw [hi.masters, htold hp]
  · rw [hi.slaves, htold hp]
  · rw [hi.masters]
    exact up_le_length _ _
  · rw [hi.slaves]
    exact up_le_length _ _
  · rw [← htold hp]
    exact hi.runing hrun c hc

end Steps

/-! ## A recount between two steps -/

/-- The first client connects, and the cluster says that it is its only master. -/
def oneMasterRun : List ClusterAct :=
  [.change ⟨0, .success, []⟩, .notify 0, .initReply 0 [clusterText [migratingLine]]]

theorem clusterCounted_oneMaster : ∃ s,
    ((clusterSystem 1 ⟨[103], 2⟩).only Announced).run (clusterSystem 1 ⟨[103], 2⟩).init oneMasterRun =
      some s ∧ s.pending = [] ∧ s.mgr.masterConn_ = 1 ∧ CountsRight s := by
  have hrun : (((clusterSystem 1 ⟨[103], 2⟩).only Announced).run (clusterSystem 1 ⟨[103], 2⟩).init
      oneMasterRun).map (fun s => (s.pending, s.mgr.masterConn_)) = some ([], 1) := by decide +kernel
  obtain ⟨s, hs, heq⟩ := Option.map_eq_some_iff.mp hrun
  obtain ⟨hp, hm⟩ := Prod.mk.injEq .. ▸ heq
  exact ⟨s, hs, hp, hm, clusterCounted (Sys.Reach.init.run _ hs)⟩

/-- The master is lost, the nodes are counted anew, and then its notification counts down from 0. -/
theorem recount_between_wraps : ¬ ∀ ioThreadNum svr s, (clusterSystem ioThreadNum svr).Reach s →
    CountsRight s := by
  intro h
  have hrun : ((clusterSystem 1 ⟨[103], 2⟩).run (clusterSystem 1 ⟨[103], 2⟩).init
      (oneMasterRun ++ [.change ⟨0, .disconn, []⟩, .nodesReply 0 [clusterText [migratingLine]],
        .notify 0])).map (fun s => (s.mgr.masterConn_, s.mgr.masters.length)) =
      some (2 ^ 64 - 1, 1) := by decide +kernel
  obtain ⟨s, hs, heq⟩ := Option.map_eq_some_iff.mp hrun
  obtain ⟨hm, hl⟩ := Prod.mk.injEq .. ▸ heq
  have hle := (h _ _ s (Sys.Reach.init.run _ hs)).noWrap.1
  rw [hm, hl] at hle
  exact absurd hle (by decide)

end RedisAsyn
end CmakeFrame
