import CmakeFrame.RedisAsyn.ClusterCount
import CmakeFrame.RedisAsyn.SlaveNodes

/-!
# Every client that the manager uses is looked after

A client that is not connected has an attempt under way or a connect order that waits.

* `RedisMgr.refs`: the clients that the manager uses; `orders`: the connect orders of a call.
* `Reconnects`: the branches of `redisSvrOnConnect` that order a new connection;
  `redisSvrOnConnect_orders`: these and no others.
* `careSystem`: a manager with its clients, their attempts and their orders, the notifications, and
  the replies that make a new topology.
* `Cared`: every client is looked after; `Kept`: the condition on a notification; `cared`: as long as
  all notifications meet it, every client is looked after, and the first one that does not leaves
  a client alone.
* `first_reset_abandons`: a cluster whose first connection attempt fails.
-/

namespace CmakeFrame
namespace RedisAsyn

open Lib

/-! ## Clients and orders -/

def RedisMgr.slaveRefs (mgr : RedisMgr) : List RedisCli := (mgr.mSlaveCli_.map (·.clis)).getD []

/-- The clients of `nodeCli_`, `mSlaveCli_` and `cluterCli_`. -/
def RedisMgr.refs (mgr : RedisMgr) : List RedisCli :=
  mgr.nodeCli_.toList ++ mgr.slaveRefs ++ (mgr.masters ++ mgr.slaves)

/-- The client that a reconnect for the address is for. -/
def RedisMgr.found (mgr : RedisMgr) (svr : RedisSvrInfo) : List Nat :=
  (mgr.reconnectCli svr).toList.map (·.id)

theorem orders_reconnectAtOnece (mgr : RedisMgr) (svr : RedisSvrInfo) :
    orders (reconnectAtOnece mgr svr) = mgr.found svr := by
  unfold reconnectAtOnece RedisMgr.found
  cases mgr.reconnectCli svr <;> rfl

theorem orders_delayReconnect (mgr : RedisMgr) (svr : RedisSvrInfo) :
    orders (delayReconnect mgr svr) = mgr.found svr := by
  unfold delayReconnect RedisMgr.found
  cases mgr.reconnectCli svr <;> rfl

/-! ## The branches that reconnect -/

/-- The branches of `redisSvrOnConnect` that order a new connection. -/
def Reconnects (mgr : RedisMgr) (svr : RedisSvrInfo) (state : ConnEvent) : Prop :=
  (mgr.svrType_ = .single ∧
    (state = .reset ∧ (mgr.initState_ = .init ∨ mgr.initState_ = .error) ∨
      state = .disconn ∧ mgr.initState_ = .runing)) ∨
  (mgr.svrType_ = .masterSlave ∧ state ≠ .success ∧
    (mgr.initState_ = .init ∨ mgr.initState_ = .runing)) ∨
  (mgr.svrType_ = .cluster ∧ mgr.initState_ ≠ .invalid ∧
    (state = .reset ∧ (mgr.initState_ = .init → mgr.addrInfo svr ≠ .noIn) ∨
      state = .disconn ∧ mgr.addrInfo svr ≠ .noIn))

instance (mgr : RedisMgr) (svr : RedisSvrInfo) (state : ConnEvent) :
    Decidable (Reconnects mgr svr state) :=
  inferInstanceAs (Decidable (_ ∨ _))

/-- The same clients, found by the same addresses. -/
structure SameRefs (mgr mgr' : RedisMgr) : Prop where
  nodeCli : mgr'.nodeCli_ = mgr.nodeCli_
  mSlaveCli : mgr'.mSlaveCli_ = mgr.mSlaveCli_
  cluterCli : mgr'.cluterCli_ = mgr.cluterCli_

theorem SameRefs.refl (mgr : RedisMgr) : SameRefs mgr mgr := ⟨rfl, rfl, rfl⟩

theorem SameRefs.refs {mgr mgr' : RedisMgr} (h : SameRefs mgr mgr') : mgr'.refs = mgr.refs := by
  simp [RedisMgr.refs, RedisMgr.slaveRefs, RedisMgr.masters, RedisMgr.slaves, h.nodeCli, h.mSlaveCli,
    h.cluterCli]

theorem SameRefs.found {mgr mgr' : RedisMgr} (h : SameRefs mgr mgr') (svr : RedisSvrInfo) :
    mgr'.found svr = mgr.found svr := by
  simp [RedisMgr.found, RedisMgr.reconnectCli, h.nodeCli, h.mSlaveCli, h.cluterCli]

theorem countConn_refs (mgr : RedisMgr) (onConned : Bool) (info : AddrInfo) :
    SameRefs mgr (mgr.countConn onConned info) := by
  cases info <;> exact ⟨rfl, rfl, rfl⟩

theorem goRuning_refs (mgr : RedisMgr) : SameRefs mgr (goRuning mgr).1 := ⟨rfl, rfl, rfl⟩

theorem SameRefs.trans {mgr mgr' mgr'' : RedisMgr} (h : SameRefs mgr mgr') (h' : SameRefs mgr' mgr'') :
    SameRefs mgr mgr'' :=
  ⟨h'.nodeCli.trans h.nodeCli, h'.mSlaveCli.trans h.mSlaveCli, h'.cluterCli.trans h.cluterCli⟩

/-- What a notification leaves: the clients, and the connect order of its branch. -/
def Ordered (mgr : RedisMgr) (svr : RedisSvrInfo) (state : ConnEvent) (r : RedisMgr × List Effect) : Prop :=
  SameRefs mgr r.1 ∧ orders r.2 = if Reconnects mgr svr state then mgr.found svr else []

theorem Ordered.intro {mgr : RedisMgr} {svr : RedisSvrInfo} {state : ConnEvent}
    {r : RedisMgr × List Effect} (hrefs : SameRefs mgr r.1) (h : Reconnects mgr svr state)
    (ho : orders r.2 = mgr.found svr) : Ordered mgr svr state r := ⟨hrefs, by rw [if_pos h, ho]⟩

theorem Ordered.intro_none {mgr : RedisMgr} {svr : RedisSvrInfo} {state : ConnEvent}
    {r : RedisMgr × List Effect} (hrefs : SameRefs mgr r.1) (h : ¬ Reconnects mgr svr state)
    (ho : orders r.2 = []) : Ordered mgr svr state r := ⟨hrefs, by rw [if_neg h, ho]⟩

section

variable {mgr : RedisMgr} (svr : RedisSvrInfo) (errMsg : Bytes)

theorem onConnectSingle_orders (ht : mgr.svrType_ = .single) (state : ConnEvent) :
    Ordered mgr svr state (onConnectSingle mgr svr errMsg state) := by
  have hdelay := orders_delayReconnect mgr svr
  have honce := orders_reconnectAtOnece mgr svr
  cases hst : mgr.initState_ with
  | init =>
    cases state with
    | success =>
      simp only [onConnectSingle, hst]
      exact Ordered.intro_none (goRuning_refs mgr) (by simp [Reconnects, ht]) rfl
    | reset =>
      simp only [onConnectSingle, hst]
      exact Ordered.intro (SameRefs.refl mgr) (by simp [Reconnects, ht, hst]) hdelay
    | disconn =>
      simp only [onConnectSingle, hst]
      exact Ordered.intro_none (SameRefs.refl mgr) (by simp [Reconnects, ht, hst]) rfl
  | runing =>
    cases state with
    | success =>
      simp only [onConnectSingle, hst]
      exact Ordered.intro_none (SameRefs.refl mgr) (by simp [Reconnects, ht]) rfl
    | reset =>
      simp only [onConnectSingle, hst]
      exact Ordered.intro_none (SameRefs.refl mgr) (by simp [Reconnects, ht, hst]) rfl
    | disconn =>
      simp only [onConnectSingle, hst]
      exact Ordered.intro ⟨rfl, rfl, rfl⟩ (by simp [Reconnects, ht, hst]) honce
  | exception =>
    simp only [onConnectSingle, hst]
    exact Ordered.intro_none (SameRefs.refl mgr) (by simp [Reconnects, ht, hst]) rfl
  | error =>
    cases state with
    | success =>
      simp only [onConnectSingle, hst]
      exact Ordered.intro_none (goRuning_refs mgr) (by simp [Reconnects, ht]) rfl
    | reset =>
      simp only [onConnectSingle, hst]
      exact Ordered.intro (SameRefs.refl mgr) (by simp [Reconnects, ht, hst]) hdelay
    | disconn =>
      simp only [onConnectSingle, hst]
      exact Ordered.intro_none (SameRefs.refl mgr) (by simp [Reconnects, ht, hst]) rfl
  | invalid =>
    simp only [onConnectSingle, hst]
    exact Ordered.intro_none (SameRefs.refl mgr) (by simp [Reconnects, ht, hst]) rfl

theorem infoReplicConnsUpdate_refs (onConned : Bool) :
    SameRefs mgr (infoReplicConnsUpdate mgr svr onConned).2 := by
  unfold infoReplicConnsUpdate
  split
  · exact SameRefs.refl mgr
  · exact countConn_refs _ _ _

theorem onConnectMasterSlave_orders (ht : mgr.svrType_ = .masterSlave) (state : ConnEvent) :
    Ordered mgr svr state (onConnectMasterSlave mgr svr errMsg state) := by
  have hdelay := orders_delayReconnect mgr svr
  have hinfo : SameRefs mgr (infoReplicConnsUpdate mgr svr true).2 := infoReplicConnsUpdate_refs svr true
  have honce : orders (reconnectAtOnece (infoReplicConnsUpdate mgr svr true).2 svr) = mgr.found svr := by
    rw [orders_reconnectAtOnece, hinfo.found]
  cases hst : mgr.initState_ with
  | init =>
    cases state with
    | success =>
      simp only [onConnectMasterSlave, hst]
      split
      · exact Ordered.intro_none (SameRefs.refl mgr) (by simp [Reconnects, ht]) rfl
      · split
        · exact Ordered.intro_none (hinfo.trans (goRuning_refs _)) (by simp [Reconnects, ht]) rfl
        · exact Ordered.intro_none hinfo (by simp [Reconnects, ht]) rfl
    | reset =>
      simp only [onConnectMasterSlave, hst]
      exact Ordered.intro (SameRefs.refl mgr) (by simp [Reconnects, ht, hst]) hdelay
    | disconn =>
      simp only [onConnectMasterSlave, hst]
      exact Ordered.intro hinfo (by simp [Reconnects, ht, hst]) honce
  | runing =>
    cases state with
    | success =>
      simp only [onConnectMasterSlave, hst]
      exact Ordered.intro_none hinfo (by simp [Reconnects, ht]) rfl
    | reset =>
      simp only [onConnectMasterSlave, hst]
      exact Ordered.intro (SameRefs.refl mgr) (by simp [Reconnects, ht, hst]) hdelay
    | disconn =>
      simp only [onConnectMasterSlave, hst]
      refine Ordered.intro hinfo (by simp [Reconnects, ht, hst]) ?_
      simp only [List.cons_append]
      rw [orders_cons_none rfl, orders_append, honce]
      split <;> simp [orders, Effect.order]
  | exception =>
    simp only [onConnectMasterSlave, hst]
    exact Ordered.intro_none (SameRefs.refl mgr) (by simp [Reconnects, ht, hst]) rfl
  | error =>
    simp only [onConnectMasterSlave, hst]
    exact Ordered.intro_none (SameRefs.refl mgr) (by simp [Reconnects, ht, hst]) rfl
  | invalid =>
    simp only [onConnectMasterSlave, hst]
    exact Ordered.intro_none (SameRefs.refl mgr) (by simp [Reconnects, ht, hst]) rfl

/-- A loss in the states `INIT` and `RUNING`: a new connection if the address is in the cluster. -/
theorem onClusterLoss_orders {mgr' : RedisMgr} (hrefs : SameRefs mgr mgr') {os : List Effect}
    (hos : orders os = mgr.found svr) (code : ExceCode) {state : ConnEvent}
    (h : Reconnects mgr svr state ↔ mgr.addrInfo svr ≠ .noIn) :
    Ordered mgr svr state (onClusterLoss mgr' svr errMsg (mgr.addrInfo svr) os code) := by
  cases hinfo : mgr.addrInfo svr with
  | noIn => exact Ordered.intro_none hrefs (by simp [h, hinfo]) rfl
  | slave => exact Ordered.intro hrefs (by simp [h, hinfo]) hos
  | master =>
    refine Ordered.intro ⟨hrefs.nodeCli, hrefs.mSlaveCli, hrefs.cluterCli⟩ (by simp [h, hinfo]) ?_
    have hrest : orders [Effect.asyncStateCallBack .exception (exceMsgBuf svr errMsg),
        .clusterNodesUpdate true false] = [] := rfl
    simp only [onClusterLoss, goException, List.cons_append]
    rw [orders_cons_none rfl, orders_append, hos, hrest, List.append_nil]

/-- A loss in the other states. -/
theorem clusterLoss_orders {mgr' : RedisMgr} (hrefs : SameRefs mgr mgr') {os : List Effect}
    (hos : orders os = mgr.found svr) (code : ExceCode) {state : ConnEvent}
    (h : Reconnects mgr svr state ↔ mgr.addrInfo svr ≠ .noIn) :
    Ordered mgr svr state (mgr', .asyncExceCallBack code (exceMsgBuf svr errMsg) ::
      if mgr.addrInfo svr = .noIn then [] else os) := by
  split
  · rename_i hinfo
    exact Ordered.intro_none hrefs (by simp [h, hinfo]) rfl
  · rename_i hinfo
    exact Ordered.intro hrefs (h.mpr hinfo) hos

theorem onConnectCluster_orders (ht : mgr.svrType_ = .cluster) {state : ConnEvent}
    {r : RedisMgr × List Effect} (h : onConnectCluster mgr svr errMsg state = some r) :
    Ordered mgr svr state r := by
  have hup : SameRefs mgr (mgr.counted svr .success) := countConn_refs mgr true (mgr.addrInfo svr)
  have hdown : SameRefs mgr (mgr.counted svr .disconn) := countConn_refs mgr false (mgr.addrInfo svr)
  have hdelay := orders_delayReconnect mgr svr
  have honce : orders (reconnectAtOnece (mgr.counted svr .disconn) svr) = mgr.found svr := by
    rw [orders_reconnectAtOnece, hdown.found]
  have hno : ¬ Reconnects mgr svr .success := by simp [Reconnects, ht]
  cases onConnectCluster_cases h with
  | first => exact Ordered.intro_none (SameRefs.refl mgr) hno rfl
  | up => exact Ordered.intro_none hup hno rfl
  | all => exact Ordered.intro_none (hup.trans (goRuning_refs _)) hno rfl
  | resetInit hst =>
    exact onClusterLoss_orders svr errMsg (SameRefs.refl mgr) hdelay _ (by simp [Reconnects, ht, hst])
  | reset hst hvalid =>
    exact Ordered.intro (SameRefs.refl mgr) (by simp [Reconnects, ht, hst, hvalid]) hdelay
  | lost hst =>
    refine onClusterLoss_orders svr errMsg hdown honce _ ?_
    rcases hst with hst | hst <;> simp [Reconnects, ht, hst]
  | lostAgain hst =>
    refine clusterLoss_orders svr errMsg hdown honce _ ?_
    rcases hst with hst | hst <;> simp [Reconnects, ht, hst]
  | invalid _ hst =>
    exact Ordered.intro_none (SameRefs.refl mgr) (by simp [Reconnects, ht, hst]) rfl

/-- A notification changes no client, and orders a new connection in the branches of `Reconnects` and
in no other. -/
theorem redisSvrOnConnect_orders {state : ConnEvent} {r : RedisMgr × List Effect}
    (h : redisSvrOnConnect mgr svr errMsg state = some r) : Ordered mgr svr state r := by
  unfold redisSvrOnConnect at h
  split at h
  · rename_i ht
    cases h
    exact Ordered.intro_none (SameRefs.refl mgr) (by simp [Reconnects, ht]) rfl
  · rename_i ht
    cases h
    exact onConnectSingle_orders svr errMsg ht state
  · rename_i ht
    cases h
    exact onConnectMasterSlave_orders svr errMsg ht state
  · rename_i ht
    exact onConnectCluster_orders svr errMsg ht h

end

/-! ## The system -/

/-- A manager with its clients. `attempts` are the connection attempts that run, `waiting` the
connect orders in `TimerOrderDeque` and in the queues of the loops. -/
structure CareState where
  mgr : RedisMgr
  states : ConnStates
  addrs : Nat → RedisSvrInfo
  attempts : Nat → Nat
  waiting : List Nat
  ioIndex : UInt32
  created : Nat

inductive CareAct where
  /-- A client connects, fails to, or loses its connection, and the manager is told. -/
  | notify (n : Notice)
  /-- A connect order gets to its client. -/
  | take (id : Nat)
  | clusterNodesCallBack (ret : Int) (resultMsg : List Bytes)
  | clusterInitCallBack (ret : Int) (resultMsg : List Bytes)
  | clusterInfoCallBack (ret : Int) (resultMsg : List Bytes)
  | infoReplicationCb (resultMsg : List Bytes)
  deriving DecidableEq, Repr

namespace CareState

/-- The attempts that are left when the client has got an answer, or has lost its connection. -/
def attemptsLeft (s : CareState) (n : Notice) : Nat → Nat :=
  if n.state = .disconn then s.attempts
  else Function.update s.attempts n.id (s.attempts n.id - 1)

/-- The state behind a reply. -/
def replied (s : CareState) (r : Replied) : CareState :=
  { s with
    mgr := r.mgr, ioIndex := r.ioIndex, created := r.created
    addrs := fun id => (((r.added.getD []).find? (·.id = id)).map (·.svrInfo_)).getD (s.addrs id)
    waiting := s.waiting ++ orders r.effects }

def next (ioThreadNum : Nat) (s : CareState) : CareAct → Option CareState
  | .notify n =>
    -- an answer is the answer to an attempt
    if n.state ≠ .disconn ∧ s.attempts n.id = 0 then none
    else
      match n.state.change n.id s.states with
      | none => none
      | some states =>
        (redisSvrOnConnect s.mgr (s.addrs n.id) n.errMsg n.state).map fun r =>
          { s with
            mgr := r.1, states := states, attempts := s.attemptsLeft n
            waiting := s.waiting ++ orders r.2 }
  | .take id =>
    if id ∈ s.waiting then
      -- for a connected client the order closes the connection, which makes a notification
      some { s with
        waiting := s.waiting.erase id
        attempts := if s.states id = .init then Function.update s.attempts id (s.attempts id + 1)
          else s.attempts }
    else none
  | .clusterNodesCallBack ret resultMsg =>
    if s.mgr.svrType_ = .cluster then
      (RedisAsyn.clusterNodesCallBack ioThreadNum (s.mgr.load s.states) s.ioIndex s.created ret
        resultMsg).map s.replied
    else none
  | .clusterInitCallBack ret resultMsg =>
    if s.mgr.svrType_ = .cluster then
      (RedisAsyn.clusterInitCallBack ioThreadNum (s.mgr.load s.states) s.ioIndex s.created ret
        resultMsg).map s.replied
    else none
  | .clusterInfoCallBack ret resultMsg =>
    if s.mgr.svrType_ = .cluster then
      (RedisAsyn.clusterInfoCallBack s.mgr ret resultMsg).map fun r => { s with mgr := r.1 }
    else none
  | .infoReplicationCb resultMsg =>
    if s.mgr.svrType_ = .masterSlave then
      (RedisAsyn.infoReplicationCb ioThreadNum (s.mgr.load s.states) s.ioIndex s.created
        resultMsg).map s.replied
    else none

end CareState

def careSystem (ioThreadNum : Nat) (start : CareState) : Sys CareState CareAct where
  init := start
  next := CareState.next ioThreadNum

/-- The client is connected, has an attempt that runs, or has an order that waits. -/
def CareState.caresFor (s : CareState) (id : Nat) : Prop :=
  s.states id = .conn ∨ 0 < s.attempts id ∨ id ∈ s.waiting

/-- Every client that the manager uses is looked after. -/
def Cared (s : CareState) : Prop := ∀ c ∈ s.mgr.refs, s.caresFor c.id

/-- A client that the manager uses, and that has no other attempt and no order, is lost only in a
branch that orders a new connection, and is found there by its address. -/
def Kept (s : CareState) (n : Notice) : Prop :=
  n.state = .success ∨ (∀ c ∈ s.mgr.refs, c.id ≠ n.id) ∨ 0 < s.attemptsLeft n n.id ∨ n.id ∈ s.waiting ∨
    Reconnects s.mgr (s.addrs n.id) n.state ∧ n.id ∈ s.mgr.found (s.addrs n.id)

instance (s : CareState) (n : Notice) : Decidable (Kept s n) := inferInstanceAs (Decidable (_ ∨ _))

/-- The condition on a step. -/
def CareOk (s : CareState) : CareAct → Prop
  | .notify n => Kept s n
  | .take _ => True
  | .clusterNodesCallBack _ _ => True
  | .clusterInitCallBack _ _ => True
  | .clusterInfoCallBack _ _ => True
  | .infoReplicationCb _ => True

instance (s : CareState) (a : CareAct) : Decidable (CareOk s a) :=
  match a with
  | .notify n => inferInstanceAs (Decidable (Kept s n))
  | .take _ => instDecidableTrue
  | .clusterNodesCallBack _ _ => instDecidableTrue
  | .clusterInitCallBack _ _ => instDecidableTrue
  | .clusterInfoCallBack _ _ => instDecidableTrue
  | .infoReplicationCb _ => instDecidableTrue

/-! ## Notifications and orders -/

section

variable {s s' : CareState} {ioThreadNum : Nat}

/-- A notification leaves every client looked after exactly if it meets the condition. -/
theorem notify_cared {n : Notice} (hi : Cared s) (h : s.next ioThreadNum (.notify n) = some s') :
    Cared s' ↔ Kept s n := by
  simp only [CareState.next] at h
  split at h
  · cases h
  split at h
  · cases h
  rename_i states hchange
  obtain ⟨r, hr, rfl⟩ := Option.map_eq_some_iff.mp h
  obtain ⟨hself, -, hother⟩ := ConnEvent.change_spec hchange
  obtain ⟨hrefs, hord⟩ := redisSvrOnConnect_orders (s.addrs n.id) n.errMsg hr
  have hleft : ∀ id, id ≠ n.id → s.attemptsLeft n id = s.attempts id := by
    intro id hne
    unfold CareState.attemptsLeft
    split
    · rfl
    · exact Function.update_of_ne hne _ _
  -- what is left to show is about the client itself
  have hcare : ∀ c ∈ s.mgr.refs, c.id ≠ n.id → CareState.caresFor { s with
      mgr := r.1, states := states, attempts := s.attemptsLeft n
      waiting := s.waiting ++ orders r.2 } c.id := by
    intro c hc hne
    rcases hi c hc with hconn | hatt | hwait
    · exact .inl ((hother c.id hne).trans hconn)
    · exact .inr (.inl (hatt.trans_eq (hleft c.id hne).symm))
    · exact .inr (.inr (List.mem_append_left _ hwait))
  have hiff : Cared { s with
      mgr := r.1, states := states, attempts := s.attemptsLeft n
      waiting := s.waiting ++ orders r.2 } ↔ (∀ c ∈ s.mgr.refs, c.id ≠ n.id) ∨
      (states n.id = .conn ∨ 0 < s.attemptsLeft n n.id ∨ n.id ∈ s.waiting ++ orders r.2) := by
    unfold Cared
    rw [hrefs.refs]
    constructor
    · intro hall
      by_cases hex : ∀ c ∈ s.mgr.refs, c.id ≠ n.id
      · exact .inl hex
      · simp only [not_forall, not_not] at hex
        obtain ⟨c, hc, hid⟩ := hex
        exact .inr (hid ▸ hall c hc)
    · rintro hor c hc
      by_cases hid : c.id = n.id
      · rw [hid]
        exact hor.resolve_left fun hno => hno c hc hid
      · exact hcare c hc hid
  rw [hiff, hself, hord, List.mem_append]
  unfold Kept
  cases hev : n.state with
  | success => simp [ConnEvent.reports]
  | reset => by_cases hrec : Reconnects s.mgr (s.addrs n.id) .reset <;> simp [ConnEvent.reports, hrec]
  | disconn => by_cases hrec : Reconnects s.mgr (s.addrs n.id) .disconn <;> simp [ConnEvent.reports, hrec]

/-- An order that gets to its client becomes an attempt, unless the client is connected. -/
theorem take_cared {id : Nat} (hi : Cared s) (h : s.next ioThreadNum (.take id) = some s') : Cared s' := by
  simp only [CareState.next] at h
  split at h
  · cases h
    intro c hc
    by_cases hid : c.id = id
    · unfold CareState.caresFor
      cases hst : s.states id with
      | init => exact .inr (.inl (by simp [hid]))
      | conn => exact .inl (hid ▸ hst)
    · rcases hi c hc with hconn | hatt | hwait
      · exact .inl hconn
      · refine .inr (.inl ?_)
        simp only
        split
        · rwa [Function.update_of_ne hid]
        · exact hatt
      · exact .inr (.inr ((List.mem_erase_of_ne hid).mpr hwait))
  · cases h

/-! ## Replies -/

/-- The clients behind a reply are ones from before it, or have got an order. -/
def Covered (mgr : RedisMgr) (r : Replied) : Prop :=
  ∀ c ∈ r.mgr.refs, (∃ c₀ ∈ mgr.refs, c₀.id = c.id) ∨ c.id ∈ orders r.effects

theorem replied_cared {r : Replied} (hi : Cared s) (hr : Covered s.mgr r) : Cared (s.replied r) := by
  intro c hc
  rcases hr c hc with ⟨c₀, hc₀, hid⟩ | hord
  · rw [← hid]
    rcases hi c₀ hc₀ with hconn | hatt | hwait
    · exact .inl hconn
    · exact .inr (.inl hatt)
    · exact .inr (.inr (List.mem_append_left _ hwait))
  · exact .inr (.inr (List.mem_append_right _ hord))

variable {mgr : RedisMgr} {states : ConnStates}

theorem slaveRefs_load : (mgr.load states).slaveRefs = mgr.slaveRefs.map (·.load states) := by
  unfold RedisMgr.slaveRefs RedisMgr.load
  cases mgr.mSlaveCli_ with
  | none => rfl
  | some ms =>
    cases hm : ms.master_ <;>
      simp [RedisMasterSlave.load, RedisMasterSlave.clis, RedisMasterSlave.masters, hm]

theorem refs_load : (mgr.load states).refs = mgr.refs.map (·.load states) := by
  have hnode : (mgr.load states).nodeCli_.toList = mgr.nodeCli_.toList.map (·.load states) := by
    unfold RedisMgr.load
    cases mgr.nodeCli_ <;> rfl
  rw [RedisMgr.refs, hnode, slaveRefs_load, mgr.masters_load, mgr.slaves_load]
  simp only [RedisMgr.refs, List.map_append]

variable (states) in
/-- The clients of a loaded manager are the clients of the manager. -/
theorem covered_of_load {r : Replied}
    (h : ∀ c ∈ r.mgr.refs, c ∈ (mgr.load states).refs ∨ c.id ∈ orders r.effects) : Covered mgr r := by
  intro c hc
  refine (h c hc).imp_left fun hmem => ?_
  rw [refs_load] at hmem
  obtain ⟨c₀, hc₀, rfl⟩ := List.mem_map.mp hmem
  exact ⟨c₀, hc₀, rfl⟩

theorem mem_refs {c : RedisCli} : c ∈ mgr.refs ↔
    mgr.nodeCli_ = some c ∨ c ∈ mgr.slaveRefs ∨ c ∈ mgr.masters ++ mgr.slaves := by
  simp only [RedisMgr.refs, List.mem_append, Option.mem_toList, or_assoc]

theorem RedisClusterInfo.mem_clis {info : RedisClusterInfo} {c : RedisCli} (h : c ∈ info.clis) :
    c ∈ info.masters ++ info.slaves := by
  obtain ⟨node, hnode, hc⟩ := List.mem_flatMap.mp h
  rcases List.mem_append.mp hc with hc | hc
  · exact List.mem_append_left _ (List.mem_flatMap.mpr ⟨node, hnode, hc⟩)
  · exact List.mem_append_right _ (List.mem_flatMap.mpr ⟨node, hnode, hc⟩)

theorem mem_masters_slaves {info : RedisClusterInfo} (h : mgr.cluterCli_ = some info) {c : RedisCli}
    (hc : c ∈ info.masters ++ info.slaves) : c ∈ mgr.masters ++ mgr.slaves := by
  simpa [RedisMgr.masters, RedisMgr.slaves, h] using hc

/-- The new `nodeCli_` is a client of the cluster. -/
theorem replaceNode_refs {c : RedisCli} (h : c ∈ mgr.replaceNode.refs) : c ∈ mgr.refs := by
  unfold RedisMgr.replaceNode at h
  split at h
  · split at h
    · exact h
    · rename_i cli hcli
      obtain ⟨info, hinfo, hfind⟩ := Option.bind_eq_some_iff.mp hcli
      rcases mem_refs.mp h with hc | hc
      · cases hc
        exact mem_refs.mpr (.inr (.inr (mem_masters_slaves hinfo
          (RedisClusterInfo.mem_clis (List.mem_of_find?_eq_some hfind)))))
      · exact mem_refs.mpr (.inr hc)
  · exact h

theorem nodesAgain_covered (ioIndex : UInt32) (created : Nat) :
    Covered mgr (nodesAgain (mgr.load states) ioIndex created) :=
  covered_of_load states fun _ hc => .inl (replaceNode_refs hc)

/-- The clients of a new topology. -/
theorem analysed_refs {text : Bytes} {ioIndex : UInt32} {created : Nat} {mgr' : RedisClientMgr}
    {out : Analysis}
    (h : analysisClusterNodes mgr.toRedisClientMgr ioThreadNum text ioIndex created =
      some (0, mgr', out)) :
    ∀ c ∈ ({ mgr with toRedisClientMgr := mgr' } : RedisMgr).refs, c ∈ mgr.refs ∨ c ∈ out.addRedisCli := by
  obtain ⟨ha, rfl⟩ := analysisClusterNodes_analysed h
  intro c hc
  rcases mem_refs.mp hc with hc | hc | hc
  · exact .inl (mem_refs.mpr (.inl hc))
  · exact .inl (mem_refs.mpr (.inr (.inl hc)))
  · have hinfo : c ∈ out.info.masters ++ out.info.slaves := by
      unfold Analysis.info
      cases ht : out.tmpClusterInfo with
      | none => simp [RedisMgr.masters, RedisMgr.slaves, ht] at hc
      | some info => simpa [RedisMgr.masters, RedisMgr.slaves, ht] using hc
    refine (ha.origin c hinfo).imp_left fun hk => ?_
    rcases hk.mem with ⟨info, hcl, hmem⟩ | hnode
    · exact mem_refs.mpr (.inr (.inr (mem_masters_slaves hcl hmem)))
    · exact mem_refs.mpr (.inl hnode)

theorem afterNodes_refs (mgr : RedisMgr) : SameRefs mgr (afterNodes mgr).1 := by
  unfold afterNodes
  split
  · exact SameRefs.refl mgr
  · split
    · exact goRuning_refs mgr
    · split
      · exact ⟨rfl, rfl, rfl⟩
      · exact SameRefs.refl mgr

/-- A new topology, with orders for its new clients and whatever else. -/
theorem analysed_covered {text : Bytes} {ioIndex ioIndex' : UInt32} {created created' : Nat}
    {mgr' : RedisClientMgr} {out : Analysis} {mgr'' : RedisMgr} {effects : List Effect}
    {added : Option (List RedisCli)}
    (h : analysisClusterNodes (mgr.load states).toRedisClientMgr ioThreadNum text ioIndex created =
      some (0, mgr', out))
    (hrefs : SameRefs { mgr.load states with toRedisClientMgr := mgr' } mgr'') :
    Covered mgr ⟨mgr'', out.addRedisCli.map .libeventIoOrder ++ effects, ioIndex', created', added⟩ := by
  refine covered_of_load states fun c hc => ?_
  rw [hrefs.refs] at hc
  refine (analysed_refs h c hc).imp_right fun hnew => ?_
  rw [orders_append, orders_libeventIoOrder]
  exact List.mem_append_left _ (List.mem_map_of_mem hnew)

theorem clusterNodesCallBack_covered {ioIndex : UInt32} {created : Nat} {ret : Int}
    {resultMsg : List Bytes} {r : Replied}
    (h : clusterNodesCallBack ioThreadNum (mgr.load states) ioIndex created ret resultMsg = some r) :
    Covered mgr r := by
  unfold clusterNodesCallBack at h
  split at h
  · cases h
    exact covered_of_load states fun _ hc => .inl hc
  split at h
  · cases h
    exact nodesAgain_covered _ _
  split at h
  · cases h
  split at h
  · cases h
    exact nodesAgain_covered _ _
  split at h
  · cases h
  rename_i text _ _ _ result mgr' out hana
  split at h
  · rename_i hret
    subst hret
    cases h
    exact analysed_covered hana (afterNodes_refs _)
  · cases h
    exact nodesAgain_covered _ _

theorem clusterInitCallBack_covered {ioIndex : UInt32} {created : Nat} {ret : Int}
    {resultMsg : List Bytes} {r : Replied}
    (h : clusterInitCallBack ioThreadNum (mgr.load states) ioIndex created ret resultMsg = some r) :
    Covered mgr r := by
  unfold clusterInitCallBack at h
  split at h
  · cases h
    exact covered_of_load states fun _ hc => .inl hc
  split at h
  · cases h
    exact covered_of_load states fun _ hc => .inl hc
  split at h
  · cases h
  split at h
  · cases h
  rename_i text _ _ result mgr' out hana
  split at h
  · rename_i hret
    subst hret
    cases h
    exact analysed_covered hana (SameRefs.refl _)
  · cases h
    exact covered_of_load states fun _ hc => .inl hc

/-! ## The reply to `INFO REPLICATION` -/

variable (mgr ioThreadNum) in
theorem getOrNewSlave_refs (svr : RedisSvrInfo) (a : Analysis) :
    a.addRedisCli ⊆ (getOrNewSlave mgr ioThreadNum svr a).2.addRedisCli ∧
      ((getOrNewSlave mgr ioThreadNum svr a).1 ∈ mgr.slaveRefs ∨
        (getOrNewSlave mgr ioThreadNum svr a).1 ∈
          (getOrNewSlave mgr ioThreadNum svr a).2.addRedisCli) := by
  unfold getOrNewSlave
  cases hk : mgr.mSlaveCli_.bind (·.getRedisClient svr) with
  | some c =>
    obtain ⟨ms, hms, hc⟩ := Option.bind_eq_some_iff.mp hk
    have hmem : c ∈ mgr.slaveRefs := by
      simpa [RedisMgr.slaveRefs, RedisMasterSlave.clis, hms] using
        RedisMasterSlave.mem_of_getRedisClient hc
    exact ⟨fun _ h => h, .inl hmem⟩
  | none => exact ⟨fun _ h => List.mem_append_left _ h, .inr (List.mem_append_right _ (by simp))⟩

theorem slaveLines_refs {slaveNum : Nat} {lines : List Bytes} {slave_ slave' : List RedisCli}
    {a a' : Analysis} {ret : Int}
    (h : slaveLines mgr ioThreadNum slaveNum lines slave_ a = some (ret, slave', a')) :
    a.addRedisCli ⊆ a'.addRedisCli ∧
      ∀ c ∈ slave', c ∈ slave_ ∨ c ∈ mgr.slaveRefs ∨ c ∈ a'.addRedisCli := by
  induction slaveNum generalizing lines slave_ a with
  | zero =>
    cases h
    exact ⟨fun _ h => h, fun c hc => .inl hc⟩
  | succ slaveNum ih =>
    cases lines with
    | nil => cases h
    | cons line lines =>
      simp only [slaveLines] at h
      split at h
      · cases h
        exact ⟨fun _ h => h, fun c hc => .inl hc⟩
      · rename_i svr _
        obtain ⟨hsub, hfrom⟩ := getOrNewSlave_refs ioThreadNum mgr svr a
        generalize getOrNewSlave mgr ioThreadNum svr a = r at h hsub hfrom
        generalize ha₁ : (if r.1.state_ = .conn then { r.2 with slaveConn := r.2.slaveConn + 1 }
          else r.2) = a₁ at h
        have hadd : a₁.addRedisCli = r.2.addRedisCli := by rw [← ha₁]; split <;> rfl
        obtain ⟨hsub', hfrom'⟩ := ih h
        rw [hadd] at hsub'
        refine ⟨fun c hc => hsub' (hsub hc), fun c hc => ?_⟩
        rcases hfrom' c hc with hc | hc
        · rcases List.mem_append.mp hc with hc | hc
          · exact .inl hc
          · rw [List.mem_singleton.mp hc]
            exact .inr (hfrom.imp_right fun hin => hsub' hin)
        · exact .inr hc

/-- The clients of the result are the node, known ones and new ones. -/
def SlaveResult.From (mgr : RedisMgr) (node : RedisCli) (r : SlaveResult) : Prop :=
  ∀ c, c = r.nodeCli_ ∨ c ∈ r.mSlaveCli_.clis → c = node ∨ c ∈ mgr.slaveRefs ∨ c ∈ r.out.addRedisCli

theorem roleMaster_from {node : RedisCli} {vLines : List Bytes} {a : Analysis} {r : SlaveResult}
    (h : roleMaster mgr ioThreadNum node vLines a = some r) : r.From mgr node := by
  unfold roleMaster at h
  simp only at h
  split at h
  · cases h
  split at h
  · cases h
    rintro c (hc | hc)
    · exact .inl hc
    · exact .inl (List.mem_singleton.mp hc)
  · obtain ⟨q, hq, rfl⟩ := Option.map_eq_some_iff.mp h
    obtain ⟨-, hfrom⟩ := slaveLines_refs hq
    rintro c (hc | hc)
    · exact .inl hc
    · rcases List.mem_cons.mp hc with hc | hc
      · exact .inl hc
      · exact .inr ((hfrom c hc).resolve_left (by simp))

theorem roleSlave_from {node : RedisCli} {vLines : List Bytes} {a : Analysis} {r : SlaveResult}
    (h : roleSlave mgr ioThreadNum node vLines a = some r) : r.From mgr node := by
  unfold roleSlave at h
  simp only at h
  generalize (if node.state_ = .conn then { a with slaveConn := a.slaveConn + 1 } else a) = a₁ at h
  have hbad : (⟨ANALYSIS_STRING_FORMATE_ERROR, ⟨none, [node]⟩, node, a₁⟩ : SlaveResult).From mgr node := by
    rintro c (hc | hc)
    · exact .inl hc
    · exact .inl (List.mem_singleton.mp hc)
  split at h
  · cases h
  split at h
  · cases h
    exact hbad
  rename_i ipaddr _
  split at h
  · cases h
  split at h
  · cases h
    exact hbad
  · rename_i portStr _
    obtain ⟨-, hfrom⟩ := getOrNewSlave_refs ioThreadNum mgr ⟨ipaddr, atoi portStr⟩ a₁
    generalize getOrNewSlave mgr ioThreadNum ⟨ipaddr, atoi portStr⟩ a₁ = q at h hfrom
    -- the master is the client that was found, the slave the node
    have hclis : ∀ c ∈ (⟨some q.1, [node]⟩ : RedisMasterSlave).clis,
        c = node ∨ c ∈ mgr.slaveRefs ∨ c ∈ q.2.addRedisCli := by
      intro c hc
      rcases List.mem_cons.mp hc with hc | hc
      · exact .inr (hc ▸ hfrom)
      · exact .inl (List.mem_singleton.mp hc)
    split at h
    · cases h
      rintro c (hc | hc)
      · exact .inr (hc ▸ hfrom)
      · exact hclis c hc
    · cases h
      rintro c (hc | hc)
      · exact .inl hc
      · exact hclis c hc

/-- The clients behind an analysis. -/
theorem analysisSlaveNodes_refs {text : Bytes} {ioIndex : UInt32} {created : Nat} {ret : Int}
    {mgr' : RedisMgr} {out : Analysis}
    (h : analysisSlaveNodes mgr ioThreadNum text ioIndex created = some (ret, mgr', out)) :
    (ret < 0 → mgr' = mgr) ∧ ∀ c ∈ mgr'.refs, c ∈ mgr.refs ∨ 0 ≤ ret ∧ c ∈ out.addRedisCli := by
  unfold analysisSlaveNodes at h
  simp only at h
  split at h
  · cases h
    exact ⟨fun _ => rfl, fun c hc => .inl hc⟩
  split at h
  · rename_i line node _ hnode
    obtain ⟨r, hr, heq⟩ := Option.map_eq_some_iff.mp h
    have hfrom : r.From mgr node := by
      split at hr
      · exact roleMaster_from hr
      · exact roleSlave_from hr
    split at heq
    · cases heq
      exact ⟨fun _ => rfl, fun c hc => .inl hc⟩
    · rename_i hret
      cases heq
      refine ⟨fun hneg => absurd hneg hret, fun c hc => ?_⟩
      have hnew : c = r.nodeCli_ ∨ c ∈ r.mSlaveCli_.clis →
          c ∈ mgr.refs ∨ 0 ≤ r.ret ∧ c ∈ r.out.addRedisCli := by
        intro hc
        rcases hfrom c hc with rfl | hc | hc
        · exact .inl (mem_refs.mpr (.inl hnode))
        · exact .inl (mem_refs.mpr (.inr (.inl hc)))
        · exact .inr ⟨by omega, hc⟩
      rcases mem_refs.mp hc with hc | hc | hc
      · exact hnew (.inl (Option.some.inj hc).symm)
      · exact hnew (.inr hc)
      · exact .inl (mem_refs.mpr (.inr (.inr hc)))
  · cases h

theorem afterReplic_refs (mgr : RedisMgr) : SameRefs mgr (afterReplic mgr).1 := by
  unfold afterReplic
  split
  · exact goRuning_refs mgr
  · split
    · exact ⟨rfl, rfl, rfl⟩
    · exact SameRefs.refl mgr

theorem replaceNodeCli_refs {mgr' : RedisMgr} (h : mgr.replaceNodeCli = some mgr') {c : RedisCli}
    (hc : c ∈ mgr'.refs) : c ∈ mgr.refs := by
  unfold RedisMgr.replaceNodeCli at h
  split at h
  · obtain ⟨ms, hms, rfl⟩ := Option.map_eq_some_iff.mp h
    have hslave : ∀ {c}, c ∈ ms.clis → c ∈ mgr.refs := fun hc =>
      mem_refs.mpr (.inr (.inl (by simpa [RedisMgr.slaveRefs, hms] using hc)))
    rcases mem_refs.mp hc with hc | hc
    · rcases Option.or_eq_some_iff.mp hc with hc | ⟨-, hc⟩
      · rcases Option.or_eq_some_iff.mp hc with hc | ⟨-, hc⟩
        · exact hslave (List.mem_append_right _ (List.mem_of_find?_eq_some hc))
        · have hm := (Option.filter_eq_some_iff.mp hc).1
          exact hslave (List.mem_append_left _ (by simp [RedisMasterSlave.masters, hm]))
      · exact mem_refs.mpr (.inl hc)
    · exact mem_refs.mpr (.inr hc)
  · cases h
    exact hc

theorem infoReplicationCb_covered {ioIndex : UInt32} {created : Nat} {resultMsg : List Bytes}
    {r : Replied}
    (h : infoReplicationCb ioThreadNum (mgr.load states) ioIndex created resultMsg = some r) :
    Covered mgr r := by
  unfold infoReplicationCb at h
  split at h
  · cases h
    exact covered_of_load states fun _ hc => .inl hc
  split at h
  · cases h
  split at h
  · cases h
  rename_i text _ _ result mgr' out hana
  obtain ⟨hsame, hrefs⟩ := analysisSlaveNodes_refs hana
  simp only at h
  -- behind the new states the clients are the same
  generalize hafter : (if result < 0 then (mgr', []) else afterReplic mgr') = q at h
  have hq : SameRefs mgr' q.1 := by
    rw [← hafter]
    split
    · exact SameRefs.refl mgr'
    · exact afterReplic_refs mgr'
  have hnew : ∀ c ∈ q.1.refs, ∀ rest, c ∈ (mgr.load states).refs ∨
      c.id ∈ orders ((if result < 0 then [] else out.addRedisCli.map .libeventIoOrder) ++ rest) := by
    intro c hc rest
    rw [hq.refs] at hc
    refine (hrefs c hc).imp_right fun ⟨hret, hin⟩ => ?_
    rw [if_neg (by omega), orders_append, orders_libeventIoOrder]
    exact List.mem_append_left _ (List.mem_map_of_mem hin)
  split at h
  · cases h
    exact covered_of_load states fun c hc => hnew c hc _
  · obtain ⟨mgr'', hreplace, rfl⟩ := Option.map_eq_some_iff.mp h
    refine covered_of_load states fun c hc => ?_
    rw [List.append_assoc]
    exact hnew c (replaceNodeCli_refs hreplace hc) _

/-! ## Every client is looked after -/

theorem next_cared {a : CareAct} (hi : Cared s) (hc : CareOk s a)
    (h : s.next ioThreadNum a = some s') : Cared s' := by
  cases a with
  | notify n => exact (notify_cared hi h).mpr hc
  | take id => exact take_cared hi h
  | clusterNodesCallBack ret resultMsg =>
    simp only [CareState.next] at h
    split at h
    · obtain ⟨r, hr, rfl⟩ := Option.map_eq_some_iff.mp h
      exact replied_cared hi (clusterNodesCallBack_covered hr)
    · cases h
  | clusterInitCallBack ret resultMsg =>
    simp only [CareState.next] at h
    split at h
    · obtain ⟨r, hr, rfl⟩ := Option.map_eq_some_iff.mp h
      exact replied_cared hi (clusterInitCallBack_covered hr)
    · cases h
  | clusterInfoCallBack ret resultMsg =>
    simp only [CareState.next] at h
    split at h
    · obtain ⟨r, hr, rfl⟩ := Option.map_eq_some_iff.mp h
      obtain ⟨-, state, heq, -⟩ := clusterInfoCallBack_spec hr
      rw [heq]
      exact hi
    · cases h
  | infoReplicationCb resultMsg =>
    simp only [CareState.next] at h
    split at h
    · obtain ⟨r, hr, rfl⟩ := Option.map_eq_some_iff.mp h
      exact replied_cared hi (infoReplicationCb_covered hr)
    · cases h

/-- In every run whose notifications meet the condition, every client is looked after; and a
notification that does not meet it leaves one alone. -/
theorem cared {start : CareState} (h0 : Cared start)
    (h : ((careSystem ioThreadNum start).only CareOk).Reach s) :
    Cared s ∧ ∀ n s', s.next ioThreadNum (.notify n) = some s' → (Cared s' ↔ Kept s n) := by
  have hi : Cared s := h.inv_only (I := Cared) h0 fun _ _ _ hi hc hs => next_cared hi hc hs
  exact ⟨hi, fun n s' hs => notify_cared hi hs⟩

end

/-! ## The first connection attempt -/

/-- A manager behind `redisInitConnect`: its first client has a connect order. -/
def newCare (svrType_ : SvrType) : CareState :=
  { mgr := ⟨⟨0, 0, some ⟨0, ⟨[104], 1⟩, 0, .init⟩, none⟩, svrType_, .init, [], none⟩
    states := fun _ => .init
    addrs := fun _ => ⟨[104], 1⟩
    attempts := fun _ => 0
    waiting := [0]
    ioIndex := 0
    created := 1 }

theorem newCare_cared (svrType_ : SvrType) : Cared (newCare svrType_) := by
  intro c hc
  have hid : c.id = 0 := by
    simp [newCare, RedisMgr.refs, RedisMgr.slaveRefs, RedisMgr.masters, RedisMgr.slaves] at hc
    rw [hc]
  exact .inr (.inr (by simp [newCare, hid]))

/-- The first attempt fails. -/
def firstReset : List CareAct := [.take 0, .notify ⟨0, .reset, []⟩]

/-- A single server is connected again. -/
theorem cared_firstReset : ∃ s, ((careSystem 1 (newCare .single)).only CareOk).run (newCare .single)
    firstReset = some s ∧ s.waiting = [0] ∧ Cared s := by
  obtain ⟨s, hs⟩ : ∃ s, ((careSystem 1 (newCare .single)).only CareOk).run (newCare .single)
      firstReset = some s := ⟨_, rfl⟩
  have hc := (cared (newCare_cared .single) (Sys.Reach.init.run _ hs)).1
  refine ⟨s, hs, ?_, hc⟩
  cases hs
  rfl

/-- A cluster is not: its first client stays alone for ever. -/
theorem first_reset_abandons : ¬ ∀ ioThreadNum start s, start.mgr.svrType_ ≠ .unknown →
    start.mgr.initState_ ≠ .invalid → Cared start → (careSystem ioThreadNum start).Reach s → Cared s := by
  intro h
  obtain ⟨s, hs⟩ : ∃ s, (careSystem 1 (newCare .cluster)).run (newCare .cluster) firstReset = some s :=
    ⟨_, rfl⟩
  have hc := h 1 (newCare .cluster) s (by simp [newCare]) (by simp [newCare]) (newCare_cared .cluster)
    (Sys.Reach.init.run _ hs)
  cases hs
  have hnode := hc ⟨0, ⟨[104], 1⟩, 0, .init⟩ (by decide)
  exact absurd hnode (by unfold CareState.caresFor; decide)

end RedisAsyn
end CmakeFrame
