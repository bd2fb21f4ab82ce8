import CmakeFrame.RedisCluster.SlotMap

/-!
# Runs of the manager, and whether the slot map follows the cluster

* `State`, `Act`, `mgrSystem`: any calls one after the other, on a network that does what it likes.
  The state remembers the reply that the last call of `init` or `init2` got.
* `Act.call`: the call of `init` or `init2` that an act makes, its own or the one in `getConnection`.
* `step_spec`: what an act does to the nodes.
-/

namespace CmakeFrame
namespace RedisCluster

open Lib
open RedisAsyn (NodeLine clusterText importingLine migratingLine)

namespace RedisClusterNode

theorem getRedisClient_info (connect : Connect) (node : RedisClusterNode) (created : Nat) :
    (node.getRedisClient connect created).2.1.info_ = node.info_ := by
  unfold getRedisClient
  split
  · rfl
  · split
    · split
      · rfl
      · split <;> rfl
    · rfl

theorem recycle_info (client : Nat) (connStatus_ : Bool) (node : RedisClusterNode) :
    (node.recycle client connStatus_).info_ = node.info_ := by
  unfold recycle releaseRedisClient removeRedisClient
  split
  · split <;> rfl
  · split
    · simp only
      split <;> rfl
    · rfl

end RedisClusterNode

namespace RedisClusterMgr

variable {connect : Connect} {net : Net} {uninit : Addr} {mgr mgr' : RedisClusterMgr}

/-! ## Clients -/

/-- The two managers have the same nodes but for their connections. -/
structure SameInfos (mgr mgr' : RedisClusterMgr) : Prop where
  status : mgr'.nodesStatus_ = mgr.nodesStatus_
  slotMap : mgr'.slotMap_ = mgr.slotMap_
  infos : mgr'.heap.map (·.info_) = mgr.heap.map (·.info_)

theorem SameInfos.slotInfo (h : mgr.SameInfos mgr') :
    mgr'.slotInfo = mgr.slotInfo := by
  have hget : ∀ (m : RedisClusterMgr) s,
      m.slotInfo s = (m.slotMap_ s).bind fun k => (m.heap.map (·.info_))[k]? := by
    intro m s
    unfold RedisClusterMgr.slotInfo slotNode
    cases m.slotMap_ s with
    | none => rfl
    | some k => simp
  funext s
  rw [hget, hget, h.slotMap, h.infos]

theorem SameInfos.valid (h : mgr.SameInfos mgr') (hv : mgr.Valid) :
    mgr'.Valid := by
  have hlen : mgr'.heap.length = mgr.heap.length := by
    have := congrArg List.length h.infos
    simpa using this
  refine ⟨?_, ?_⟩
  · rw [h.slotMap, hlen]
    exact hv.slots
  · rw [h.status]
    exact hv.status

theorem getRedisClient_sameInfos {k : Nat} {client : Option Nat}
    (h : mgr.getRedisClient connect k = some (client, mgr')) : mgr.SameInfos mgr' := by
  unfold getRedisClient at h
  split at h
  · cases h
  · rename_i node hk
    have hinfo := RedisClusterNode.getRedisClient_info connect node mgr.created
    generalize node.getRedisClient connect mgr.created = r at h hinfo
    cases h
    refine ⟨rfl, rfl, ?_⟩
    rw [List.map_set, hinfo]
    have hget : (mgr.heap.map (·.info_))[k]? = some node.info_ := by rw [List.getElem?_map, hk]; rfl
    obtain ⟨hlt, he⟩ := List.getElem?_eq_some_iff.mp hget
    rw [← he, List.set_getElem_self]

/-- `recycle()` of a client of the node `k`. -/
def recycle (k client : Nat) (connStatus_ : Bool) (mgr : RedisClusterMgr) : RedisClusterMgr :=
  { mgr with heap := mgr.heap.modify k (·.recycle client connStatus_) }

theorem recycle_sameInfos (k client : Nat) (connStatus_ : Bool) (mgr : RedisClusterMgr) :
    mgr.SameInfos (mgr.recycle k client connStatus_) := by
  refine ⟨rfl, rfl, List.ext_getElem? fun i => ?_⟩
  simp only [recycle, List.getElem?_map, List.getElem?_modify]
  cases mgr.heap[i]? with
  | none => rfl
  | some node =>
    by_cases hi : k = i
    · simp [hi, RedisClusterNode.recycle_info]
    · simp [hi]

/-! ## `findNodeConnection` -/

/-- The node that has failed, for which `findNodeConnection` calls `init2`. -/
def failedNode (mgr : RedisClusterMgr) (key : Bytes) : Option RedisClusterNode :=
  if mgr.bStatus_ = false ∧ mgr.fullCoverage_ ≠ 0 then none
  else (mgr.slotNode (getKeySlotIndex key)).filter fun node => !node.bStatus_

/-- What `findNodeConnection` can do: it takes a client of the node, or it calls `init2` before. -/
theorem findNodeConnection_cases {key : Bytes} {client : Option Nat}
    (h : mgr.findNodeConnection net uninit key = some (client, mgr')) :
    (mgr.failedNode key = none ∧ (client = none ∧ mgr' = mgr ∨
      ∃ k, mgr.slotMap_ (getKeySlotIndex key) = some k ∧
        mgr.getRedisClient net.connect k = some (client, mgr'))) ∨
      ∃ node ret mgr₁, mgr.failedNode key = some node ∧
        mgr.reconnect net uninit node = some (ret, mgr₁) ∧
        (ret ≠ 0 ∧ client = none ∧ mgr' = mgr₁ ∨
          ret = 0 ∧ ∃ k, mgr₁.slotMap_ (getKeySlotIndex key) = some k ∧
            mgr₁.getRedisClient net.connect k = some (client, mgr')) := by
  unfold findNodeConnection at h
  split at h
  · rename_i hgate
    cases h
    exact .inl ⟨by rw [failedNode, if_pos hgate], .inl ⟨rfl, rfl⟩⟩
  · rename_i hgate
    unfold getConnection at h
    split at h
    · rename_i hs
      cases h
      exact .inl ⟨by simp [failedNode, hgate, slotNode, hs], .inl ⟨rfl, rfl⟩⟩
    · rename_i k hs
      split at h
      · cases h
      · rename_i node hk
        split at h
        · rename_i hb
          exact .inl ⟨by simp [failedNode, hgate, slotNode, hs, hk, hb], .inr ⟨k, hs, h⟩⟩
        · rename_i hb
          split at h
          · cases h
          · rename_i ret mgr₁ hrec
            refine .inr ⟨node, ret, mgr₁, ?_, hrec, ?_⟩
            · simp [failedNode, hgate, slotNode, hs, hk, hb]
            · split at h
              · rename_i hret
                cases h
                exact .inl ⟨hret, rfl, rfl⟩
              · rename_i hret
                split at h
                · cases h
                · rename_i k' hs'
                  exact .inr ⟨not_not.mp hret, k', hs', h⟩

end RedisClusterMgr

/-! ## Runs -/

/-- The manager, and what the last call of `init` or `init2` was told by `CLUSTER NODES`, if it
returned 0. -/
structure State where
  mgr : RedisClusterMgr
  last : Option Bytes

inductive Act where
  | init (net : Net) (uninit : Addr) (ipStr : Bytes) (port minSize maxSize timeout : Int32)
    (password : Bytes) (fullCoverage : Int32)
  | init2 (net : Net) (uninit : Addr) (brokers : Bytes) (minSize maxSize timeout : Int32)
    (password : Bytes) (fullCoverage : Int32)
  | findNodeConnection (net : Net) (uninit : Addr) (key : Bytes)
  | recycle (k client : Nat) (connStatus_ : Bool)

namespace Act

/-- What an act does. -/
def step (mgr : RedisClusterMgr) : Act → Option RedisClusterMgr
  | init net uninit ipStr port minSize maxSize timeout password fullCoverage =>
    (mgr.init net uninit ipStr port minSize maxSize timeout password fullCoverage).map (·.2)
  | init2 net uninit brokers minSize maxSize timeout password fullCoverage =>
    (mgr.init2 net uninit brokers minSize maxSize timeout password fullCoverage).map (·.2)
  | findNodeConnection net uninit key => (mgr.findNodeConnection net uninit key).map (·.2)
  | recycle k client connStatus_ => some (mgr.recycle k client connStatus_)

/-- A call of `init` or `init2`: the manager before it, the network and its outcome. -/
structure Call where
  mgr : RedisClusterMgr
  net : Net
  outcome : Option (Int × RedisClusterMgr)

/-- The call that an act makes, if it makes one. -/
def call (mgr : RedisClusterMgr) : Act → Option Call
  | init net uninit ipStr port minSize maxSize timeout password fullCoverage =>
    some ⟨mgr, net, mgr.init net uninit ipStr port minSize maxSize timeout password fullCoverage⟩
  | init2 net uninit brokers minSize maxSize timeout password fullCoverage =>
    some ⟨mgr, net, mgr.init2 net uninit brokers minSize maxSize timeout password fullCoverage⟩
  | findNodeConnection net uninit key => (mgr.failedNode key).map fun node =>
    ⟨mgr.forget node.info_.id, net, mgr.reconnect net uninit node⟩
  | recycle _ _ _ => none

/-- What is remembered then. -/
def last (s : State) (a : Act) : Option Bytes :=
  match a.call s.mgr with
  | none => s.last
  | some c => if c.outcome.map (·.1) = some 0 then c.net.clusterNodes else none

end Act

/-- The manager from its construction on. -/
def mgrSystem (uninit : Int32) : Sys State Act where
  init := ⟨RedisClusterMgr.new uninit, none⟩
  next s a := (a.step s.mgr).map fun mgr => ⟨mgr, a.last s⟩

/-- What an act does to the nodes: nothing, unless it makes a call. -/
def ActSpec (mgr mgr' : RedisClusterMgr) : Option Act.Call → Prop
  | none => mgr.SameInfos mgr'
  | some c => ∃ ret mgr₁, c.outcome = some (ret, mgr₁) ∧ c.mgr.Valid ∧ c.mgr.Refreshed c.net ret mgr₁ ∧
    mgr₁.SameInfos mgr'

theorem Act.step_spec {mgr mgr' : RedisClusterMgr} (hv : mgr.Valid) {a : Act}
    (h : a.step mgr = some mgr') : ActSpec mgr mgr' (a.call mgr) := by
  cases a with
  | init net uninit ipStr port minSize maxSize timeout password fullCoverage =>
    obtain ⟨⟨ret, mgr₁⟩, h1, rfl⟩ := Option.map_eq_some_iff.mp h
    exact ⟨ret, mgr₁, h1, hv, RedisClusterMgr.init_refreshed h1, ⟨rfl, rfl, rfl⟩⟩
  | init2 net uninit brokers minSize maxSize timeout password fullCoverage =>
    obtain ⟨⟨ret, mgr₁⟩, h1, rfl⟩ := Option.map_eq_some_iff.mp h
    exact ⟨ret, mgr₁, h1, hv, RedisClusterMgr.init2_refreshed h1, ⟨rfl, rfl, rfl⟩⟩
  | findNodeConnection net uninit key =>
    obtain ⟨⟨client, mgr₂⟩, h1, rfl⟩ := Option.map_eq_some_iff.mp h
    rcases RedisClusterMgr.findNodeConnection_cases h1 with
      ⟨hnone, hsame⟩ | ⟨node, ret, mgr₁, hnode, hrec, hsame⟩
    · simp only [Act.call, hnone, Option.map_none, ActSpec]
      rcases hsame with ⟨-, rfl⟩ | ⟨k, -, hget⟩
      · exact ⟨rfl, rfl, rfl⟩
      · exact RedisClusterMgr.getRedisClient_sameInfos hget
    · simp only [Act.call, hnode, Option.map_some, ActSpec]
      refine ⟨ret, mgr₁, hrec, hv.forget _, RedisClusterMgr.reconnect_refreshed hrec, ?_⟩
      rcases hsame with ⟨-, -, rfl⟩ | ⟨-, k, -, hget⟩
      · exact ⟨rfl, rfl, rfl⟩
      · exact RedisClusterMgr.getRedisClient_sameInfos hget
  | recycle k client connStatus_ =>
    cases h
    exact RedisClusterMgr.recycle_sameInfos k client connStatus_ mgr

theorem ActSpec.valid {mgr mgr' : RedisClusterMgr} {c : Option Act.Call} (h : ActSpec mgr mgr' c)
    (hv : mgr.Valid) : mgr'.Valid := by
  cases c with
  | none => exact RedisClusterMgr.SameInfos.valid h hv
  | some c =>
    obtain ⟨ret, mgr₁, -, hv₀, hr, hsame⟩ := h
    exact hsame.valid (hr.valid hv₀)

/-! ## The slot map follows the cluster -/

/-- The call of `init` or `init2` that the act makes finds a manager that it can set right. -/
def CallsOk (s : State) (a : Act) : Prop :=
  ∀ c, a.call s.mgr = some c → ∀ nodes, Reply nodes → c.net.clusterNodes = some (clusterText nodes) →
    c.mgr.CallOk nodes

/-- After a call that returned 0 the slot map is as the reply says. -/
def FollowsLast (s : State) : Prop :=
  ∀ nodes, Reply nodes → s.last = some (clusterText nodes) → s.mgr.Follows nodes

theorem new_valid (uninit : Int32) : (RedisClusterMgr.new uninit).Valid where
  slots s k h := by cases h
  status id h := by cases h

theorem mgrSystem_valid {uninit : Int32} {s : State} (h : (mgrSystem uninit).Reach s) :
    s.mgr.Valid := by
  refine Sys.Reach.inv (I := fun s => s.mgr.Valid) (new_valid uninit) (fun s a s' hv hs => ?_) h
  obtain ⟨mgr', hstep, rfl⟩ := Option.map_eq_some_iff.mp hs
  exact (Act.step_spec hv hstep).valid hv

theorem follows_congr {mgr mgr' : RedisClusterMgr} (h : mgr'.slotInfo = mgr.slotInfo)
    (nodes : List NodeLine) : mgr'.Follows nodes ↔ mgr.Follows nodes := by
  unfold RedisClusterMgr.Follows RedisClusterMgr.Points
  rw [h]

/-- After one call that returns 0. -/
theorem ActSpec.follows_iff {mgr mgr' : RedisClusterMgr} {c : Act.Call}
    (h : ActSpec mgr mgr' (some c)) (h0 : c.outcome.map (·.1) = some 0) {nodes : List NodeLine}
    (hr : Reply nodes) (hnet : c.net.clusterNodes = some (clusterText nodes)) :
    mgr'.Follows nodes ↔ c.mgr.CallOk nodes := by
  obtain ⟨ret, mgr₁, hout, hv, href, hsame⟩ := h
  rw [hout] at h0
  cases h0
  rw [follows_congr hsame.slotInfo]
  exact (href.connected hv hr hnet).follows_iff hr

theorem followsLast_step {s s' : State} {a : Act} (hv : s.mgr.Valid) (hf : FollowsLast s)
    (hok : CallsOk s a) {uninit : Int32} (hs : (mgrSystem uninit).next s a = some s') :
    FollowsLast s' := by
  obtain ⟨mgr', hstep, rfl⟩ := Option.map_eq_some_iff.mp hs
  have hspec := Act.step_spec hv hstep
  intro nodes hr hlast
  simp only [Act.last] at hlast
  cases hc : a.call s.mgr with
  | none =>
    rw [hc] at hlast hspec
    rw [follows_congr (RedisClusterMgr.SameInfos.slotInfo hspec)]
    exact hf nodes hr hlast
  | some c =>
    rw [hc] at hlast hspec
    simp only at hlast
    split at hlast
    · rename_i h0
      exact (hspec.follows_iff h0 hr hlast).mpr (hok c hc nodes hr hlast)
    · cases hlast

open Classical in
/-- In every run whose calls of `init` and `init2` find what they need, the slot map follows the
cluster; and a call that returns 0, in any run, sets it right only if it finds that. -/
theorem slotMap_follows (uninit : Int32) :
    (∀ s, ((mgrSystem uninit).only CallsOk).Reach s → FollowsLast s) ∧
      ∀ s, (mgrSystem uninit).Reach s → ∀ a s', (mgrSystem uninit).next s a = some s' →
        ∀ c, a.call s.mgr = some c → c.outcome.map (·.1) = some 0 →
          ∀ nodes, Reply nodes → c.net.clusterNodes = some (clusterText nodes) →
            (s'.mgr.Follows nodes ↔ c.mgr.CallOk nodes) := by
  refine ⟨fun s h => ?_, fun s h a s' hs c hc h0 nodes hr hnet => ?_⟩
  · refine (Sys.Reach.inv_only (I := fun s => s.mgr.Valid ∧ FollowsLast s)
      ⟨new_valid uninit, ?_⟩ ?_ h).2
    · intro nodes _ hlast
      cases hlast
    · intro s a s' ⟨hv, hf⟩ hok hs
      refine ⟨?_, followsLast_step hv hf hok hs⟩
      obtain ⟨mgr', hstep, rfl⟩ := Option.map_eq_some_iff.mp hs
      exact (Act.step_spec hv hstep).valid hv
  · obtain ⟨mgr', hstep, rfl⟩ := Option.map_eq_some_iff.mp hs
    have hspec := Act.step_spec (mgrSystem_valid h) hstep
    rw [hc] at hspec
    exact hspec.follows_iff h0 hr hnet

/-! ## A slot that moves to a master that is known -/

/-- Every server answers, and the cluster is the one of the lines. -/
def goodNet (nodes : List NodeLine) : Net where
  connect _ _ := true
  info := some (clusterEnabledText ++ [49])
  clusterInfo := some [58, 111, 107]
  clusterNodes := some (clusterText nodes)

/-- `h:1` -/
def firstBroker : Bytes := [104, 58, 49]

theorem count_colon (n : NodeLine) : n.addr.host.count 58 < n.text.count 58 := by
  have hfields : n.fields = n.addr.text :: n.fields.tail := rfl
  rw [NodeLine.text, hfields]
  simp [RedisAsyn.NodeAddr.text, List.count_append]
  omega

/-- With one colon in the reply there is one line, and its host has none. -/
theorem callOk_new {nodes : List NodeLine} (h : (clusterText nodes).count 58 = 1) (uninit : Int32) :
    (RedisClusterMgr.new uninit).CallOk nodes := by
  cases nodes with
  | nil => exact absurd h (by decide)
  | cons n ns =>
    have hn := count_colon n
    simp only [clusterText, List.flatMap_cons, List.count_append] at h
    cases ns with
    | cons n' ns =>
      have hn' := count_colon n'
      simp only [List.flatMap_cons, List.count_append] at h
      omega
    | nil =>
      refine ⟨fun m _ _ hk => ?_, fun m hm _ _ _ => ?_, fun m hm _ _ l k r hnew _ => ?_⟩
      · cases hk
      · rw [List.mem_singleton.mp hm, ← List.count_eq_zero]
        omega
      · have hsub : l ++ k :: r ⊆ [n] := by
          rw [← hnew]
          intro x hx
          exact (mem_listed.mp (RedisClusterMgr.mem_newLines.mp hx).1).1
        have hk := List.mem_singleton.mp (hsub (by simp : k ∈ l ++ k :: r))
        rw [List.mem_singleton.mp hm, hk]
        exact List.mem_cons_self

theorem migratingLine_reply : Reply [migratingLine] where
  lines n hn := by
    rw [List.mem_singleton.mp hn]
    exact RedisAsyn.migratingLine_wf
  disjoint := List.pairwise_singleton _ _
  ids := by decide

open Classical in
/-- The first call, for a cluster of one master. -/
theorem slotMap_follows_first : ∃ s, ((mgrSystem 0).only CallsOk).Reach s ∧
    s.last = some (clusterText [migratingLine]) ∧ s.mgr.Follows [migratingLine] := by
  have hrun : ((Act.init2 (goodNet [migratingLine]) ⟨[], 0⟩ firstBroker 1 8 0 [] 0).step
      (RedisClusterMgr.new 0)).isSome = true ∧
      (Act.init2 (goodNet [migratingLine]) ⟨[], 0⟩ firstBroker 1 8 0 [] 0).last
        ⟨RedisClusterMgr.new 0, none⟩ = some (clusterText [migratingLine]) := by
    decide +kernel
  obtain ⟨mgr', hstep⟩ := Option.isSome_iff_exists.mp hrun.1
  have hok : CallsOk (mgrSystem 0).init
      (.init2 (goodNet [migratingLine]) ⟨[], 0⟩ firstBroker 1 8 0 [] 0) := by
    intro c hc nodes _ hnet
    cases hc
    refine callOk_new ?_ 0
    rw [← Option.some.inj hnet]
    decide +kernel
  have hreach : ((mgrSystem 0).only CallsOk).Reach ⟨mgr', some (clusterText [migratingLine])⟩ := by
    refine Sys.Reach.init.step
      (a := .init2 (goodNet [migratingLine]) ⟨[], 0⟩ firstBroker 1 8 0 [] 0) ?_
    simp only [Sys.only, mgrSystem]
    rw [hstep, Option.map_some, hrun.2]
    exact if_pos hok
  exact ⟨_, hreach, rfl, (slotMap_follows 0).1 _ hreach [migratingLine] migratingLine_reply rfl⟩

/-- Slot 1 has moved from the second master to the first. -/
def movedLines : List NodeLine :=
  [{ importingLine false with slots := [.slot 1, .slot 5] }, { migratingLine with slots := [.slot 0] }]

/-- The node of slot 0 fails; when the manager asks again, slot 1 has moved. -/
def movedRun : List Act :=
  [.init2 (goodNet [importingLine false, migratingLine]) ⟨[], 0⟩ firstBroker 1 8 0 [] 0,
    .findNodeConnection (goodNet []) ⟨[], 0⟩ [], .recycle 1 2 false,
    .findNodeConnection (goodNet movedLines) ⟨[], 0⟩ []]

theorem movedLines_reply : Reply movedLines where
  lines n hn := by
    simp only [movedLines, List.mem_cons, List.not_mem_nil, or_false] at hn
    rcases hn with rfl | rfl
    · exact { RedisAsyn.importingLine_wf false with slots := by simp [RedisAsyn.SlotToken.Wf] }
    · exact { RedisAsyn.migratingLine_wf with slots := by simp [RedisAsyn.SlotToken.Wf] }
  disjoint := by
    have hm : RedisAsyn.masters movedLines = movedLines := rfl
    rw [hm, movedLines, List.pairwise_pair]
    rintro s ⟨h1, h2⟩
    simp only [NodeLine.covers, List.any_cons, List.any_nil, RedisAsyn.SlotToken.covers, Bool.or_false,
      Bool.or_eq_true, decide_eq_true_eq] at h1 h2
    omega
  ids := by decide

/-- The slot that has moved still has the node that had it before. -/
theorem moved_slot_stays : ¬ ∀ s, (mgrSystem 0).Reach s → FollowsLast s := by
  intro h
  have hrun : ((mgrSystem 0).run (mgrSystem 0).init movedRun).map
      (fun s => (s.last, (s.mgr.slotInfo 1).map (·.id))) =
        some (some (clusterText movedLines), some [98, 49]) := by
    decide +kernel
  obtain ⟨s, hs, he⟩ := Option.map_eq_some_iff.mp hrun
  simp only [Prod.mk.injEq] at he
  obtain ⟨hlast, hid⟩ := he
  obtain ⟨info, hinfo, hid', -⟩ := h s (Sys.Reach.init.run movedRun hs) movedLines
    movedLines_reply hlast { importingLine false with slots := [.slot 1, .slot 5] }
    (by simp [movedLines]) (by decide) 1 (by decide)
  rw [hinfo, Option.map_some, hid'] at hid
  exact absurd hid (by decide)

end RedisCluster
end CmakeFrame
