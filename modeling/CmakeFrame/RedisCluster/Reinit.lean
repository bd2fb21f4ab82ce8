import CmakeFrame.RedisCluster.Follow

/-!
# The `init2` of a manager in use

* `Kept`: the settings of the user, which no reconnect changes; `Started`, `useSystem`, `InUse`: a
  manager after its first call, its runs, and what holds in all their states.
* `Good`: the network of a cluster that is well; `reconnect_good`: the reconnect gets to the nodes of
  the reply.
* `connectLoop_zero`, `connectLoop_serves`: how far the loop over them gets.
-/

namespace CmakeFrame
namespace RedisCluster

open Lib
open RedisAsyn (NodeLine clusterText)

namespace RedisClusterMgr

variable {connect : Connect} {net : Net} {uninit : Addr} {mgr mgr' : RedisClusterMgr} {ret : Int}

/-! ## Settings -/

/-- What the user has given. -/
structure Settings where
  minSize : Int32
  maxSize : Int32
  timeout : Int32
  password : Bytes
  fullCoverage : Int32
  deriving DecidableEq

def settings (mgr : RedisClusterMgr) : Settings :=
  ⟨mgr.minSize_, mgr.maxSize_, mgr.timeout_, mgr.password_, mgr.fullCoverage_⟩

/-- There are nodes only if they can be made. -/
def Sized (mgr : RedisClusterMgr) : Prop :=
  mgr.heap ≠ [] → RedisClusterNode.SizesOk mgr.minSize_ mgr.maxSize_

/-- The settings stay as they were, and the nodes fit them. -/
structure Kept (mgr mgr' : RedisClusterMgr) : Prop where
  settings : mgr'.settings = mgr.settings
  brokers : mgr'.brokers_ = mgr.brokers_
  sized : mgr.Sized → mgr'.Sized

theorem Kept.refl (mgr : RedisClusterMgr) : mgr.Kept mgr := ⟨rfl, rfl, id⟩

theorem Kept.after {mgr mgr₀ mgr' : RedisClusterMgr} (h : mgr₀.Kept mgr') (h0 : mgr.Kept mgr₀) :
    mgr.Kept mgr' :=
  ⟨h.settings.trans h0.settings, h.brokers.trans h0.brokers, fun hs => h.sized (h0.sized hs)⟩

theorem Kept.minSize (h : mgr.Kept mgr') : mgr'.minSize_ = mgr.minSize_ :=
  congrArg Settings.minSize h.settings

theorem Kept.maxSize (h : mgr.Kept mgr') : mgr'.maxSize_ = mgr.maxSize_ :=
  congrArg Settings.maxSize h.settings

theorem connectClusterNode_kept {node : NodeInfo} {b : Bool}
    (h : mgr.connectClusterNode connect node = some (b, mgr')) : mgr.Kept mgr' := by
  rcases connectClusterNode_cases h with
    ⟨-, -, rfl⟩ | ⟨-, -, ⟨created, rfl⟩, -⟩ | ⟨-, -, clusterNode, created, slotMap_, hinit, -, rfl⟩
  · exact .refl _
  · exact ⟨rfl, rfl, id⟩
  · exact ⟨rfl, rfl, fun _ _ => (RedisClusterNode.init_true hinit).1⟩

theorem connectLoop_kept {nodes : List NodeInfo}
    (h : mgr.connectLoop connect nodes = some (ret, mgr')) : mgr.Kept mgr' := by
  induction nodes generalizing mgr with
  | nil =>
    cases h
    exact .refl _
  | cons node nodes ih =>
    rw [connectLoop] at h
    split at h
    · cases h
    · rename_i mgr₁ h1
      cases h
      exact connectClusterNode_kept h1
    · rename_i mgr₁ h1
      exact (ih h).after (connectClusterNode_kept h1)

theorem askNode_kept (h : mgr.askNode net uninit = some (ret, mgr')) : mgr.Kept mgr' := by
  have hinfo : ∀ b mgr₁, mgr.getClusterNodesInfo uninit net.clusterNodes = (b, mgr₁) → mgr.Kept mgr₁ := by
    intro b mgr₁ he
    unfold getClusterNodesInfo at he
    split at he
    · cases he
      exact .refl _
    · cases he
      exact ⟨rfl, rfl, id⟩
  unfold askNode at h
  split at h
  · split at h
    · cases h
    · cases h
      exact .refl _
    · split at h
      · rename_i mgr₁ he
        cases h
        exact hinfo _ _ he
      · rename_i mgr₁ he
        exact (connectLoop_kept h).after (hinfo _ _ he)
  · cases h
    exact .refl _

theorem brokersLoop_kept {result : List Bytes}
    (h : mgr.brokersLoop net uninit result = some (ret, mgr')) :
    mgr.Kept mgr' := by
  induction result generalizing mgr with
  | nil =>
    cases h
    exact .refl _
  | cons broker result ih =>
    rw [brokersLoop] at h
    split at h
    · cases h
      exact .refl _
    · simp only at h
      split at h
      · exact (askNode_kept h).after ⟨rfl, rfl, id⟩
      · exact (ih h).after ⟨rfl, rfl, id⟩

theorem reconnect_kept {node : RedisClusterNode} (hcov : mgr.fullCoverage_ = 0)
    (h : mgr.reconnect net uninit node = some (ret, mgr')) : mgr.Kept mgr' := by
  obtain ⟨⟨ret₁, mgr₁⟩, h1, he⟩ := Option.map_eq_some_iff.mp h
  have hk : mgr.Kept mgr₁ := by
    refine (brokersLoop_kept h1).after ⟨?_, rfl, id⟩
    simp only [settings, hcov]
  simp only at he
  split at he
  · cases he
    exact ⟨hk.settings, hk.brokers, hk.sized⟩
  · cases he
    exact hk

theorem getRedisClient_kept {k : Nat} {client : Option Nat}
    (h : mgr.getRedisClient connect k = some (client, mgr')) : mgr.Kept mgr' := by
  have hlen := congrArg List.length (getRedisClient_sameInfos h).infos
  simp only [List.length_map] at hlen
  unfold getRedisClient at h
  split at h
  · cases h
  · cases h
    refine ⟨rfl, rfl, fun hs hne => hs fun h0 => hne ?_⟩
    simp [h0]

theorem recycle_kept (k client : Nat) (connStatus_ : Bool) (mgr : RedisClusterMgr) :
    mgr.Kept (mgr.recycle k client connStatus_) := by
  refine ⟨rfl, rfl, fun hs hne => hs fun h0 => hne ?_⟩
  simp [recycle, h0]

theorem findNodeConnection_kept {key : Bytes} {client : Option Nat} (hcov : mgr.fullCoverage_ = 0)
    (h : mgr.findNodeConnection net uninit key = some (client, mgr')) : mgr.Kept mgr' := by
  rcases findNodeConnection_cases h with
    ⟨-, ⟨-, rfl⟩ | ⟨k, -, hget⟩⟩ | ⟨node, ret, mgr₁, -, hrec, ⟨-, -, rfl⟩ | ⟨-, k, -, hget⟩⟩
  · exact .refl _
  · exact getRedisClient_kept hget
  · exact reconnect_kept hcov hrec
  · exact (getRedisClient_kept hget).after (reconnect_kept hcov hrec)

end RedisClusterMgr

/-! ## A manager in use -/

/-- What a first call that returns 0 leaves; it did not ask for all slots. -/
inductive Started (minSize maxSize timeout : Int32) (password : Bytes) : RedisClusterMgr → Prop
  | init {net : Net} {uninit : Addr} {ipStr : Bytes} {port cov : Int32} {mgr : RedisClusterMgr} :
    (RedisClusterMgr.new cov).init net uninit ipStr port minSize maxSize timeout password 0 =
        some (0, mgr) →
      Started minSize maxSize timeout password mgr
  | init2 {net : Net} {uninit : Addr} {brokers : Bytes} {cov : Int32} {mgr : RedisClusterMgr} :
    (RedisClusterMgr.new cov).init2 net uninit brokers minSize maxSize timeout password 0 =
        some (0, mgr) →
      Started minSize maxSize timeout password mgr

/-- The manager from then on: `findNodeConnection` and `recycle`, on a network that does what it
likes. -/
def useSystem (mgr : RedisClusterMgr) : Sys RedisClusterMgr Act where
  init := mgr
  next mgr a :=
    match a with
    | .findNodeConnection net uninit key => (Act.findNodeConnection net uninit key).step mgr
    | .recycle k client connStatus_ => (Act.recycle k client connStatus_).step mgr
    | _ => none

/-- What holds of the manager in every state. -/
structure InUse (minSize maxSize timeout : Int32) (password : Bytes) (mgr : RedisClusterMgr) :
    Prop where
  valid : mgr.Valid
  settings : mgr.settings = ⟨minSize, maxSize, timeout, password, 0⟩
  sized : mgr.Sized

section InUse

variable {minSize maxSize timeout : Int32} {password : Bytes} {mgr mgr' : RedisClusterMgr}

theorem Started.inUse (h : Started minSize maxSize timeout password mgr) :
    InUse minSize maxSize timeout password mgr := by
  cases h with
  | @init net uninit ipStr port cov _ h =>
    have hv := (RedisClusterMgr.init_refreshed h).valid (new_valid cov)
    unfold RedisClusterMgr.init at h
    simp only at h
    split at h
    · have hk := RedisClusterMgr.askNode_kept h
      exact ⟨hv, hk.settings, hk.sized fun hne => absurd rfl hne⟩
    · cases h
  | @init2 net uninit brokers cov _ h =>
    have hv := (RedisClusterMgr.init2_refreshed h).valid (new_valid cov)
    have hk := RedisClusterMgr.brokersLoop_kept h
    exact ⟨hv, hk.settings, hk.sized fun hne => absurd rfl hne⟩

theorem InUse.fullCoverage (h : InUse minSize maxSize timeout password mgr) :
    mgr.fullCoverage_ = 0 :=
  congrArg RedisClusterMgr.Settings.fullCoverage h.settings

theorem InUse.of_kept (h : InUse minSize maxSize timeout password mgr) (hk : mgr.Kept mgr')
    (hv : mgr'.Valid) : InUse minSize maxSize timeout password mgr' :=
  ⟨hv, hk.settings.trans h.settings, hk.sized h.sized⟩

theorem InUse.find {net : Net} {uninit : Addr} {key : Bytes} {client : Option Nat}
    (h : InUse minSize maxSize timeout password mgr)
    (hf : mgr.findNodeConnection net uninit key = some (client, mgr')) :
    InUse minSize maxSize timeout password mgr' := by
  refine h.of_kept (RedisClusterMgr.findNodeConnection_kept h.fullCoverage hf) ?_
  have hstep : (Act.findNodeConnection net uninit key).step mgr = some mgr' := by rw [Act.step, hf]; rfl
  exact (Act.step_spec h.valid hstep).valid h.valid

theorem useSystem_inUse {mgr₀ : RedisClusterMgr}
    (h0 : Started minSize maxSize timeout password mgr₀) (h : (useSystem mgr₀).Reach mgr) :
    InUse minSize maxSize timeout password mgr := by
  refine Sys.Reach.inv (I := InUse minSize maxSize timeout password) h0.inUse
    (fun mgr a mgr' hi hs => ?_) h
  cases a with
  | init => cases hs
  | init2 => cases hs
  | findNodeConnection net uninit key =>
    obtain ⟨⟨client, _⟩, hf, rfl⟩ := Option.map_eq_some_iff.mp hs
    exact hi.find hf
  | recycle k client connStatus_ =>
    cases hs
    exact hi.of_kept (RedisClusterMgr.recycle_kept k client connStatus_ mgr)
      ((RedisClusterMgr.recycle_sameInfos k client connStatus_ mgr).valid hi.valid)

end InUse

/-! ## A cluster that is well -/

/-- Every listed master is reachable, and a server that answers belongs to the cluster, which is ok
and has the nodes of the lines. -/
structure Good (nodes : List NodeLine) (net : Net) : Prop where
  reach : ∀ n ∈ listed nodes, ∀ c, net.connect c n.addr.svrInfo = true
  enabled : clusterEnabled net.info = true
  ok : clusterInfo net.clusterInfo = some true
  nodes : net.clusterNodes = some (clusterText nodes)

/-- An address that is known to be reachable then. -/
def Reachable (nodes : List NodeLine) (a : Addr) : Prop := ∃ n ∈ listed nodes, n.addr.svrInfo = a

theorem Good.connect {nodes : List NodeLine} {net : Net} (hg : Good nodes net) {a : Addr}
    (ha : Reachable nodes a) (c : Nat) : net.connect c a = true := by
  obtain ⟨n, hn, rfl⟩ := ha
  exact hg.reach n hn c

/-- The address of a broker, if it is written as one. -/
def brokerAddr (broker : Bytes) : Option Addr :=
  (findByte 58 broker).map fun index => ⟨broker.take index, atoi (broker.drop (index + 1))⟩

/-- One of the brokers is reachable, and none before it is written wrong. -/
def BrokersOk (nodes : List NodeLine) (brokers : List Bytes) : Prop :=
  ∃ l b r a, brokers = l ++ b :: r ∧ (∀ x ∈ l, brokerAddr x ≠ none) ∧ brokerAddr b = some a ∧
    Reachable nodes a

namespace RedisClusterMgr

variable {connect : Connect} {mgr mgr' : RedisClusterMgr} {ret : Int}

section Good

variable {nodes : List NodeLine} (hr : Reply nodes) {net : Net} (hg : Good nodes net)

include hg in
theorem brokersLoop_good {brokers : List Bytes} (hb : BrokersOk nodes brokers) (uninit : Addr)
    (mgr : RedisClusterMgr) :
    ∃ created, mgr.brokersLoop net uninit brokers =
      { mgr with created := created : RedisClusterMgr }.askNode net uninit := by
  obtain ⟨l, b, r, a, rfl, hl, hb, ha⟩ := hb
  induction l generalizing mgr with
  | nil =>
    obtain ⟨index, hindex, rfl⟩ := Option.map_eq_some_iff.mp hb
    refine ⟨mgr.created + 1, ?_⟩
    simp only [List.nil_append, brokersLoop, hindex, if_pos (hg.connect ha mgr.created)]
  | cons x l ih =>
    obtain ⟨a', hx⟩ := Option.ne_none_iff_exists'.mp (hl x (by simp))
    obtain ⟨index, hindex, rfl⟩ := Option.map_eq_some_iff.mp hx
    simp only [List.cons_append, brokersLoop, hindex]
    split
    · exact ⟨mgr.created + 1, rfl⟩
    · exact ih { mgr with created := mgr.created + 1 } fun y hy => hl y (by simp [hy])

include hr hg in
theorem askNode_good (hs : ∀ n ∈ listed nodes, n.slots ≠ []) (uninit : Addr)
    (mgr : RedisClusterMgr) :
    mgr.askNode net uninit =
      { mgr with nodes_ := (listed nodes).map readNode : RedisClusterMgr }.connectLoop
        net.connect ((listed nodes).map readNode) := by
  simp only [askNode, hg.enabled, if_true, hg.ok, hg.nodes, getClusterNodesInfo_eq hr.lines hs]

/-- The manager gets to the nodes of the reply. -/
structure Asks (mgr : RedisClusterMgr) (nodes : List NodeLine) : Prop where
  brokers : BrokersOk nodes (split mgr.brokers_ [44])
  slots : ∀ n ∈ listed nodes, n.slots ≠ []

end Good

/-! ## The loop over the lines -/

/-- The slot has a node that can give a client. -/
def HasFresh (mgr : RedisClusterMgr) (s : UInt16) : Prop :=
  ∃ node, mgr.slotNode s = some node ∧ node.Fresh

theorem connectClusterNode_total {n : NodeLine} (hn : n.Wf) (connect : Connect)
    (mgr : RedisClusterMgr) :
    ∃ b mgr', mgr.connectClusterNode connect (readNode n) = some (b, mgr') := by
  unfold connectClusterNode
  split
  · exact ⟨_, _, rfl⟩
  · split
    · exact ⟨_, _, rfl⟩
    · rw [assignSlots_read _ hn]
      exact ⟨_, _, rfl⟩

theorem connectLoop_total {ns : List NodeLine} (hw : ∀ n ∈ ns, n.Wf) (connect : Connect)
    (mgr : RedisClusterMgr) :
    ∃ ret mgr', mgr.connectLoop connect (ns.map readNode) = some (ret, mgr') := by
  induction ns generalizing mgr with
  | nil => exact ⟨_, _, rfl⟩
  | cons n ns ih =>
    obtain ⟨b, mgr₁, h1⟩ := connectClusterNode_total (hw n (by simp)) connect mgr
    rw [List.map_cons, connectLoop, h1]
    cases b with
    | false => exact ⟨_, _, rfl⟩
    | true => exact ih (fun m hm => hw m (by simp [hm])) mgr₁

section Reconnect

variable {nodes : List NodeLine} (hr : Reply nodes) {net : Net} (hg : Good nodes net)

include hr hg in
theorem reconnect_good (ha : mgr.Asks nodes) (uninit : Addr)
    (node : RedisClusterNode) :
    ∃ mgr₁ ret mgr₂ mgr₃, (mgr.forget node.info_.id).SameNodes mgr₁ ∧ mgr₁.minSize_ = mgr.minSize_ ∧
      mgr₁.maxSize_ = mgr.maxSize_ ∧
      mgr₁.connectLoop net.connect ((listed nodes).map readNode) = some (ret, mgr₂) ∧
      mgr₂.SameNodes mgr₃ ∧ mgr.reconnect net uninit node = some (ret, mgr₃) := by
  obtain ⟨created, hc⟩ := brokersLoop_good hg ha.brokers uninit
    { mgr with
      bStatus_ := false, nodesStatus_ := Function.update mgr.nodesStatus_ node.info_.id none
      fullCoverage_ := 0 }
  rw [askNode_good hr hg ha.slots] at hc
  obtain ⟨ret, mgr₂, hloop⟩ := connectLoop_total (fun n hn => hr.wf_of_listed hn) net.connect
    { mgr with
      bStatus_ := false, nodesStatus_ := Function.update mgr.nodesStatus_ node.info_.id none
      fullCoverage_ := 0, created := created, nodes_ := (listed nodes).map readNode }
  rw [hloop] at hc
  by_cases hret : ret = 0
  · refine ⟨_, ret, mgr₂, { mgr₂ with bStatus_ := true }, ?_, ?_, ?_, hloop, ⟨rfl, rfl, rfl⟩, ?_⟩
    · exact ⟨rfl, rfl, rfl⟩
    · rfl
    · rfl
    · simp only [reconnect, init2, hc, Option.map_some, if_pos hret]
      rw [hret]
  · refine ⟨_, ret, mgr₂, mgr₂, ?_, ?_, ?_, hloop, .refl _, ?_⟩
    · exact ⟨rfl, rfl, rfl⟩
    · rfl
    · rfl
    · simp only [reconnect, init2, hc, Option.map_some, if_neg hret]

end Reconnect

theorem connectClusterNode_of_connect {n : NodeLine} (hn : n.Wf)
    (hs : RedisClusterNode.SizesOk mgr.minSize_ mgr.maxSize_)
    (hc : ∀ c, connect c n.addr.read = true) :
    ∃ mgr', mgr.connectClusterNode connect (readNode n) = some (true, mgr') := by
  obtain ⟨b, mgr', h⟩ := connectClusterNode_total hn connect mgr
  rcases connectClusterNode_cases h with ⟨-, rfl, -⟩ | ⟨-, -, -, hinit⟩ | ⟨-, rfl, -⟩
  · exact ⟨mgr', h⟩
  · rw [RedisClusterNode.init_of_connect hs hc] at hinit
    cases hinit
  · exact ⟨mgr', h⟩

/-- A slot that has a client to give keeps one. -/
theorem connectLoop_hasFresh {ns : List NodeLine} (hw : ∀ n ∈ ns, n.Wf) {s : UInt16}
    (hv : mgr.Valid) (hf : mgr.HasFresh s)
    (h : mgr.connectLoop connect (ns.map readNode) = some (ret, mgr')) : mgr'.HasFresh s := by
  have hstep : ∀ n ∈ ns, ∀ (mgr mgr₁ : RedisClusterMgr) b, mgr.Valid → mgr.HasFresh s →
      mgr.connectClusterNode connect (readNode n) = some (b, mgr₁) → mgr₁.HasFresh s := by
    intro n hn mgr mgr₁ b hv hf h1
    rcases connectClusterNode_cases h1 with ⟨-, -, rfl⟩ | ⟨-, -, ⟨created, rfl⟩, -⟩ | ⟨hk, rfl, -⟩
    · exact hf
    · exact hf
    · obtain ⟨htakes, hkeeps, -⟩ := connectClusterNode_new (hw n hn) hv hk h1
      cases hs : n.readCovers s with
      | true =>
        obtain ⟨node, hnode, hfresh, -⟩ := htakes s hs
        exact ⟨node, hnode, hfresh⟩
      | false =>
        obtain ⟨node, hnode, hfresh⟩ := hf
        exact ⟨node, (hkeeps s hs).trans hnode, hfresh⟩
  induction ns generalizing mgr with
  | nil =>
    cases h
    exact hf
  | cons n ns ih =>
    rw [List.map_cons, connectLoop] at h
    split at h
    · cases h
    · rename_i mgr₁ h1
      cases h
      exact hstep n (by simp) mgr mgr' false hv hf h1
    · rename_i mgr₁ h1
      exact ih (fun m hm => hw m (by simp [hm])) (connectClusterNode_valid hv h1)
        (hstep n (by simp) mgr mgr₁ true hv hf h1) h fun m hm => hstep m (by simp [hm])

/-- All lines that are not known connect: the loop goes through. -/
theorem connectLoop_zero {ns : List NodeLine} (hw : ∀ n ∈ ns, n.Wf)
    (hs : RedisClusterNode.SizesOk mgr.minSize_ mgr.maxSize_) (hids : (ns.map (·.id)).Nodup)
    (hv : mgr.Valid) (hc : ∀ n ∈ mgr.newLines ns, ∀ c, connect c n.addr.read = true) :
    ∃ mgr', mgr.connectLoop connect (ns.map readNode) = some (0, mgr') := by
  induction ns generalizing mgr with
  | nil => exact ⟨mgr, rfl⟩
  | cons n ns ih =>
    obtain ⟨hid, hids⟩ := List.nodup_cons.mp hids
    have hw' : ∀ m ∈ ns, m.Wf := fun m hm => hw m (List.mem_cons_of_mem n hm)
    rw [List.map_cons, connectLoop]
    cases hk : mgr.known n.id with
    | true =>
      rw [connectClusterNode_known hk]
      exact ih hw' hs hids hv (newLines_cons_of_known hk ns ▸ hc)
    | false =>
      rw [newLines_cons_of_new hk, List.forall_mem_cons] at hc
      obtain ⟨mgr₁, h1⟩ := connectClusterNode_of_connect (hw n (by simp)) hs hc.1
      have hkept := connectClusterNode_kept h1
      obtain ⟨-, -, hknown⟩ := connectClusterNode_new (hw n (by simp)) hv hk h1
      rw [h1]
      refine ih hw' ?_ hids (connectClusterNode_valid hv h1) ?_
      · rw [hkept.minSize, hkept.maxSize]
        exact hs
      · rw [newLines_congr hid hknown]
        exact hc.2

/-- A line that takes the slot connects, and so do those before it: the slot has a client to give,
whatever comes after. -/
theorem connectLoop_serves {ns : List NodeLine} (hw : ∀ n ∈ ns, n.Wf) {s : UInt16}
    (hs : RedisClusterNode.SizesOk mgr.minSize_ mgr.maxSize_)
    (hids : (ns.map (·.id)).Nodup) (hv : mgr.Valid) {l r : List NodeLine} {n : NodeLine}
    (hnew : mgr.newLines ns = l ++ n :: r) (hn : n.readCovers s = true)
    (hc : ∀ m ∈ l ++ [n], ∀ c, connect c m.addr.read = true)
    (h : mgr.connectLoop connect (ns.map readNode) = some (ret, mgr')) : mgr'.HasFresh s := by
  induction ns generalizing mgr l with
  | nil => exact absurd hnew (by simp [newLines])
  | cons x ns ih =>
    obtain ⟨hid, hids⟩ := List.nodup_cons.mp hids
    have hw' : ∀ m ∈ ns, m.Wf := fun m hm => hw m (List.mem_cons_of_mem x hm)
    rw [List.map_cons, connectLoop] at h
    cases hk : mgr.known x.id with
    | true =>
      rw [connectClusterNode_known hk] at h
      rw [newLines_cons_of_known hk] at hnew
      exact ih hw' hs hids hv hnew hc h
    | false =>
      rw [newLines_cons_of_new hk] at hnew
      have hx : ∀ c, connect c x.addr.read = true := by
        refine hc x ?_
        cases l with
        | nil =>
          rw [(List.cons.inj hnew).1]
          simp
        | cons y l =>
          rw [(List.cons.inj hnew).1]
          simp
      obtain ⟨mgr₁, h1⟩ := connectClusterNode_of_connect (hw x (by simp)) hs hx
      have hkept := connectClusterNode_kept h1
      have hv₁ := connectClusterNode_valid hv h1
      obtain ⟨htakes, -, hknown⟩ := connectClusterNode_new (hw x (by simp)) hv hk h1
      rw [h1] at h
      cases l with
      | nil =>
        obtain ⟨rfl, -⟩ := List.cons.inj hnew
        obtain ⟨node, hnode, hfresh, -⟩ := htakes s hn
        exact connectLoop_hasFresh hw' hv₁ ⟨node, hnode, hfresh⟩ h
      | cons y l =>
        refine ih hw' ?_ hids hv₁ ?_ (fun m hm => hc m (List.mem_cons_of_mem y hm)) h
        · rw [hkept.minSize, hkept.maxSize]
          exact hs
        · rw [newLines_congr hid hknown]
          exact (List.cons.inj hnew).2

end RedisClusterMgr

end RedisCluster
end CmakeFrame
