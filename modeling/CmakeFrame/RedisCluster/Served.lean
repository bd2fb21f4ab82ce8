import CmakeFrame.RedisCluster.Reinit

/-!
# When the manager serves a key again

* `find_up`, `find_fail`, `find_down`: what `findNodeConnection` does, by the node of the key.
* `Recoverable`: the states from which a client is to be had after at most two calls, once the
  cluster is well; `InUse.served`: it is.
-/

namespace CmakeFrame
namespace RedisCluster

open Lib
open RedisAsyn (NodeLine)

/-! ## The clients of a node -/

namespace RedisClusterNode

/-- All its clients are in use, and there may be no more of them. -/
def Exhausted (node : RedisClusterNode) : Prop :=
  node.idleList_ = [] ∧ ¬ (node.useMap_.length : Int) < node.maxSize_.toInt

/-- It has a client to give. -/
def Gives (connect : Connect) (node : RedisClusterNode) : Prop :=
  node.idleList_ ≠ [] ∨ (node.useMap_.length : Int) < node.maxSize_.toInt ∧
    ∀ c, connect c node.info_.addr = true

theorem Fresh.gives {node : RedisClusterNode} (h : node.Fresh) (connect : Connect) :
    node.Gives connect :=
  .inl h.idle

theorem getRedisClient_gives {connect : Connect} {node : RedisClusterNode} (h : node.Gives connect)
    (created : Nat) : (node.getRedisClient connect created).1 ≠ none := by
  unfold getRedisClient
  split
  · simp
  · rename_i hidle
    rcases h with h | ⟨hmax, hc⟩
    · exact absurd hidle h
    · rw [if_pos hmax, if_pos (hc created)]
      simp

/-- The node has no client, and does not get one. -/
theorem getRedisClient_lost {connect : Connect} {node : RedisClusterNode}
    (hidle : node.idleList_ = []) (huse : node.useMap_ = [])
    (hmax : (0 : Int) < node.maxSize_.toInt) {created : Nat}
    (h : (node.getRedisClient connect created).1 = none) :
    (node.getRedisClient connect created).2.1 = { node with bStatus_ := false } := by
  unfold getRedisClient at h ⊢
  rw [hidle] at h ⊢
  simp only [huse, List.length_nil, Nat.cast_zero, if_pos hmax, if_true] at h ⊢
  split at h
  · cases h
  · rename_i hc
    rw [if_neg hc]

end RedisClusterNode

/-! ## `findNodeConnection` -/

namespace RedisClusterMgr

section Find

variable {mgr : RedisClusterMgr} (hcov : mgr.fullCoverage_ = 0) {key : Bytes} {node : RedisClusterNode}
  (hs : mgr.slotNode (getKeySlotIndex key) = some node) (net : Net) (uninit : Addr)

theorem slotNode_eq_some {s : UInt16} :
    mgr.slotNode s = some node ↔ ∃ k, mgr.slotMap_ s = some k ∧ mgr.heap[k]? = some node :=
  Option.bind_eq_some_iff

include hcov hs

/-- The node of the key is up: the call is its `getRedisClient`. -/
theorem find_up (hb : node.bStatus_ = true) :
    ∃ k, mgr.slotMap_ (getKeySlotIndex key) = some k ∧ mgr.heap[k]? = some node ∧
      mgr.findNodeConnection net uninit key = some ((node.getRedisClient net.connect mgr.created).1,
        { mgr with
          heap := mgr.heap.set k (node.getRedisClient net.connect mgr.created).2.1
          created := (node.getRedisClient net.connect mgr.created).2.2 }) := by
  obtain ⟨k, hk, hnode⟩ := slotNode_eq_some.mp hs
  refine ⟨k, hk, hnode, ?_⟩
  simp only [findNodeConnection, hcov, ne_eq, not_true, and_false, if_false, getConnection, hk, hnode,
    hb, if_true, getRedisClient]

/-- The node is down, and the reconnect fails. -/
theorem find_fail (hb : node.bStatus_ = false) {ret : Int} {mgr₁ : RedisClusterMgr}
    (hrec : mgr.reconnect net uninit node = some (ret, mgr₁)) (hret : ret ≠ 0) :
    mgr.findNodeConnection net uninit key = some (none, mgr₁) := by
  obtain ⟨k, hk, hnode⟩ := slotNode_eq_some.mp hs
  simp only [findNodeConnection, hcov, ne_eq, not_true, and_false, if_false, getConnection, hk, hnode,
    hb, Bool.false_eq_true, hrec, hret, not_false_eq_true, if_true]

/-- The node is down, and the reconnect goes through. -/
theorem find_down (hb : node.bStatus_ = false) {mgr₁ : RedisClusterMgr}
    (hrec : mgr.reconnect net uninit node = some (0, mgr₁)) {node' : RedisClusterNode}
    (hs' : mgr₁.slotNode (getKeySlotIndex key) = some node') :
    ∃ k, mgr₁.slotMap_ (getKeySlotIndex key) = some k ∧ mgr₁.heap[k]? = some node' ∧
      mgr.findNodeConnection net uninit key = some ((node'.getRedisClient net.connect mgr₁.created).1,
        { mgr₁ with
          heap := mgr₁.heap.set k (node'.getRedisClient net.connect mgr₁.created).2.1
          created := (node'.getRedisClient net.connect mgr₁.created).2.2 }) := by
  obtain ⟨k, hk, hnode⟩ := slotNode_eq_some.mp hs
  obtain ⟨k', hk', hnode'⟩ := slotNode_eq_some.mp hs'
  refine ⟨k', hk', hnode', ?_⟩
  simp only [findNodeConnection, hcov, ne_eq, not_true, and_false, if_false, getConnection, hk, hnode,
    hb, Bool.false_eq_true, hrec, hk', getRedisClient, hnode']

end Find

/-! ## What a manager can recover from -/

/-- One of at most two calls gives a client. -/
def Served (mgr : RedisClusterMgr) (key : Bytes) (net₁ net₂ : Net) (uninit : Addr) : Prop :=
  ∃ client mgr₁, mgr.findNodeConnection net₁ uninit key = some (client, mgr₁) ∧
    (client ≠ none ∨ ∃ client' mgr₂,
      mgr₁.findNodeConnection net₂ uninit key = some (client', mgr₂) ∧ client' ≠ none)

/-- Every line that is not known can be connected to at the address that is read. -/
def AllConnect (mgr : RedisClusterMgr) (nodes : List NodeLine) : Prop :=
  ∀ n ∈ mgr.newLines (listed nodes), Reachable nodes n.addr.read

/-- A line that is not known takes the slot, and it and those before it can be connected to. -/
def Takeable (mgr : RedisClusterMgr) (nodes : List NodeLine) (s : UInt16) : Prop :=
  ∃ l n r, mgr.newLines (listed nodes) = l ++ n :: r ∧ n.readCovers s = true ∧
    ∀ m ∈ l ++ [n], Reachable nodes m.addr.read

/-- What the manager can recover from, once the cluster is as the reply says: the slot has a node;
and
* the node is up, and has an idle client or is a listed master; or
* it is up, has no client in use, and the reconnect of the second call goes through and takes the
  slot; or
* it is down, and the reconnect of the first call either gets as far as to take the slot, or goes
  through and the node has an idle client or is a listed master after all. -/
inductive Recoverable (mgr : RedisClusterMgr) (nodes : List NodeLine) (s : UInt16) : Prop
  | up {node : RedisClusterNode} : mgr.slotNode s = some node → node.bStatus_ = true →
    node.idleList_ ≠ [] ∨ Reachable nodes node.info_.addr → Recoverable mgr nodes s
  | lost {node : RedisClusterNode} : mgr.slotNode s = some node → node.bStatus_ = true →
    node.useMap_ = [] → mgr.Asks nodes → (mgr.forget node.info_.id).AllConnect nodes →
    (mgr.forget node.info_.id).Takeable nodes s → Recoverable mgr nodes s
  | down {node : RedisClusterNode} : mgr.slotNode s = some node → node.bStatus_ = false →
    mgr.Asks nodes →
    (mgr.forget node.info_.id).Takeable nodes s ∨ (mgr.forget node.info_.id).AllConnect nodes ∧
      (node.idleList_ ≠ [] ∨ Reachable nodes node.info_.addr) → Recoverable mgr nodes s

variable {mgr : RedisClusterMgr}

section Recover

variable {nodes : List NodeLine} (hr : Reply nodes) {net : Net} (hg : Good nodes net)

include hg in
theorem gives_of_reachable {node : RedisClusterNode} (hex : ¬ node.Exhausted)
    (h : node.idleList_ ≠ [] ∨ Reachable nodes node.info_.addr) : node.Gives net.connect := by
  rcases h with h | h
  · exact .inl h
  · by_cases hidle : node.idleList_ = []
    · refine .inr ⟨?_, hg.connect h⟩
      by_contra hmax
      exact hex ⟨hidle, hmax⟩
    · exact .inl hidle

include hr hg

/-- A reconnect that takes the slot, whatever it returns. -/
theorem reconnect_takes (hv : mgr.Valid) (hsz : RedisClusterNode.SizesOk mgr.minSize_ mgr.maxSize_)
    (ha : mgr.Asks nodes) {node : RedisClusterNode} {s : UInt16}
    (ht : (mgr.forget node.info_.id).Takeable nodes s) (uninit : Addr) :
    ∃ ret mgr₁, mgr.reconnect net uninit node = some (ret, mgr₁) ∧ mgr₁.HasFresh s := by
  obtain ⟨mgr₁, ret, mgr₂, mgr₃, hsame, hmin, hmax, hloop, hsame', hrec⟩ :=
    reconnect_good hr hg ha uninit node
  obtain ⟨l, n, r, hnew, hn, hreach⟩ := ht
  obtain ⟨node', hnode', hfresh⟩ := connectLoop_serves (fun n hn => hr.wf_of_listed hn)
    (by rw [hmin, hmax]; exact hsz) hr.listed_ids (hsame.valid (hv.forget _))
    ((congrFun hsame.newLines _).trans hnew) hn (fun m hm => hg.connect (hreach m hm)) hloop
  exact ⟨ret, mgr₃, hrec, node', hsame'.slotNode ▸ hnode', hfresh⟩

/-- A reconnect that goes through. -/
theorem reconnect_zero (hv : mgr.Valid)
    (hsz : RedisClusterNode.SizesOk mgr.minSize_ mgr.maxSize_) (ha : mgr.Asks nodes)
    {node : RedisClusterNode} (hall : (mgr.forget node.info_.id).AllConnect nodes)
    (uninit : Addr) : ∃ mgr₁, mgr.reconnect net uninit node = some (0, mgr₁) := by
  obtain ⟨mgr₁, ret, mgr₂, mgr₃, hsame, hmin, hmax, hloop, -, hrec⟩ :=
    reconnect_good hr hg ha uninit node
  obtain ⟨mgr', hzero⟩ := connectLoop_zero (fun n hn => hr.wf_of_listed hn)
    (by rw [hmin, hmax]; exact hsz) hr.listed_ids (hsame.valid (hv.forget _))
    fun n hn => hg.connect (hall n (hsame.newLines ▸ hn))
  rw [hloop] at hzero
  cases hzero
  exact ⟨mgr₃, hrec⟩

/-- After a reconnect that goes through, the slot has a node that can give a client, or the one that
it had. -/
theorem reconnect_slot {mgr mgr₁ : RedisClusterMgr} (hv : mgr.Valid) {node : RedisClusterNode}
    {uninit : Addr} (hrec : mgr.reconnect net uninit node = some (0, mgr₁)) (s : UInt16) :
    mgr₁.HasFresh s ∨ mgr₁.slotNode s = mgr.slotNode s := by
  have hc := (reconnect_refreshed hrec).connected (hv.forget _) hr hg.nodes
  cases hw : (mgr.forget node.info_.id).writer (listed nodes) s with
  | none => exact .inr (hc.kept s hw)
  | some n =>
    obtain ⟨node', hnode', hfresh, -⟩ := hc.taken s n hw
    exact .inl ⟨node', hnode', hfresh⟩

end Recover

/-- The slot after a change of its node. -/
theorem slotNode_set {s : UInt16} {k : Nat} {node : RedisClusterNode} (hk : mgr.slotMap_ s = some k)
    (hnode : mgr.heap[k]? = some node) (node' : RedisClusterNode) (created : Nat) :
    slotNode { mgr with heap := mgr.heap.set k node', created := created } s = some node' :=
  slotNode_eq_some.mpr ⟨k, hk, List.getElem?_set_self (List.getElem?_eq_some_iff.mp hnode).1⟩

theorem ne_nil_of_slotNode {s : UInt16} {node : RedisClusterNode}
    (h : mgr.slotNode s = some node) : mgr.heap ≠ [] := by
  obtain ⟨k, -, hk⟩ := slotNode_eq_some.mp h
  intro h0
  rw [h0] at hk
  cases hk

end RedisClusterMgr

/-! ## Recovery -/

section Served

open RedisClusterMgr

variable {minSize maxSize timeout : Int32} {password : Bytes} {mgr : RedisClusterMgr}
  (hi : InUse minSize maxSize timeout password mgr) {key : Bytes} {node : RedisClusterNode}
  (hs : mgr.slotNode (getKeySlotIndex key) = some node)

include hi hs

theorem InUse.sizesOk : RedisClusterNode.SizesOk mgr.minSize_ mgr.maxSize_ :=
  hi.sized (ne_nil_of_slotNode hs)

/-- A call that finds a node which can give a client. -/
theorem InUse.find_gives {net : Net} (hb : node.bStatus_ = true) (hgives : node.Gives net.connect)
    (uninit : Addr) :
    ∃ client mgr', mgr.findNodeConnection net uninit key = some (client, mgr') ∧ client ≠ none := by
  obtain ⟨k, -, -, hf⟩ := find_up hi.fullCoverage hs net uninit hb
  exact ⟨_, _, hf, RedisClusterNode.getRedisClient_gives hgives mgr.created⟩

variable {nodes : List NodeLine} (hr : Reply nodes)
include hr

/-- The node is down, and the reconnect goes through and takes the slot. -/
theorem InUse.find_retaken {net : Net} (hg : Good nodes net) (hb : node.bStatus_ = false)
    (ha : mgr.Asks nodes) (hall : (mgr.forget node.info_.id).AllConnect nodes)
    (ht : (mgr.forget node.info_.id).Takeable nodes (getKeySlotIndex key)) (uninit : Addr) :
    ∃ client mgr', mgr.findNodeConnection net uninit key = some (client, mgr') ∧ client ≠ none := by
  have hsz := hi.sizesOk hs
  obtain ⟨mgr₁, hrec⟩ := reconnect_zero hr hg hi.valid hsz ha hall uninit
  obtain ⟨ret, mgr₂, hrec', node', hnode', hfresh⟩ := reconnect_takes hr hg hi.valid hsz ha ht uninit
  rw [hrec] at hrec'
  cases hrec'
  obtain ⟨k, -, -, hf⟩ := find_down hi.fullCoverage hs net uninit hb hrec hnode'
  exact ⟨_, _, hf, RedisClusterNode.getRedisClient_gives (hfresh.gives _) mgr₁.created⟩

variable {net₁ net₂ : Net} (hg₁ : Good nodes net₁) (hg₂ : Good nodes net₂) (hex : ¬ node.Exhausted)

include hg₂ hex in
/-- The node has lost its clients without being down: the first call brings it down. -/
theorem InUse.served_lost (hb : node.bStatus_ = true) (huse : node.useMap_ = [])
    (ha : mgr.Asks nodes) (hall : (mgr.forget node.info_.id).AllConnect nodes)
    (ht : (mgr.forget node.info_.id).Takeable nodes (getKeySlotIndex key)) (uninit : Addr) :
    mgr.Served key net₁ net₂ uninit := by
  obtain ⟨k, hk, hnode, hf⟩ := find_up hi.fullCoverage hs net₁ uninit hb
  refine ⟨_, _, hf, ?_⟩
  by_cases hclient : (node.getRedisClient net₁.connect mgr.created).1 = none
  · right
    have hidle : node.idleList_ = [] := by
      by_contra hidle
      exact RedisClusterNode.getRedisClient_gives (.inl hidle) mgr.created hclient
    have hmax : (0 : Int) < node.maxSize_.toInt := by
      by_contra hmax
      exact hex ⟨hidle, by simpa [huse] using hmax⟩
    rw [RedisClusterNode.getRedisClient_lost hidle huse hmax hclient] at hf ⊢
    have hs' := slotNode_set hk hnode { node with bStatus_ := false }
      (node.getRedisClient net₁.connect mgr.created).2.2
    exact (hi.find hf).find_retaken hs' hr hg₂ rfl ⟨ha.brokers, ha.slots⟩ hall ht uninit
  · exact .inl hclient

include hg₁ hex in
/-- The node is down. -/
theorem InUse.served_down (hb : node.bStatus_ = false) (ha : mgr.Asks nodes)
    (h : (mgr.forget node.info_.id).Takeable nodes (getKeySlotIndex key) ∨
      (mgr.forget node.info_.id).AllConnect nodes ∧
        (node.idleList_ ≠ [] ∨ Reachable nodes node.info_.addr)) (net₂ : Net) (uninit : Addr) :
    mgr.Served key net₁ net₂ uninit := by
  have hsz := hi.sizesOk hs
  rcases h with ht | ⟨hall, hnode⟩
  · obtain ⟨ret, mgr₁, hrec, node', hnode', hfresh⟩ := reconnect_takes hr hg₁ hi.valid hsz ha ht uninit
    by_cases hret : ret = 0
    · subst hret
      obtain ⟨k, -, -, hf⟩ := find_down hi.fullCoverage hs net₁ uninit hb hrec hnode'
      exact ⟨_, _, hf, .inl (RedisClusterNode.getRedisClient_gives (hfresh.gives _) mgr₁.created)⟩
    · -- the slot is taken, and the second call finds it
      have hf := find_fail hi.fullCoverage hs net₁ uninit hb hrec hret
      exact ⟨none, mgr₁, hf,
        .inr ((hi.find hf).find_gives hnode' hfresh.status (hfresh.gives _) uninit)⟩
  · obtain ⟨mgr₁, hrec⟩ := reconnect_zero hr hg₁ hi.valid hsz ha hall uninit
    have hgives : ∃ node', mgr₁.slotNode (getKeySlotIndex key) = some node' ∧
        node'.Gives net₁.connect := by
      rcases reconnect_slot hr hg₁ hi.valid hrec (getKeySlotIndex key) with
        ⟨node', hnode', hfresh⟩ | hkept
      · exact ⟨node', hnode', hfresh.gives _⟩
      · exact ⟨node, hkept.trans hs, gives_of_reachable hg₁ hex hnode⟩
    obtain ⟨node', hnode', hgives⟩ := hgives
    obtain ⟨k, -, -, hf⟩ := find_down hi.fullCoverage hs net₁ uninit hb hrec hnode'
    exact ⟨_, _, hf, .inl (RedisClusterNode.getRedisClient_gives hgives mgr₁.created)⟩

omit hs in
include hg₁ hg₂ in
theorem InUse.served
    (hex : ∀ node, mgr.slotNode (getKeySlotIndex key) = some node → ¬ node.Exhausted)
    (h : mgr.Recoverable nodes (getKeySlotIndex key)) (uninit : Addr) :
    mgr.Served key net₁ net₂ uninit := by
  cases h with
  | up hs hb hnode =>
    obtain ⟨client, mgr', hf, hne⟩ :=
      hi.find_gives hs hb (gives_of_reachable hg₁ (hex _ hs) hnode) uninit
    exact ⟨client, mgr', hf, .inl hne⟩
  | lost hs hb huse ha hall ht => exact hi.served_lost hs hr hg₂ (hex _ hs) hb huse ha hall ht uninit
  | down hs hb ha h => exact hi.served_down hs hr hg₁ (hex _ hs) hb ha h net₂ uninit

end Served

end RedisCluster
end CmakeFrame
