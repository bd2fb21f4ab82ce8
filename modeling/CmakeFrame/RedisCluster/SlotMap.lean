import CmakeFrame.Lib.Sys
import CmakeFrame.RedisCluster.NodeLines

/-!
# What a call of `init` or `init2` makes of the slot map

* `connectClusterNode_cases`: what happens to one node; `connectLoop_connected`: what a loop that
  goes through has done (`Connected`).
* `Valid`: what every call keeps; `Refreshed`: what every call does, whatever it returns.
* `Follows`: the slots of the live masters have nodes with their ids and addresses;
  `Connected.follows_iff`: this is so after a call that returns 0 exactly if `CallOk` was before it.
-/

namespace CmakeFrame
namespace RedisCluster

open Lib
open RedisAsyn (NodeLine SlotToken clusterText)

/-! ## Nodes -/

namespace RedisClusterNode

/-- The sizes that `init` accepts. -/
def SizesOk (minSize maxSize : Int32) : Prop :=
  ¬ (if minSize < kMinSize then kMinSize else minSize) >
    if maxSize > kMaxSize then kMaxSize else maxSize

/-- A node that is connected and has a client to give. -/
structure Fresh (node : RedisClusterNode) : Prop where
  status : node.bStatus_ = true
  idle : node.idleList_ ≠ []

theorem initLoop_true {connect : Connect} {n : Nat} {node node' : RedisClusterNode}
    {created created' : Nat} (h : initLoop connect n node created = (true, node', created')) :
    ∃ cs : List Nat, cs.length = n ∧ node' = { node with idleList_ := node.idleList_ ++ cs } := by
  induction n generalizing node created with
  | zero =>
    simp only [initLoop, Prod.mk.injEq, true_and] at h
    exact ⟨[], rfl, by simp [← h.1]⟩
  | succ n ih =>
    rw [initLoop] at h
    split at h
    · obtain ⟨cs, hlen, rfl⟩ := ih h
      exact ⟨created :: cs, by simp [hlen], by simp⟩
    · cases h

theorem initLoop_of_connect {connect : Connect} {node : RedisClusterNode}
    (hc : ∀ c, connect c node.info_.addr = true) (n created : Nat) :
    (initLoop connect n node created).1 = true := by
  induction n generalizing node created with
  | zero => rfl
  | succ n ih =>
    rw [initLoop, if_pos (hc created)]
    refine ih ?_ (created + 1)
    exact hc

variable {connect : Connect} {info : NodeInfo} {minSize maxSize timeout : Int32} {password : Bytes}
  {created : Nat}

theorem minSize_pos (minSize : Int32) :
    0 < (if minSize < kMinSize then kMinSize else minSize).toInt.toNat := by
  split
  · decide
  · rename_i h
    have h1 : ¬ minSize.toInt < kMinSize.toInt := fun hlt => h (Int32.lt_iff_toInt_lt.mpr hlt)
    have h2 : kMinSize.toInt = 1 := by decide
    omega

theorem init_true {node : RedisClusterNode} {created' : Nat}
    (h : init connect info minSize maxSize timeout password created = (true, node, created')) :
    SizesOk minSize maxSize ∧ node.Fresh ∧ node.info_ = info := by
  unfold init at h
  simp only at h
  by_cases hs : SizesOk minSize maxSize
  · rw [if_neg hs] at h
    obtain ⟨cs, hlen, rfl⟩ := initLoop_true h
    refine ⟨hs, ⟨rfl, ?_⟩, rfl⟩
    change cs ≠ []
    rintro rfl
    have hpos := minSize_pos minSize
    rw [← hlen] at hpos
    exact absurd hpos (by decide)
  · rw [if_pos (not_not.mp hs)] at h
    cases h

theorem init_of_connect (hs : SizesOk minSize maxSize) (hc : ∀ c, connect c info.addr = true)
    (timeout : Int32) (password : Bytes) (created : Nat) :
    (init connect info minSize maxSize timeout password created).1 = true := by
  unfold init
  simp only
  rw [if_neg hs]
  exact initLoop_of_connect hc _ created

end RedisClusterNode

/-! ## One line -/

namespace RedisClusterMgr

variable {connect : Connect} {net : Net} {uninit : Addr} {mgr mgr' mgr'' : RedisClusterMgr}
  {ret : Int}

/-- The node that `slotMap_` has for the slot. -/
def slotNode (mgr : RedisClusterMgr) (s : UInt16) : Option RedisClusterNode :=
  (mgr.slotMap_ s).bind fun k => mgr.heap[k]?

/-- What it was made from. -/
def slotInfo (mgr : RedisClusterMgr) (s : UInt16) : Option NodeInfo := (mgr.slotNode s).map (·.info_)

/-- The pointers are not dangling; a node that is known is known as connected. -/
structure Valid (mgr : RedisClusterMgr) : Prop where
  slots : ∀ s k, mgr.slotMap_ s = some k → k < mgr.heap.length
  status : ∀ id, mgr.nodesStatus_ id ≠ some false

/-- `nodesStatus_` has the id, so that `connectClusterNode` leaves the node as it is. -/
def known (mgr : RedisClusterMgr) (id : Bytes) : Bool := mgr.nodesStatus_ id = some true

/-- What `connectClusterNode` can do: nothing for a node that is known; else connect to it, or fail. -/
theorem connectClusterNode_cases {node : NodeInfo} {b : Bool}
    (h : mgr.connectClusterNode connect node = some (b, mgr')) :
    (mgr.known node.id = true ∧ b = true ∧ mgr' = mgr) ∨
      (mgr.known node.id = false ∧ b = false ∧ (∃ created, mgr' = { mgr with created := created }) ∧
        (RedisClusterNode.init connect node mgr.minSize_ mgr.maxSize_ mgr.timeout_ mgr.password_
          mgr.created).1 = false) ∨
      (mgr.known node.id = false ∧ b = true ∧ ∃ clusterNode created slotMap_,
        RedisClusterNode.init connect node mgr.minSize_ mgr.maxSize_ mgr.timeout_ mgr.password_
          mgr.created = (true, clusterNode, created) ∧
        assignSlots mgr.heap.length node.slots mgr.slotMap_ = some slotMap_ ∧
        mgr' = { mgr with
          slotMap_ := slotMap_, created := created, heap := mgr.heap ++ [clusterNode]
          nodesStatus_ := Function.update mgr.nodesStatus_ node.id
            (some ((mgr.nodesStatus_ node.id).getD true)) }) := by
  unfold connectClusterNode at h
  split at h
  · rename_i hk
    simp only [Option.some.injEq, Prod.mk.injEq] at h
    exact .inl ⟨by simp [known, hk], h.1.symm, h.2.symm⟩
  · rename_i hk
    have hk : mgr.known node.id = false := by simp [known, hk]
    split at h
    · rename_i created hinit
      simp only [Option.some.injEq, Prod.mk.injEq] at h
      exact .inr (.inl ⟨hk, h.1.symm, ⟨created, h.2.symm⟩, by rw [hinit]⟩)
    · rename_i clusterNode created hinit
      split at h
      · cases h
      · rename_i slotMap_ hslots
        simp only [Option.some.injEq, Prod.mk.injEq] at h
        exact .inr (.inr ⟨hk, h.1.symm, clusterNode, created, slotMap_, hinit, hslots, h.2.symm⟩)

theorem connectClusterNode_known {n : NodeLine} (h : mgr.known n.id = true) :
    mgr.connectClusterNode connect (readNode n) = some (true, mgr) := by
  simp only [known, decide_eq_true_eq] at h
  unfold connectClusterNode
  exact if_pos h

theorem slotLoop_entry {node : Nat} {e : UInt16} {fuel : Nat} {pos : UInt16}
    {m m' : UInt16 → Option Nat} (h : slotLoop node e fuel pos m = some m') (s : UInt16) :
    m' s = some node ∨ m' s = m s := by
  induction fuel generalizing pos m with
  | zero => cases h
  | succ fuel ih =>
    rw [slotLoop] at h
    split at h
    · rcases ih h with hs | hs
      · exact .inl hs
      · by_cases hp : s = pos
        · subst hp
          exact .inl (by rw [hs, Function.update_self])
        · exact .inr (by rw [hs, Function.update_of_ne hp])
    · cases h
      exact .inr rfl

theorem assignSlots_entry {node : Nat} {rs : List SlotsInfo} {m m' : UInt16 → Option Nat}
    (h : assignSlots node rs m = some m') (s : UInt16) : m' s = some node ∨ m' s = m s := by
  induction rs generalizing m with
  | nil =>
    cases h
    exact .inr rfl
  | cons r rs ih =>
    rw [assignSlots] at h
    split at h
    · cases h
    · rename_i m₁ hloop
      rcases ih h with hs | hs
      · exact .inl hs
      · exact (slotLoop_entry hloop s).imp (fun h1 => hs.trans h1) fun h1 => hs.trans h1

/-- `nodesStatus_` has no entry but `true`, and the id gets one. -/
theorem known_insert (hv : mgr.Valid) (id id' : Bytes) :
    Function.update mgr.nodesStatus_ id (some ((mgr.nodesStatus_ id).getD true)) id' =
      if id' = id then some true else mgr.nodesStatus_ id' := by
  by_cases he : id' = id
  · subst he
    rw [Function.update_self, if_pos rfl]
    cases hid : mgr.nodesStatus_ id' with
    | none => rfl
    | some b =>
      cases b with
      | true => rfl
      | false => exact absurd hid (hv.status id')
  · rw [Function.update_of_ne he, if_neg he]

theorem connectClusterNode_valid {node : NodeInfo} {b : Bool} (hv : mgr.Valid)
    (h : mgr.connectClusterNode connect node = some (b, mgr')) : mgr'.Valid := by
  rcases connectClusterNode_cases h with
    ⟨-, -, rfl⟩ | ⟨-, -, ⟨created, rfl⟩, -⟩ | ⟨-, -, clusterNode, created, slotMap_, -, hslots, rfl⟩
  · exact hv
  · exact ⟨hv.slots, hv.status⟩
  · refine ⟨fun s k hk => ?_, fun id => ?_⟩
    · change slotMap_ s = some k at hk
      simp only [List.length_append, List.length_singleton]
      rcases assignSlots_entry hslots s with hs | hs
      · rw [hs] at hk
        cases hk
        omega
      · have := hv.slots s k (hs ▸ hk)
        omega
    · simp only [known_insert hv node.id id]
      split
      · decide
      · exact hv.status id

theorem connectLoop_valid {nodes : List NodeInfo} (hv : mgr.Valid)
    (h : mgr.connectLoop connect nodes = some (ret, mgr')) : mgr'.Valid := by
  induction nodes generalizing mgr with
  | nil =>
    cases h
    exact hv
  | cons node nodes ih =>
    rw [connectLoop] at h
    split at h
    · cases h
    · rename_i mgr₁ h1
      cases h
      exact connectClusterNode_valid hv h1
    · rename_i mgr₁ h1
      exact ih (connectClusterNode_valid hv h1) h

/-! ## All lines -/

/-- The lines that are connected to, because their ids are not known. -/
def newLines (mgr : RedisClusterMgr) (ns : List NodeLine) : List NodeLine :=
  ns.filter fun n => !mgr.known n.id

/-- The line that `slotMap_` has the slot from in the end: the last new one that takes it. -/
def writer (mgr : RedisClusterMgr) (ns : List NodeLine) (s : UInt16) : Option NodeLine :=
  (mgr.newLines ns).reverse.find? (·.readCovers s)

/-- The slot has a new node, made from the line. -/
def Takes (mgr : RedisClusterMgr) (s : UInt16) (n : NodeLine) : Prop :=
  ∃ node, mgr.slotNode s = some node ∧ node.Fresh ∧ node.info_ = readNode n

/-- What the loop over the lines has done: the slots of the new lines have their nodes, the others
are as they were. -/
structure Connected (mgr : RedisClusterMgr) (ns : List NodeLine) (mgr' : RedisClusterMgr) : Prop where
  taken : ∀ s n, mgr.writer ns s = some n → mgr'.Takes s n
  kept : ∀ s, mgr.writer ns s = none → mgr'.slotNode s = mgr.slotNode s

theorem newLines_cons_of_known {n : NodeLine} (h : mgr.known n.id = true) (ns : List NodeLine) :
    mgr.newLines (n :: ns) = mgr.newLines ns := by
  simp [newLines, h]

theorem newLines_cons_of_new {n : NodeLine} (h : mgr.known n.id = false) (ns : List NodeLine) :
    mgr.newLines (n :: ns) = n :: mgr.newLines ns := by
  simp [newLines, h]

theorem writer_cons_of_new {n : NodeLine} (h : mgr.known n.id = false) (ns : List NodeLine)
    (s : UInt16) :
    mgr.writer (n :: ns) s = (mgr.writer ns s).or (if n.readCovers s then some n else none) := by
  rw [writer, newLines_cons_of_new h, List.reverse_cons, List.find?_append, List.find?_singleton]
  rfl

/-- What `connectClusterNode` does for a new line. -/
theorem connectClusterNode_new {n : NodeLine} (hn : n.Wf) (hv : mgr.Valid)
    (hk : mgr.known n.id = false)
    (h : mgr.connectClusterNode connect (readNode n) = some (true, mgr')) :
    (∀ s, n.readCovers s = true → mgr'.Takes s n) ∧
      (∀ s, n.readCovers s = false → mgr'.slotNode s = mgr.slotNode s) ∧
      ∀ id, mgr'.known id = (id = n.id || mgr.known id) := by
  rcases connectClusterNode_cases h with
    ⟨hk', -⟩ | ⟨-, hb, -⟩ | ⟨-, -, clusterNode, created, slotMap_, hinit, hslots, rfl⟩
  · have : mgr.known n.id = true := hk'
    rw [hk] at this
    cases this
  · cases hb
  rw [assignSlots_read _ hn] at hslots
  cases hslots
  obtain ⟨-, hfresh, hinfo⟩ := RedisClusterNode.init_true hinit
  refine ⟨fun s hs => ⟨clusterNode, ?_, hfresh, hinfo⟩, fun s hs => ?_, fun id => ?_⟩
  · simp [slotNode, hs]
  · simp only [slotNode, hs, Bool.false_eq_true, if_false]
    cases hm : mgr.slotMap_ s with
    | none => rfl
    | some k => exact List.getElem?_append_left (hv.slots s k hm)
  · have hid : (readNode n).id = n.id := rfl
    simp only [known, hid, known_insert hv n.id id]
    by_cases he : id = n.id
    · simp [he]
    · simp [he]

theorem newLines_congr {n : NodeLine} {ns : List NodeLine} (hid : n.id ∉ ns.map (·.id))
    (hk : ∀ id, mgr'.known id = (id = n.id || mgr.known id)) :
    mgr'.newLines ns = mgr.newLines ns := by
  refine List.filter_congr fun m hm => ?_
  have hne : m.id ≠ n.id := fun he => hid (he ▸ List.mem_map_of_mem hm)
  rw [hk m.id]
  simp [hne]

theorem connectLoop_connected {ns : List NodeLine} (hw : ∀ n ∈ ns, n.Wf)
    (hids : (ns.map (·.id)).Nodup) (hv : mgr.Valid)
    (h : mgr.connectLoop connect (ns.map readNode) = some (0, mgr')) : mgr.Connected ns mgr' := by
  induction ns generalizing mgr with
  | nil =>
    cases h
    refine ⟨fun s n hn => ?_, fun _ _ => rfl⟩
    cases hn
  | cons n ns ih =>
    obtain ⟨hid, hids⟩ := List.nodup_cons.mp hids
    have hw' : ∀ m ∈ ns, m.Wf := fun m hm => hw m (List.mem_cons_of_mem n hm)
    rw [List.map_cons, connectLoop] at h
    split at h
    · cases h
    · cases h
    · rename_i mgr₁ h1
      have hc := ih hw' hids (connectClusterNode_valid hv h1) h
      cases hk : mgr.known n.id with
      | true =>
        rw [connectClusterNode_known hk] at h1
        cases h1
        have hwr : ∀ s, mgr.writer (n :: ns) s = mgr.writer ns s := fun s => by
          rw [writer, newLines_cons_of_known hk, writer]
        exact ⟨fun s m hm => hc.taken s m (hwr s ▸ hm), fun s hm => hc.kept s (hwr s ▸ hm)⟩
      | false =>
        obtain ⟨htakes, hkeeps, hknown⟩ := connectClusterNode_new (hw n (by simp)) hv hk h1
        have hwr : ∀ s, mgr₁.writer ns s = mgr.writer ns s := fun s => by
          rw [writer, newLines_congr hid hknown, writer]
        refine ⟨fun s m hm => ?_, fun s hm => ?_⟩
        · rw [writer_cons_of_new hk] at hm
          cases hlater : mgr.writer ns s with
          | some m' =>
            rw [hlater] at hm
            cases hm
            exact hc.taken s m ((hwr s).trans hlater)
          | none =>
            -- no later line takes the slot
            rw [hlater, Option.none_or] at hm
            split at hm
            · rename_i hs
              cases hm
              obtain ⟨node, hnode, hfresh⟩ := htakes s hs
              exact ⟨node, by rw [hc.kept s ((hwr s).trans hlater), hnode], hfresh⟩
            · cases hm
        · rw [writer_cons_of_new hk, Option.or_eq_none_iff] at hm
          obtain ⟨hlater, hs⟩ := hm
          rw [hc.kept s ((hwr s).trans hlater)]
          refine hkeeps s ?_
          by_contra hs'
          rw [if_pos (by simpa using hs')] at hs
          cases hs

/-! ## The calls of `init` and `init2` -/

/-- The two managers have the same nodes. -/
structure SameNodes (mgr mgr' : RedisClusterMgr) : Prop where
  status : mgr'.nodesStatus_ = mgr.nodesStatus_
  slotMap : mgr'.slotMap_ = mgr.slotMap_
  heap : mgr'.heap = mgr.heap

theorem SameNodes.refl (mgr : RedisClusterMgr) : mgr.SameNodes mgr := ⟨rfl, rfl, rfl⟩

theorem SameNodes.trans (h : mgr.SameNodes mgr') (h' : mgr'.SameNodes mgr'') :
    mgr.SameNodes mgr'' :=
  ⟨h'.status.trans h.status, h'.slotMap.trans h.slotMap, h'.heap.trans h.heap⟩

theorem SameNodes.valid (h : mgr.SameNodes mgr') (hv : mgr.Valid) : mgr'.Valid := by
  refine ⟨?_, ?_⟩
  · rw [h.slotMap, h.heap]
    exact hv.slots
  · rw [h.status]
    exact hv.status

theorem SameNodes.slotNode (h : mgr.SameNodes mgr') : mgr'.slotNode = mgr.slotNode := by
  funext s
  rw [RedisClusterMgr.slotNode, RedisClusterMgr.slotNode, h.slotMap, h.heap]

theorem SameNodes.newLines (h : mgr.SameNodes mgr') : mgr'.newLines = mgr.newLines := by
  funext ns
  unfold RedisClusterMgr.newLines RedisClusterMgr.known
  rw [h.status]

theorem SameNodes.writer (h : mgr.SameNodes mgr') : mgr'.writer = mgr.writer := by
  funext ns s
  rw [RedisClusterMgr.writer, RedisClusterMgr.writer, h.newLines]

/-- What a call of `init` or `init2` does: it fails before it has the nodes, or it goes through those
of the reply. -/
def Refreshed (net : Net) (mgr : RedisClusterMgr) (ret : Int) (mgr' : RedisClusterMgr) : Prop :=
  ∃ mgr₁ mgr₂, mgr.SameNodes mgr₁ ∧ mgr₂.SameNodes mgr' ∧
    (ret = -1 ∧ mgr₁ = mgr₂ ∨
      ∃ infos, mgr₁.connectLoop net.connect infos = some (ret, mgr₂) ∧
        ∀ nodes, Reply nodes → net.clusterNodes = some (clusterText nodes) →
          infos = (listed nodes).map readNode)

theorem Refreshed.fail (h : some ((-1 : Int), mgr) = some (ret, mgr')) :
    Refreshed net mgr ret mgr' := by
  cases h
  exact ⟨mgr, mgr, .refl mgr, .refl mgr, .inl ⟨rfl, rfl⟩⟩

theorem Refreshed.of_same {mgr mgr₀ mgr' : RedisClusterMgr} (hr : Refreshed net mgr₀ ret mgr')
    (h : mgr.SameNodes mgr₀) : Refreshed net mgr ret mgr' := by
  obtain ⟨mgr₁, mgr₂, h1, h2, hr⟩ := hr
  exact ⟨mgr₁, mgr₂, h.trans h1, h2, hr⟩

theorem Refreshed.to_same (hr : Refreshed net mgr ret mgr') (h : mgr'.SameNodes mgr'') :
    Refreshed net mgr ret mgr'' := by
  obtain ⟨mgr₁, mgr₂, h1, h2, hr⟩ := hr
  exact ⟨mgr₁, mgr₂, h1, h2.trans h, hr⟩

theorem Refreshed.valid (h : Refreshed net mgr ret mgr') (hv : mgr.Valid) : mgr'.Valid := by
  obtain ⟨mgr₁, mgr₂, h1, h2, ⟨-, rfl⟩ | ⟨infos, hloop, -⟩⟩ := h
  · exact h2.valid (h1.valid hv)
  · exact h2.valid (connectLoop_valid (h1.valid hv) hloop)

theorem Refreshed.connected (h : Refreshed net mgr 0 mgr') (hv : mgr.Valid) {nodes : List NodeLine}
    (hr : Reply nodes) (hnet : net.clusterNodes = some (clusterText nodes)) :
    mgr.Connected (listed nodes) mgr' := by
  obtain ⟨mgr₁, mgr₂, h1, h2, ⟨h0, -⟩ | ⟨infos, hloop, hinfos⟩⟩ := h
  · exact absurd h0 (by decide)
  · rw [hinfos nodes hr hnet] at hloop
    have hc := connectLoop_connected (fun n hn => hr.wf_of_listed hn) hr.listed_ids (h1.valid hv) hloop
    refine ⟨fun s n hn => ?_, fun s hs => ?_⟩
    · obtain ⟨node, hnode, hfresh⟩ := hc.taken s n (h1.writer ▸ hn)
      exact ⟨node, h2.slotNode ▸ hnode, hfresh⟩
    · rw [h2.slotNode, hc.kept s (h1.writer ▸ hs), h1.slotNode]

theorem getClusterNodesInfo_sameNodes {reply : Option Bytes} {b : Bool}
    (h : mgr.getClusterNodesInfo uninit reply = (b, mgr')) : mgr.SameNodes mgr' := by
  unfold getClusterNodesInfo at h
  split at h
  · cases h
    exact .refl mgr
  · cases h
    exact ⟨rfl, rfl, rfl⟩

theorem askNode_refreshed (h : mgr.askNode net uninit = some (ret, mgr')) :
    Refreshed net mgr ret mgr' := by
  unfold askNode at h
  split at h
  · split at h
    · cases h
    · exact .fail h
    · split at h
      · rename_i mgr₁ he
        exact (Refreshed.fail h).of_same (getClusterNodesInfo_sameNodes he)
      · rename_i mgr₁ he
        refine ⟨mgr₁, mgr', getClusterNodesInfo_sameNodes he, .refl mgr',
          .inr ⟨mgr₁.nodes_, h, fun nodes hr hnet => ?_⟩⟩
        rw [hnet] at he
        rw [(getClusterNodesInfo_true hr.lines he).2]
  · exact .fail h

theorem init_refreshed {ipStr : Bytes} {port minSize maxSize timeout : Int32} {password : Bytes}
    {fullCoverage : Int32}
    (h : mgr.init net uninit ipStr port minSize maxSize timeout password fullCoverage =
      some (ret, mgr')) : Refreshed net mgr ret mgr' := by
  unfold init at h
  simp only at h
  split at h
  · exact (askNode_refreshed h).of_same ⟨rfl, rfl, rfl⟩
  · exact (Refreshed.fail h).of_same ⟨rfl, rfl, rfl⟩

theorem brokersLoop_refreshed {result : List Bytes}
    (h : mgr.brokersLoop net uninit result = some (ret, mgr')) : Refreshed net mgr ret mgr' := by
  induction result generalizing mgr with
  | nil => exact .fail h
  | cons broker result ih =>
    rw [brokersLoop] at h
    split at h
    · exact .fail h
    · simp only at h
      split at h
      · exact (askNode_refreshed h).of_same ⟨rfl, rfl, rfl⟩
      · exact (ih h).of_same ⟨rfl, rfl, rfl⟩

theorem init2_refreshed {brokers : Bytes} {minSize maxSize timeout : Int32} {password : Bytes}
    {fullCoverage : Int32}
    (h : mgr.init2 net uninit brokers minSize maxSize timeout password fullCoverage =
      some (ret, mgr')) : Refreshed net mgr ret mgr' :=
  (brokersLoop_refreshed h).of_same ⟨rfl, rfl, rfl⟩

/-- The manager that `getConnection` calls `init2` with: the node that has failed is not known any
more. -/
def forget (mgr : RedisClusterMgr) (id : Bytes) : RedisClusterMgr :=
  { mgr with nodesStatus_ := Function.update mgr.nodesStatus_ id none }

theorem Valid.forget (hv : mgr.Valid) (id : Bytes) : (mgr.forget id).Valid := by
  refine ⟨hv.slots, fun id' => ?_⟩
  simp only [RedisClusterMgr.forget, Function.update_apply]
  split
  · decide
  · exact hv.status id'

theorem reconnect_refreshed {node : RedisClusterNode}
    (h : mgr.reconnect net uninit node = some (ret, mgr')) :
    Refreshed net (mgr.forget node.info_.id) ret mgr' := by
  obtain ⟨⟨ret₁, mgr₁⟩, h1, he⟩ := Option.map_eq_some_iff.mp h
  have hr : Refreshed net (mgr.forget node.info_.id) ret₁ mgr₁ :=
    (init2_refreshed h1).of_same ⟨rfl, rfl, rfl⟩
  simp only at he
  split at he
  · cases he
    rename_i h0
    exact (h0 ▸ hr).to_same ⟨rfl, rfl, rfl⟩
  · cases he
    exact hr

/-! ## When the slot map follows the reply -/

/-- `slotMap_` has a node with the id, the ip and the port of the line. -/
def Points (mgr : RedisClusterMgr) (s : UInt16) (n : NodeLine) : Prop :=
  ∃ info, mgr.slotInfo s = some info ∧ info.id = n.id ∧ info.addr = n.addr.svrInfo

/-- So it is for every slot of the plain ranges of the live masters. -/
def Follows (mgr : RedisClusterMgr) (nodes : List NodeLine) : Prop :=
  ∀ n ∈ nodes, live n = true → ∀ s, n.covers s = true → mgr.Points s n

/-- What a call of `init` or `init2` has to find so that it can set the slot map right: a live master
that is known has had its slots before; the address of one that is not known has no colon but the one
before the port; and the migration markers of lines that are not known, which are read as slot 0,
stand before the line of slot 0, which is not known either. -/
structure CallOk (mgr : RedisClusterMgr) (nodes : List NodeLine) : Prop where
  known : ∀ n ∈ nodes, live n = true → mgr.known n.id = true → ∀ s, n.covers s = true → mgr.Points s n
  colon : ∀ n ∈ nodes, live n = true → mgr.known n.id = false → (∃ s, n.covers s = true) →
    58 ∉ n.addr.host
  marker : ∀ n ∈ nodes, live n = true → n.covers 0 = true →
    ∀ l m r, mgr.newLines (listed nodes) = l ++ m :: r → m.hasMarker = true → n ∈ m :: r

theorem Takes.points_iff {s : UInt16} {m n : NodeLine} (h : mgr.Takes s m) :
    mgr.Points s n ↔ m.id = n.id ∧ m.addr.read = n.addr.svrInfo := by
  obtain ⟨node, hnode, -, hinfo⟩ := h
  have hs : mgr.slotInfo s = some (readNode m) := by rw [slotInfo, hnode, Option.map_some, hinfo]
  constructor
  · rintro ⟨info, he, hid, haddr⟩
    rw [hs] at he
    cases he
    exact ⟨hid, haddr⟩
  · rintro ⟨hid, haddr⟩
    exact ⟨readNode m, hs, hid, haddr⟩

theorem points_congr {s : UInt16} (h : mgr'.slotNode s = mgr.slotNode s) (n : NodeLine) :
    mgr'.Points s n ↔ mgr.Points s n := by
  unfold Points slotInfo
  rw [h]

theorem mem_newLines {ns : List NodeLine} {n : NodeLine} :
    n ∈ mgr.newLines ns ↔ n ∈ ns ∧ mgr.known n.id = false := by
  simp [newLines]

/-- The writer of a slot: no line behind it takes the slot. -/
theorem writer_eq_some {ns : List NodeLine} {s : UInt16} {m : NodeLine}
    (h : mgr.writer ns s = some m) :
    m.readCovers s = true ∧
      ∃ l r, mgr.newLines ns = l ++ m :: r ∧ ∀ n ∈ r, n.readCovers s = false := by
  obtain ⟨hm, l, r, hl, hno⟩ := List.find?_eq_some_iff_append.mp h
  refine ⟨hm, r.reverse, l.reverse, ?_, fun n hn => ?_⟩
  · have := congrArg List.reverse hl
    simpa using this
  · simpa using hno n (List.mem_reverse.mp hn)

theorem writer_ne_none {ns : List NodeLine} {s : UInt16} {n : NodeLine} (hn : n ∈ mgr.newLines ns)
    (hs : n.readCovers s = true) : mgr.writer ns s ≠ none := fun h =>
  List.find?_eq_none.mp h n (List.mem_reverse.mpr hn) hs

theorem readCovers_of_covers {n : NodeLine} {s : UInt16} (h : n.covers s = true) :
    n.readCovers s = true := by
  simp [NodeLine.readCovers, h]

section Call

variable {mgr mgr' : RedisClusterMgr} {nodes : List NodeLine} (hr : Reply nodes)
  (hc : mgr.Connected (listed nodes) mgr')
include hr hc

/-- A slot that points to a live master and was taken by a line was taken by the line of the master. -/
theorem Connected.writer_eq {n m : NodeLine} (hn : n ∈ nodes) (hl : live n = true) {s : UInt16}
    (hw : mgr.writer (listed nodes) s = some m) (hp : mgr'.Points s n) :
    m = n ∧ n ∈ mgr.newLines (listed nodes) ∧ n.addr.read = n.addr.svrInfo := by
  obtain ⟨hid, haddr⟩ := (hc.taken s m hw).points_iff.mp hp
  obtain ⟨-, l, r, hnew, -⟩ := writer_eq_some hw
  have hm : m ∈ mgr.newLines (listed nodes) := by rw [hnew]; simp
  obtain rfl : m = n := hr.eq_of_id (mem_newLines.mp hm).1 (hr.listed_of_live hn hl) hid
  exact ⟨rfl, hm, haddr⟩

theorem Connected.callOk (hf : mgr'.Follows nodes) : mgr.CallOk nodes := by
  refine ⟨fun n hn hl hk s hs => ?_, fun n hn hl hk ⟨s, hs⟩ => ?_, fun n hn hl hs l m r hnew hm => ?_⟩
  · have hp := hf n hn hl s hs
    cases hw : mgr.writer (listed nodes) s with
    | none => exact (points_congr (hc.kept s hw) n).mp hp
    | some m =>
      obtain ⟨rfl, hmem, -⟩ := hc.writer_eq hr hn hl hw hp
      exact absurd hk (by simp [(mem_newLines.mp hmem).2])
  · have hnew := mem_newLines.mpr ⟨hr.listed_of_live hn hl, hk⟩
    obtain ⟨m, hw⟩ := Option.ne_none_iff_exists'.mp (writer_ne_none hnew (readCovers_of_covers hs))
    obtain ⟨-, -, haddr⟩ := hc.writer_eq hr hn hl hw (hf n hn hl s hs)
    exact (RedisAsyn.NodeAddr.read_eq_iff (hr.lines n hn).addr).mp haddr
  · -- the slot is taken by `m` or by a line behind it
    have h0 : m.readCovers 0 = true := by simp [NodeLine.readCovers, hm]
    obtain ⟨w, hw⟩ : ∃ w, (m :: r).reverse.find? (·.readCovers 0) = some w := by
      refine Option.ne_none_iff_exists'.mp fun hno => ?_
      exact List.find?_eq_none.mp hno m (by simp) h0
    have hwr : mgr.writer (listed nodes) 0 = some w := by
      rw [writer, hnew, List.reverse_append, List.find?_append, hw, Option.some_or]
    obtain ⟨rfl, -⟩ := hc.writer_eq hr hn hl hwr (hf n hn hl 0 hs)
    exact List.mem_reverse.mp (List.mem_of_find?_eq_some hw)

theorem Connected.follows (hok : mgr.CallOk nodes) : mgr'.Follows nodes := by
  intro n hn hl s hs
  have hlist := hr.listed_of_live hn hl
  cases hw : mgr.writer (listed nodes) s with
  | none =>
    rw [points_congr (hc.kept s hw) n]
    refine hok.known n hn hl ?_ s hs
    by_contra hk
    exact writer_ne_none (mem_newLines.mpr ⟨hlist, by simpa using hk⟩) (readCovers_of_covers hs) hw
  | some m =>
    obtain ⟨hm, l, r, hnew, hno⟩ := writer_eq_some hw
    have hmem : m ∈ mgr.newLines (listed nodes) := by rw [hnew]; simp
    -- the line that takes the slot is the one of its master
    obtain rfl : m = n := by
      by_cases hcov : m.covers s = true
      · exact hr.eq_of_covers (mem_newLines.mp hmem).1 hlist hcov hs
      · simp only [NodeLine.readCovers, hcov, Bool.false_or, Bool.and_eq_true, decide_eq_true_eq] at hm
        obtain ⟨hmark, rfl⟩ := hm
        rcases List.mem_cons.mp (hok.marker n hn hl hs l m r hnew hmark) with he | hin
        · exact he.symm
        · have := hno n hin
          rw [readCovers_of_covers hs] at this
          cases this
    refine (hc.taken s m hw).points_iff.mpr ⟨rfl, ?_⟩
    rw [RedisAsyn.NodeAddr.read_eq_iff (hr.lines m hn).addr]
    exact hok.colon m hn hl (mem_newLines.mp hmem).2 ⟨s, hs⟩

theorem Connected.follows_iff : mgr'.Follows nodes ↔ mgr.CallOk nodes :=
  ⟨hc.callOk hr, hc.follows hr⟩

end Call

end RedisClusterMgr

end RedisCluster
end CmakeFrame
