import CmakeFrame.RedisAsyn.ClusterCount
import CmakeFrame.RedisAsyn.Command
import CmakeFrame.RedisAsyn.Endless

/-!
# Where a cluster sends a command, for any topology

A topology has two records of who has a slot: the slot map, to which each master line adds the
entries that are free, and the list of the nodes with their ranges, which is searched when the
master of a slot is not connected.

* `replay`: the insertions of the nodes, in order; `replay_apply`: their entries.
* `Installed`: the nodes are the master lines of the text, and the slot map is their insertions;
  `analysisClusterNodes_installed`: so it is for any text that is accepted.
* `Owns`: the node whose insertion made the entry of a slot; `owns_iff`: the search finds it.
* `redisAsyncCommand_routes`: a command goes to the entry of its slot, or to a connected replica of
  the node that owns it.
-/

namespace CmakeFrame
namespace RedisAsyn

open Lib

/-! ## Insertions -/

/-- The entries that the nodes make, one node after the other. -/
def replay : List RedisClusterNode → SlotCliInfoMap → Option SlotCliInfoMap
  | [], m => some m
  | node :: nodes, m =>
    match node.clusterNode_.master_ with
    | none => replay nodes m
    | some cli => (insertSlots cli node.vectSlotInfo_ m).bind (replay nodes)

theorem replay_append (nodes nodes' : List RedisClusterNode) (m : SlotCliInfoMap) :
    replay (nodes ++ nodes') m = (replay nodes m).bind (replay nodes') := by
  induction nodes generalizing m with
  | nil => rfl
  | cons node nodes ih =>
    rw [List.cons_append, replay, replay]
    cases node.clusterNode_.master_ with
    | none => exact ih m
    | some cli =>
      simp only [Option.bind_assoc]
      exact congrArg _ (funext ih)

/-- Insertions that end fill the free entries of their ranges. -/
theorem insertSlots_some {cli : RedisCli} {rs : List SlotsInfo} {m m' : SlotCliInfoMap}
    (h : insertSlots cli rs m = some m') (slot : UInt16) :
    m' slot = if rs.any (·.covers slot) then some ((m slot).getD cli) else m slot := by
  have hfin : ∀ r ∈ rs, r.slotEnd_.toNat < 65535 := fun r hr => by
    have hlt := r.slotEnd_.toNat_lt
    have hne : r.slotEnd_ ≠ 65535 := fun hend => by
      rw [(insertSlots_eq_none_iff cli rs m).mpr ⟨r, hr, hend⟩] at h
      cases h
    have hne : r.slotEnd_.toNat ≠ 65535 := fun h => hne (UInt16.toNat_inj.mp h)
    omega
  rw [insertSlots_eq cli hfin] at h
  cases h
  rfl

/-- An entry is one that was there, or the master of the first node with the slot. -/
theorem replay_apply {nodes : List RedisClusterNode} {m m' : SlotCliInfoMap}
    (h : replay nodes m = some m') (hmaster : ∀ node ∈ nodes, node.clusterNode_.master_ ≠ none)
    (slot : UInt16) :
    m' slot = (m slot).or ((nodes.find? (·.covers slot)).bind (·.clusterNode_.master_)) := by
  induction nodes generalizing m with
  | nil =>
    cases h
    simp
  | cons node nodes ih =>
    rw [List.forall_mem_cons] at hmaster
    obtain ⟨cli, hcli⟩ := Option.ne_none_iff_exists'.mp hmaster.1
    rw [replay, hcli] at h
    obtain ⟨m₁, hins, hrest⟩ := Option.bind_eq_some_iff.mp h
    rw [ih hrest hmaster.2, insertSlots_some hins slot, List.find?_cons]
    cases hc : node.covers slot with
    | false =>
      rw [RedisClusterNode.covers] at hc
      simp [hc]
    | true =>
      rw [RedisClusterNode.covers] at hc
      cases hm : m slot <;> simp [hc, hcli]

/-- The node whose insertion made the entry of the slot: it was free before. -/
def Owns (nodes : List RedisClusterNode) (slot : UInt16) (node : RedisClusterNode) : Prop :=
  ∃ pre post m m', nodes = pre ++ node :: post ∧ replay pre (fun _ => none) = some m ∧
    replay [node] m = some m' ∧ m slot = none ∧ m' slot ≠ none

theorem Owns.mem {nodes : List RedisClusterNode} {slot : UInt16} {node : RedisClusterNode}
    (h : Owns nodes slot node) : node ∈ nodes := by
  obtain ⟨pre, post, m, m', rfl, -⟩ := h
  simp

/-- The search for a range finds the node that made the entry. -/
theorem owns_iff {nodes : List RedisClusterNode} {map : SlotCliInfoMap}
    (h : replay nodes (fun _ => none) = some map)
    (hmaster : ∀ node ∈ nodes, node.clusterNode_.master_ ≠ none) (slot : UInt16)
    (node : RedisClusterNode) :
    Owns nodes slot node ↔ nodes.find? (·.covers slot) = some node := by
  have hbind : ∀ {l : List RedisClusterNode}, (∀ v ∈ l, v.clusterNode_.master_ ≠ none) →
      ((l.find? (·.covers slot)).bind (·.clusterNode_.master_) = none ↔
        ∀ v ∈ l, v.covers slot = false) := fun {l} hl => by
    cases hf : l.find? (·.covers slot) with
    | none => simpa using hf
    | some v =>
      refine iff_of_false (by simpa using hl v (List.mem_of_find?_eq_some hf)) fun hall => ?_
      simpa [hall v (List.mem_of_find?_eq_some hf)] using List.find?_some hf
  constructor
  · rintro ⟨pre, post, m, m', rfl, hpre, hnode, hnone, hsome⟩
    rw [List.forall_mem_append, List.forall_mem_cons] at hmaster
    have hmaster₁ : ∀ v ∈ [node], v.clusterNode_.master_ ≠ none := by simpa using hmaster.2.1
    rw [replay_apply hpre hmaster.1, Option.none_or] at hnone
    rw [replay_apply hnode hmaster₁, replay_apply hpre hmaster.1, Option.none_or, hnone,
      Option.none_or, ne_eq, hbind hmaster₁] at hsome
    rw [List.find?_eq_some_iff_append]
    exact ⟨by simpa using hsome, pre, post, rfl, by simpa using (hbind hmaster.1).mp hnone⟩
  · intro hf
    obtain ⟨hcovers, pre, post, rfl, hpre⟩ := List.find?_eq_some_iff_append.mp hf
    rw [List.forall_mem_append, List.forall_mem_cons] at hmaster
    have hmaster₁ : ∀ v ∈ [node], v.clusterNode_.master_ ≠ none := by simpa using hmaster.2.1
    rw [replay_append, ← List.singleton_append] at h
    obtain ⟨m, hm, hrest⟩ := Option.bind_eq_some_iff.mp h
    rw [replay_append] at hrest
    obtain ⟨m', hm', -⟩ := Option.bind_eq_some_iff.mp hrest
    have hnone : m slot = none := by
      rw [replay_apply hm hmaster.1, Option.none_or, hbind hmaster.1]
      simpa using hpre
    refine ⟨pre, post, m, m', rfl, hm, hm', hnone, ?_⟩
    rw [replay_apply hm' hmaster₁, hnone, Option.none_or, ne_eq, hbind hmaster₁]
    simpa using hcovers

/-! ## What is installed -/

/-- The master lines, in fields. -/
def masterLines (vLines : List Bytes) : List (List Bytes) :=
  (vLines.map (split · [32])).filter fun nodeInfo => isMasterFlags (nodeInfo.getD 2 [])

theorem masterLines_append (lines lines' : List Bytes) :
    masterLines (lines ++ lines') = masterLines lines ++ masterLines lines' := by
  rw [masterLines, List.map_append, List.filter_append, masterLines, masterLines]

/-- The lines that name `nodeId` as their master. -/
def replicaLines (nodeId : Bytes) (vLines : List Bytes) : List (List Bytes) :=
  (vLines.map (split · [32])).filter fun nodeInfo => nodeId = nodeInfo.getD 3 []

/-- The address of a line. -/
def lineAddr (nodeInfo : List Bytes) : Option RedisSvrInfo := analysisSvrInfo (nodeInfo.getD 1 [])

/-- `node` is what a master line gives: its ranges, its client, and one for each of its replicas. -/
structure IsLine (vLines nodeInfo : List Bytes) (node : RedisClusterNode) : Prop where
  id : node.nodeIds_ = nodeInfo.getD 0 []
  slots : node.vectSlotInfo_ = (nodeInfo.drop 8).map slotsInfo
  master : ∃ cli, node.clusterNode_.master_ = some cli ∧ lineAddr nodeInfo = some cli.svrInfo_
  slave : node.clusterNode_.slave_.map (fun c => some c.svrInfo_) =
    (replicaLines node.nodeIds_ vLines).map lineAddr

/-- The nodes are the master lines among `lines`, and the slot map is what they inserted. -/
structure Installed (vLines lines : List Bytes) (info : RedisClusterInfo) : Prop where
  nodes : List.Forall₂ (IsLine vLines) (masterLines lines) info.clusterVectInfo_
  slots : replay info.clusterVectInfo_ (fun _ => none) = some info.clusterSlotMap_

theorem Installed.master_ne_none {vLines lines : List Bytes} {info : RedisClusterInfo}
    (h : Installed vLines lines info) :
    ∀ node ∈ info.clusterVectInfo_, node.clusterNode_.master_ ≠ none := by
  intro node hnode
  obtain ⟨nodeInfo, -, hline⟩ := exists_of_mem_right h.nodes hnode
  obtain ⟨cli, hcli, -⟩ := hline.master
  rw [hcli]
  exact Option.some_ne_none cli

section

variable {mgr : RedisClientMgr} {ioThreadNum : Nat}

theorem getOrNew_svrInfo {svr : RedisSvrInfo} {s s' : Analysis} {cli : RedisCli}
    (h : getOrNew mgr ioThreadNum svr s = (cli, s')) : cli.svrInfo_ = svr := by
  have hfits := (getOrNew_grew mgr ioThreadNum svr s).2.1
  rwa [h] at hfits

/-- The replicas of an accepted master have the addresses of the lines that name it. -/
theorem slaveLoop_addrs {nodeId : Bytes} {lines : List Bytes} {slave_ slave' : List RedisCli}
    {s s' : Analysis} (h : slaveLoop mgr ioThreadNum nodeId lines slave_ s = (0, slave', s')) :
    slave'.map (fun c => some c.svrInfo_) =
      slave_.map (fun c => some c.svrInfo_) ++ (replicaLines nodeId lines).map lineAddr := by
  induction lines generalizing slave_ s with
  | nil =>
    cases h
    simp [replicaLines]
  | cons line lines ih =>
    simp only [slaveLoop] at h
    split at h
    · cases h
    split at h
    · rename_i hid
      split at h
      · cases h
      · rename_i svr hsvr
        cases hr : getOrNew mgr ioThreadNum svr s with
        | mk cli s₀ =>
        rw [hr] at h
        rw [ih h, replicaLines, replicaLines, List.map_cons,
          List.filter_cons_of_pos (by simpa using hid)]
        have haddr : lineAddr (split line [32]) = some cli.svrInfo_ := by
          rw [getOrNew_svrInfo hr]
          exact hsvr
        simp [haddr]
    · rename_i hid
      rw [ih h, replicaLines, replicaLines, List.map_cons,
        List.filter_cons_of_neg (by simpa using hid)]

/-- An accepted master line adds its node, and makes the node's insertions. -/
theorem masterLine_installs {vLines nodeInfo : List Bytes} {s s' : Analysis}
    (h : masterLine mgr ioThreadNum vLines nodeInfo s = some (0, s')) :
    ∃ node map, s'.info = ⟨map, s.info.clusterVectInfo_ ++ [node]⟩ ∧
      replay [node] s.info.clusterSlotMap_ = some map ∧ IsLine vLines nodeInfo node := by
  unfold masterLine at h
  split at h
  · cases h
  split at h
  · cases h
  rename_i svr hsvr
  cases hr : getOrNew mgr ioThreadNum svr s with
  | mk cli s₀ =>
  rw [hr] at h
  simp only at h
  generalize hs₁ :
    (if cli.state_ = .conn then { s₀ with masterConn := s₀.masterConn + 1 } else s₀) = s₁ at h
  have h0 : s₁.tmpClusterInfo.getD ⟨fun _ => none, []⟩ = s.info := by
    rw [Analysis.info, (getOrNew_master hr hs₁).1.info]
  rw [h0] at h
  split at h
  · cases h
  rename_i slotMap hslots
  generalize hloop : slaveLoop mgr ioThreadNum (nodeInfo.getD 0 []) vLines [] s₁ = q at h
  obtain ⟨ret, slave_, s₂⟩ := q
  cases h
  refine ⟨_, slotMap, rfl, ?_, ⟨rfl, rfl, ⟨cli, rfl, ?_⟩, ?_⟩⟩
  · show (insertSlots cli _ s.info.clusterSlotMap_).bind (replay []) = some slotMap
    rw [hslots]
    rfl
  · rw [lineAddr, hsvr, getOrNew_svrInfo hr]
  · simpa using slaveLoop_addrs hloop

theorem Installed.snoc {vLines done : List Bytes} {info : RedisClusterInfo} {line : Bytes}
    (hi : Installed vLines done info) (hmaster : isMasterFlags ((split line [32]).getD 2 []) = true)
    {node : RedisClusterNode} {map : SlotCliInfoMap}
    (hnode : replay [node] info.clusterSlotMap_ = some map)
    (hline : IsLine vLines (split line [32]) node) :
    Installed vLines (done ++ [line]) ⟨map, info.clusterVectInfo_ ++ [node]⟩ := by
  refine ⟨?_, ?_⟩
  · have hlines : masterLines [line] = [split line [32]] := List.filter_cons_of_pos hmaster
    rw [masterLines_append, hlines]
    exact List.rel_append hi.nodes (List.Forall₂.cons hline List.Forall₂.nil)
  · rw [replay_append, hi.slots]
    exact hnode

theorem Installed.skip {vLines done : List Bytes} {info : RedisClusterInfo} {line : Bytes}
    (hi : Installed vLines done info)
    (hmaster : ¬ isMasterFlags ((split line [32]).getD 2 []) = true) :
    Installed vLines (done ++ [line]) info := by
  have hlines : masterLines [line] = [] := List.filter_cons_of_neg hmaster
  refine ⟨?_, hi.slots⟩
  rw [masterLines_append, hlines, List.append_nil]
  exact hi.nodes

theorem nodesLoop_installs {vLines done lines : List Bytes} {s s' : Analysis}
    (hi : Installed vLines done s.info)
    (h : nodesLoop mgr ioThreadNum vLines lines s = some (0, s')) :
    Installed vLines (done ++ lines) s'.info := by
  induction lines generalizing done s with
  | nil =>
    cases h
    rwa [List.append_nil]
  | cons line lines ih =>
    rw [List.append_cons]
    simp only [nodesLoop] at h
    split at h
    · cases h
    split at h
    · rename_i hmaster
      split at h
      · cases h
      · rename_i ret s₁ hline
        split at h
        · rename_i hret
          subst hret
          obtain ⟨node, map, hinfo, hnode, hisLine⟩ := masterLine_installs hline
          refine ih ?_ h
          rw [hinfo]
          exact hi.snoc hmaster hnode hisLine
        · rename_i hret
          cases h
          exact absurd rfl hret
    · rename_i hmaster
      exact ih (hi.skip hmaster) h

/-- Whatever the text is, a topology that is installed is its master lines. -/
theorem analysisClusterNodes_installed {text : Bytes} {ioIndex : UInt32} {created : Nat}
    {mgr' : RedisClientMgr} {out : Analysis}
    (h : analysisClusterNodes mgr ioThreadNum text ioIndex created = some (0, mgr', out))
    {info : RedisClusterInfo} (hinfo : mgr'.cluterCli_ = some info) :
    Installed (split text [10]) (split text [10]) info := by
  unfold analysisClusterNodes at h
  simp only at h
  split at h
  · cases h
  split at h
  · cases h
  · rename_i ret s hloop
    split at h
    · rename_i hret
      subst hret
      cases h
      have hstart : Installed (split text [10]) [] ⟨fun _ => none, []⟩ := ⟨List.Forall₂.nil, rfl⟩
      have hi := nodesLoop_installs hstart hloop
      have heq : out.info = info := by
        rw [Analysis.info]
        exact congrArg (Option.getD · _) hinfo
      rwa [heq] at hi
    · rename_i hret
      cases h
      exact absurd rfl hret

end

/-! ## Commands -/

section

variable {states : ConnStates}

variable (states) in
/-- The fallback, with the states of now: a connected replica of the first node with the slot. -/
theorem slotSlave_load {mgr : RedisMgr} {info : RedisClusterInfo} (h : mgr.cluterCli_ = some info)
    (slot : UInt16) :
    (mgr.load states).slotSlave slot =
      ((info.clusterVectInfo_.find? (·.covers slot)).bind fun node =>
        node.clusterNode_.slave_.find? fun c => states c.id = .conn).map (·.load states) := by
  have hload : (mgr.load states).cluterCli_ = some (info.load states) := by
    simp [RedisMgr.load, h]
  rw [RedisMgr.slotSlave, hload, Option.bind_some, RedisClusterInfo.load, List.find?_map,
    Option.bind_map, Option.map_bind]
  refine congrArg _ (funext fun node => ?_)
  exact List.find?_map

/-- The client that a command for the slot goes to: the entry of the slot, or the fallback. -/
def chosenCli (info : RedisClusterInfo) (states : ConnStates) (slot : UInt16) : Option RedisCli :=
  (info.clusterSlotMap_ slot).bind fun cli =>
    if states cli.id = .init then
      (info.clusterVectInfo_.find? (·.covers slot)).bind fun node =>
        node.clusterNode_.slave_.find? fun c => states c.id = .conn
    else some cli

/-- A running cluster: the command is accepted for the client that is chosen. -/
theorem redisAsyncCommand_cluster {mgr : RedisMgr} {info : RedisClusterInfo}
    (h : mgr.cluterCli_ = some info) (htype : mgr.svrType_ = .cluster)
    (hrun : mgr.initState_ = .runing) {slot : UInt16} (hslot : slot ≤ REDIS_CLUSTER_MAX_SLOT)
    {outSecond : Int32} {key cmdStr : Bytes} (hkey : key ≠ []) (hcmd : cmdStr ≠ [])
    (hout : outSecond ≠ 0) :
    redisAsyncCommand (mgr.load states) slot outSecond key cmdStr =
      match chosenCli info states slot with
      | none => .error CMD_SVR_NODES_DOWN
      | some c => .ok (c.load states) := by
  have hload : (mgr.load states).cluterCli_ = some (info.load states) := by
    simp [RedisMgr.load, h]
  have hentry : (info.load states).clusterSlotMap_ slot =
      (info.clusterSlotMap_ slot).map (·.load states) := rfl
  have htype' : (mgr.load states).svrType_ = .cluster := htype
  have hrun' : (mgr.load states).initState_ = .runing := hrun
  have hmax : ¬ slot > REDIS_CLUSTER_MAX_SLOT := UInt16.not_lt.mpr hslot
  rw [redisAsyncCommand, if_neg (by simp [hkey, hcmd, hout]), if_neg (by simp [hrun']),
    RedisMgr.cmdClient, htype', chosenCli]
  simp only [if_neg hmax, hload, hentry, slotSlave_load states h]
  cases info.clusterSlotMap_ slot with
  | none => rfl
  | some cli =>
    simp only [Option.map_some, Option.bind_some]
    by_cases hinit : states cli.id = .init
    · have hstate : (cli.load states).state_ = .init := hinit
      simp only [if_pos hstate, if_pos hinit]
      generalize hs : (info.clusterVectInfo_.find? (·.covers slot)).bind _ = found
      cases found with
      | none => rfl
      | some c =>
        obtain ⟨node, -, hc⟩ := Option.bind_eq_some_iff.mp hs
        have hconn : states c.id = .conn := by simpa using List.find?_some hc
        have hstate' : (c.load states).state_ = .conn := hconn
        simp [hstate']
    · have hstate : ¬ (cli.load states).state_ = .init := hinit
      simp only [if_neg hstate, if_neg hinit]

/-- The command is queued on `c`, in the loop that `c` belongs to. -/
def QueuedOn (states : ConnStates) (cmdStr : Bytes) (result : Except Int QueuedCmd) (c : RedisCli) :
    Prop :=
  ∃ q, result = .ok q ∧ q.cli_ = c.load states ∧ q.ioIndex = c.ioIndex_ ∧
    q.cmdOrd_.cmdMsg_ = cmdStr

/-- What a command for a slot comes to: it goes to the entry of the slot, and if that is not
connected, to a connected replica of the master line that made the entry. -/
structure Routes (info : RedisClusterInfo) (states : ConnStates) (slot : UInt16) (cmdStr : Bytes)
    (result : Except Int QueuedCmd) : Prop where
  owner : ∀ cli, info.clusterSlotMap_ slot = some cli →
    ∃ node, Owns info.clusterVectInfo_ slot node ∧ node.clusterNode_.master_ = some cli ∧
      ∀ node', Owns info.clusterVectInfo_ slot node' → node' = node
  master : ∀ cli, info.clusterSlotMap_ slot = some cli → states cli.id ≠ .init →
    QueuedOn states cmdStr result cli
  replica : ∀ cli node, info.clusterSlotMap_ slot = some cli → states cli.id = .init →
    Owns info.clusterVectInfo_ slot node → (∃ c ∈ node.clusterNode_.slave_, states c.id = .conn) →
    ∃ c ∈ node.clusterNode_.slave_, states c.id = .conn ∧ QueuedOn states cmdStr result c
  down : result = .error CMD_SVR_NODES_DOWN ↔
    info.clusterSlotMap_ slot = none ∨ ∃ cli, info.clusterSlotMap_ slot = some cli ∧
      states cli.id = .init ∧ ∀ node, Owns info.clusterVectInfo_ slot node →
        ∀ c ∈ node.clusterNode_.slave_, states c.id ≠ .conn

/-- The entry of a slot is the client of one master line, which the search finds. -/
theorem Installed.owner {vLines lines : List Bytes} {info : RedisClusterInfo}
    (hi : Installed vLines lines info) {slot : UInt16} {cli : RedisCli}
    (h : info.clusterSlotMap_ slot = some cli) :
    ∃ node, info.clusterVectInfo_.find? (·.covers slot) = some node ∧
      node.clusterNode_.master_ = some cli ∧
      ∀ node', Owns info.clusterVectInfo_ slot node' ↔ node' = node := by
  have hentry := replay_apply hi.slots hi.master_ne_none slot
  rw [h, Option.none_or] at hentry
  obtain ⟨node, hfind, hmaster⟩ := Option.bind_eq_some_iff.mp hentry.symm
  refine ⟨node, hfind, hmaster, fun node' => ?_⟩
  rw [owns_iff hi.slots hi.master_ne_none slot, hfind, Option.some_inj, eq_comm]

/-- No client is chosen just if the slot has no entry, or one that is not connected and has no
connected replica. -/
theorem Installed.chosenCli_eq_none_iff {vLines lines : List Bytes} {info : RedisClusterInfo}
    (hi : Installed vLines lines info) (states : ConnStates) (slot : UInt16) :
    chosenCli info states slot = none ↔
      info.clusterSlotMap_ slot = none ∨ ∃ cli, info.clusterSlotMap_ slot = some cli ∧
        states cli.id = .init ∧ ∀ node, Owns info.clusterVectInfo_ slot node →
          ∀ c ∈ node.clusterNode_.slave_, states c.id ≠ .conn := by
  unfold chosenCli
  cases hm : info.clusterSlotMap_ slot with
  | none => simp
  | some cli =>
    obtain ⟨node, hfind, -, howns⟩ := hi.owner hm
    by_cases hinit : states cli.id = .init
    · simp [hinit, hfind, howns]
    · simp [hinit]

/-- A client that is chosen for a slot is its entry, or a connected replica of the owner. -/
theorem Installed.chosenCli_spec {vLines lines : List Bytes} {info : RedisClusterInfo}
    (hi : Installed vLines lines info) {states : ConnStates} {slot : UInt16} {cli : RedisCli}
    (hm : info.clusterSlotMap_ slot = some cli) {c : RedisCli}
    (hc : chosenCli info states slot = some c) :
    (states cli.id ≠ .init → c = cli) ∧
      (states cli.id = .init → ∀ node, Owns info.clusterVectInfo_ slot node →
        c ∈ node.clusterNode_.slave_ ∧ states c.id = .conn) := by
  obtain ⟨node, hfind, -, howns⟩ := hi.owner hm
  rw [chosenCli, hm, Option.bind_some, hfind, Option.bind_some] at hc
  constructor
  · intro hup
    rw [if_neg hup] at hc
    exact (Option.some_inj.mp hc).symm
  · intro hinit node' hown
    rw [if_pos hinit] at hc
    rw [(howns node').mp hown]
    exact ⟨List.mem_of_find?_eq_some hc, by simpa using List.find?_some hc⟩

/-- A command that is queued on the chosen client, or refused if there is none, is routed. -/
theorem Installed.routes {vLines lines : List Bytes} {info : RedisClusterInfo}
    (hi : Installed vLines lines info) {states : ConnStates} {slot : UInt16} {cmdStr : Bytes}
    {result : Except Int QueuedCmd}
    (hnone : chosenCli info states slot = none → result = .error CMD_SVR_NODES_DOWN)
    (hsome : ∀ c, chosenCli info states slot = some c → QueuedOn states cmdStr result c) :
    Routes info states slot cmdStr result where
  owner cli hcli := by
    obtain ⟨node, -, hmaster, howns⟩ := hi.owner hcli
    exact ⟨node, (howns node).mpr rfl, hmaster, fun node' => (howns node').mp⟩
  master cli hcli hup := by
    have hc : chosenCli info states slot = some cli := by
      rw [chosenCli, hcli, Option.bind_some, if_neg hup]
    exact hsome cli hc
  replica cli node hcli hinit hown hup := by
    cases hc : chosenCli info states slot with
    | none =>
      obtain ⟨c, hmem, hconn⟩ := hup
      rcases (hi.chosenCli_eq_none_iff states slot).mp hc with hno | ⟨-, -, -, hdead⟩
      · rw [hcli] at hno
        cases hno
      · exact absurd hconn (hdead node hown c hmem)
    | some c =>
      obtain ⟨hmem, hconn⟩ := (hi.chosenCli_spec hcli hc).2 hinit node hown
      exact ⟨c, hmem, hconn, hsome c hc⟩
  down := by
    rw [← hi.chosenCli_eq_none_iff states slot]
    refine ⟨fun hdown => ?_, hnone⟩
    cases hc : chosenCli info states slot with
    | none => rfl
    | some c =>
      obtain ⟨q, hq, -⟩ := hsome c hc
      rw [hq] at hdown
      cases hdown

/-- Whatever text was accepted and whatever the states are: a command on the running manager of the
cluster goes to the entry of its slot or to a replica of the line that made it. -/
theorem redisAsyncCommand_routes {mgr mgr' : RedisClientMgr} {ioThreadNum : Nat} {text : Bytes}
    {ioIndex : UInt32} {created : Nat} {out : Analysis}
    (h : analysisClusterNodes mgr ioThreadNum text ioIndex created = some (0, mgr', out))
    {info : RedisClusterInfo} (hinfo : mgr'.cluterCli_ = some info)
    {self : RedisAsync} {asyFd : Int32} {redisMgr : RedisMgr} (states : ConnStates)
    (hfd : 0 ≤ asyFd)
    (hmgr : self.vectRedisCliMgr[asyFd.toNatClampNeg]? = some (some (redisMgr.load states)))
    (hcluster : redisMgr.cluterCli_ = mgr'.cluterCli_) (htype : redisMgr.svrType_ = .cluster)
    (hrun : redisMgr.initState_ = .runing) (cb : Bool) {outSecond : Int32} (priv : UInt64)
    {key cmdStr : Bytes} (hkey : key ≠ []) (hcmd : cmdStr ≠ []) (hout : outSecond ≠ 0) :
    List.Forall₂ (IsLine (split text [10])) (masterLines (split text [10])) info.clusterVectInfo_ ∧
    Routes info states (getKeySlotIndex key) cmdStr
      (self.redisAsyncCommand asyFd cb outSecond priv key cmdStr) := by
  have hi := analysisClusterNodes_installed h hinfo
  have hcli : redisMgr.cluterCli_ = some info := by rw [hcluster, hinfo]
  have hslot : getKeySlotIndex key ≤ REDIS_CLUSTER_MAX_SLOT := by
    rw [getKeySlotIndex_eq]
    exact UInt16.le_iff_toNat_le.mpr (keyHashSlot_le key)
  refine ⟨hi.nodes, ?_⟩
  rw [redisAsyncCommand_eq hfd hkey hcmd hout hmgr,
    redisAsyncCommand_cluster hcli htype hrun hslot hkey hcmd hout]
  refine hi.routes (fun hnone => ?_) fun c hc => ?_
  · rw [hnone]
    rfl
  · rw [hc]
    exact ⟨_, rfl, rfl, rfl, rfl⟩

/-- `a 1:1 master - 0 0 0 connected 7629` and `b 1:2 slave a 0 0 0 connected`; 7629 is the slot of
the key `k`. -/
def replicaText : Bytes :=
  [97, 32, 49, 58, 49, 32, 109, 97, 115, 116, 101, 114, 32, 45, 32, 48, 32, 48, 32, 48, 32, 99, 111,
    110, 110, 101, 99, 116, 101, 100, 32, 55, 54, 50, 57, 10, 98, 32, 49, 58, 50, 32, 115, 108, 97,
    118, 101, 32, 97, 32, 48, 32, 48, 32, 48, 32, 99, 111, 110, 110, 101, 99, 116, 101, 100]

/-- The master is not connected, so the command goes to its replica. -/
theorem redisAsyncCommand_routes_replica :
    ∃ (self : RedisAsync) (states : ConnStates) (c : RedisCli),
      QueuedOn states [71] (self.redisAsyncCommand 0 true 5 0 [107] [71]) c ∧
      c.svrInfo_ = ⟨[49], 2⟩ := by
  have hrun : (analysisClusterNodes newMgr 1 replicaText 0 0).map
      (fun r => (r.1, r.2.1.cluterCli_.map fun info =>
        (info.clusterSlotMap_ (getKeySlotIndex [107]), info.clusterVectInfo_))) =
      some (0, some (some ⟨0, ⟨[49], 1⟩, 0, .init⟩, [⟨[97], [⟨7629, 7629⟩],
        ⟨some ⟨0, ⟨[49], 1⟩, 0, .init⟩, [⟨1, ⟨[49], 2⟩, 0, .init⟩]⟩⟩])) := by
    decide +kernel
  obtain ⟨⟨ret, mgr', out⟩, hr, heq⟩ := Option.map_eq_some_iff.mp hrun
  simp only [Prod.mk.injEq] at heq
  obtain ⟨rfl, hinfo⟩ := heq
  obtain ⟨info, hinfo, hboth⟩ := Option.map_eq_some_iff.mp hinfo
  obtain ⟨hentry, hnodes⟩ := Prod.mk.inj hboth
  let redisMgr : RedisMgr := ⟨mgr', .cluster, .runing, [], none⟩
  let states : ConnStates := fun id => if id = 0 then .init else .conn
  let self : RedisAsync := ⟨[some (redisMgr.load states)], 0⟩
  have hmgr : self.vectRedisCliMgr[(0 : Int32).toNatClampNeg]? = some (some (redisMgr.load states)) :=
    rfl
  have hkey : ([107] : Bytes) ≠ [] := by decide
  have hcmd : ([71] : Bytes) ≠ [] := by decide
  have hout : (5 : Int32) ≠ 0 := by decide
  have hroutes := (redisAsyncCommand_routes hr hinfo states (by decide) hmgr rfl rfl rfl true 0 hkey
    hcmd hout).2
  obtain ⟨node, hown, -, -⟩ := hroutes.owner _ hentry
  have hmem := hown.mem
  rw [hnodes, List.mem_singleton] at hmem
  obtain ⟨c, hc, -, hon⟩ := hroutes.replica _ node hentry rfl hown
    ⟨⟨1, ⟨[49], 2⟩, 0, .init⟩, by rw [hmem]; exact List.mem_singleton_self _, rfl⟩
  rw [hmem] at hc
  exact ⟨_, states, c, hon, by rw [List.mem_singleton.mp hc]⟩

end

end RedisAsyn
end CmakeFrame
