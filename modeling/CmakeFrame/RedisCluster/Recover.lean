import CmakeFrame.RedisCluster.Served

/-!
# Recovery of the manager from the failure of a node

* `leastNet`: a network of a cluster that is well, on which only the listed masters are reachable.
* `InUse.find_refused`, `InUse.find_stuck`: the calls that give no client there.
* `recovers_iff`: in every state of a manager in use, at most two calls give a client on every
  network of a cluster that is well exactly if the state is `Recoverable`; the settings never change.
* `init_never_recovers`: a manager that was set up by `init` has no brokers to ask.
-/

namespace CmakeFrame
namespace RedisCluster

open Lib
open RedisAsyn (NodeLine clusterText migratingLine)

/-! ## A network that does no more than it has to -/

instance (nodes : List NodeLine) (a : Addr) : Decidable (Reachable nodes a) :=
  inferInstanceAs (Decidable (∃ n ∈ listed nodes, n.addr.svrInfo = a))

/-- Only the listed masters are reachable. -/
def leastNet (nodes : List NodeLine) : Net where
  connect _ a := decide (Reachable nodes a)
  info := some (clusterEnabledText ++ [49])
  clusterInfo := some [58, 111, 107]
  clusterNodes := some (clusterText nodes)

theorem clusterEnabled_one : clusterEnabled (some (clusterEnabledText ++ [49])) = true := by decide

theorem leastNet_good (nodes : List NodeLine) : Good nodes (leastNet nodes) where
  reach n hn _ := decide_eq_true ⟨n, hn, rfl⟩
  enabled := clusterEnabled_one
  ok := rfl
  nodes := rfl

theorem leastNet_connect {nodes : List NodeLine} {c : Nat} {a : Addr} :
    (leastNet nodes).connect c a = true ↔ Reachable nodes a := decide_eq_true_iff

namespace RedisClusterNode

/-- Without an idle client, and not reachable, a node gives nothing. -/
theorem getRedisClient_least {nodes : List NodeLine} {node : RedisClusterNode}
    (hidle : node.idleList_ = []) (hreach : ¬ Reachable nodes node.info_.addr) (created : Nat) :
    (node.getRedisClient (leastNet nodes).connect created).1 = none ∧
      (node.bStatus_ = false ∨ node.useMap_ ≠ [] →
        (node.getRedisClient (leastNet nodes).connect created).2.1 = node) := by
  have hc : ¬ (leastNet nodes).connect created node.info_.addr = true := fun h =>
    hreach (leastNet_connect.mp h)
  unfold getRedisClient
  split
  · rename_i hcons
    rw [hidle] at hcons
    cases hcons
  · rw [if_neg hc]
    split
    · split
      · rename_i huse
        refine ⟨rfl, fun h => ?_⟩
        rw [← h.resolve_right (not_not_intro huse)]
      · exact ⟨rfl, fun _ => rfl⟩
    · exact ⟨rfl, fun _ => rfl⟩

theorem init_least {nodes : List NodeLine} {info : NodeInfo} {minSize maxSize timeout : Int32}
    {password : Bytes} {created : Nat}
    (h : (init (leastNet nodes).connect info minSize maxSize timeout password created).1 = true) :
    Reachable nodes info.addr := by
  by_contra hreach
  have hc : ¬ (leastNet nodes).connect created info.addr = true := fun hc =>
    hreach (leastNet_connect.mp hc)
  unfold init at h
  simp only at h
  by_cases hs : SizesOk minSize maxSize
  · obtain ⟨n, hn⟩ := Nat.exists_eq_succ_of_ne_zero (Nat.pos_iff_ne_zero.mp (minSize_pos minSize))
    rw [if_neg hs, hn, initLoop, if_neg hc] at h
    cases h
  · rw [if_pos (not_not.mp hs)] at h
    cases h

end RedisClusterNode

namespace RedisClusterMgr

variable {nodes : List NodeLine} {mgr mgr' : RedisClusterMgr} {ret : Int}

/-! ## The loop over the lines -/

/-- What is known stays known. -/
theorem connectLoop_known {connect : Connect} {ns : List NodeLine} (hw : ∀ n ∈ ns, n.Wf)
    (hv : mgr.Valid)
    (h : mgr.connectLoop connect (ns.map readNode) = some (ret, mgr')) {id : Bytes}
    (hk : mgr.known id = true) : mgr'.known id = true := by
  induction ns generalizing mgr with
  | nil =>
    cases h
    exact hk
  | cons n ns ih =>
    rw [List.map_cons, connectLoop] at h
    split at h
    · cases h
    · rename_i mgr₁ h1
      cases h
      rcases connectClusterNode_cases h1 with ⟨-, hb, -⟩ | ⟨-, -, ⟨created, rfl⟩, -⟩ | ⟨-, hb, -⟩
      · cases hb
      · exact hk
      · cases hb
    · rename_i mgr₁ h1
      refine ih (fun m hm => hw m (by simp [hm])) (connectClusterNode_valid hv h1) h ?_
      cases hn : mgr.known n.id with
      | true =>
        rw [connectClusterNode_known hn] at h1
        cases h1
        exact hk
      | false =>
        rw [(connectClusterNode_new (hw n (by simp)) hv hn h1).2.2 id, hk]
        simp

/-- The loop ends at a line that cannot be reached, or there is none. -/
theorem connectLoop_least {ns : List NodeLine} (hw : ∀ n ∈ ns, n.Wf)
    (hs : RedisClusterNode.SizesOk mgr.minSize_ mgr.maxSize_) (hids : (ns.map (·.id)).Nodup)
    (hv : mgr.Valid)
    (h : mgr.connectLoop (leastNet nodes).connect (ns.map readNode) = some (ret, mgr')) :
    (ret = 0 ∧ ∀ n ∈ mgr.newLines ns, Reachable nodes n.addr.read) ∨
      (ret ≠ 0 ∧ ∃ n ∈ mgr'.newLines ns, ¬ Reachable nodes n.addr.read) := by
  induction ns generalizing mgr with
  | nil =>
    cases h
    exact .inl ⟨rfl, by simp [newLines]⟩
  | cons n ns ih =>
    obtain ⟨hid, hids⟩ := List.nodup_cons.mp hids
    have hw' : ∀ m ∈ ns, m.Wf := fun m hm => hw m (List.mem_cons_of_mem n hm)
    have htail : (∃ m ∈ mgr'.newLines ns, ¬ Reachable nodes m.addr.read) →
        ∃ m ∈ mgr'.newLines (n :: ns), ¬ Reachable nodes m.addr.read := by
      rintro ⟨m, hm, hreach⟩
      obtain ⟨hm, hk⟩ := mem_newLines.mp hm
      exact ⟨m, mem_newLines.mpr ⟨List.mem_cons_of_mem n hm, hk⟩, hreach⟩
    rw [List.map_cons, connectLoop] at h
    cases hk : mgr.known n.id with
    | true =>
      rw [connectClusterNode_known hk] at h
      rw [newLines_cons_of_known hk]
      exact (ih hw' hs hids hv h).imp_right (And.imp_right htail)
    | false =>
      obtain ⟨b, mgr₁, h1⟩ := connectClusterNode_total (hw n (by simp)) (leastNet nodes).connect mgr
      rw [h1] at h
      rcases connectClusterNode_cases h1 with
        ⟨hk', -⟩ | ⟨-, rfl, ⟨created, rfl⟩, hinit⟩ | ⟨-, rfl, clusterNode, created, slotMap_, hinit, -⟩
      · exact absurd (hk.symm.trans hk') (by decide)
      · -- the line stays unknown
        cases h
        refine .inr ⟨by decide, n, mem_newLines.mpr ⟨by simp, hk⟩, fun hreach => ?_⟩
        rw [RedisClusterNode.init_of_connect hs fun c => leastNet_connect.mpr hreach] at hinit
        cases hinit
      · have hreach : Reachable nodes n.addr.read :=
          RedisClusterNode.init_least (congrArg Prod.fst hinit)
        have hkept := connectClusterNode_kept h1
        obtain ⟨-, -, hknown⟩ := connectClusterNode_new (hw n (by simp)) hv hk h1
        rcases ih hw' (by rw [hkept.minSize, hkept.maxSize]; exact hs) hids
          (connectClusterNode_valid hv h1) h with ⟨hret, hall⟩ | ⟨hret, hbad⟩
        · left
          rw [newLines_cons_of_new hk, List.forall_mem_cons]
          exact ⟨hret, hreach, newLines_congr hid hknown ▸ hall⟩
        · exact .inr ⟨hret, htail hbad⟩

/-- No line that takes the slot is reached: the slot stays. -/
theorem connectLoop_keeps {ns : List NodeLine} (hw : ∀ n ∈ ns, n.Wf) (hids : (ns.map (·.id)).Nodup)
    (hv : mgr.Valid) {s : UInt16}
    (hno : ∀ l n r, mgr.newLines ns = l ++ n :: r →
      (∀ m ∈ l ++ [n], Reachable nodes m.addr.read) → n.readCovers s = false)
    (h : mgr.connectLoop (leastNet nodes).connect (ns.map readNode) = some (ret, mgr')) :
    mgr'.slotNode s = mgr.slotNode s := by
  induction ns generalizing mgr with
  | nil =>
    cases h
    rfl
  | cons n ns ih =>
    obtain ⟨hid, hids⟩ := List.nodup_cons.mp hids
    have hw' : ∀ m ∈ ns, m.Wf := fun m hm => hw m (List.mem_cons_of_mem n hm)
    rw [List.map_cons, connectLoop] at h
    cases hk : mgr.known n.id with
    | true =>
      rw [connectClusterNode_known hk] at h
      exact ih hw' hids hv (newLines_cons_of_known hk ns ▸ hno) h
    | false =>
      obtain ⟨b, mgr₁, h1⟩ := connectClusterNode_total (hw n (by simp)) (leastNet nodes).connect mgr
      rw [h1] at h
      rcases connectClusterNode_cases h1 with
        ⟨hk', -⟩ | ⟨-, rfl, ⟨created, rfl⟩, -⟩ | ⟨-, rfl, clusterNode, created, slotMap_, hinit, -⟩
      · exact absurd (hk.symm.trans hk') (by decide)
      · cases h
        rfl
      · have hreach : Reachable nodes n.addr.read :=
          RedisClusterNode.init_least (congrArg Prod.fst hinit)
        obtain ⟨-, hkeeps, hknown⟩ := connectClusterNode_new (hw n (by simp)) hv hk h1
        rw [newLines_cons_of_new hk] at hno
        rw [ih hw' hids (connectClusterNode_valid hv h1) ?_ h]
        · refine hkeeps s (hno [] n _ rfl ?_)
          simpa using hreach
        · intro l m r hnew hl
          rw [newLines_congr hid hknown] at hnew
          refine hno (n :: l) m r (by rw [hnew]; rfl) fun x hx => ?_
          rcases List.mem_cons.mp hx with rfl | hx
          · exact hreach
          · exact hl x hx

/-! ## A reconnect that is refused -/

theorem brokersLoop_refused {brokers : List Bytes} (hb : ¬ BrokersOk nodes brokers)
    (uninit : Addr) (mgr : RedisClusterMgr) :
    ∃ created, mgr.brokersLoop (leastNet nodes) uninit brokers =
      some (-1, { mgr with created := created }) := by
  induction brokers generalizing mgr with
  | nil => exact ⟨mgr.created, rfl⟩
  | cons b brokers ih =>
    rw [brokersLoop]
    cases hf : findByte 58 b with
    | none => exact ⟨mgr.created, rfl⟩
    | some index =>
      have haddr : brokerAddr b = some ⟨b.take index, atoi (b.drop (index + 1))⟩ := by
        rw [brokerAddr, hf]
        rfl
      simp only
      rw [if_neg]
      · refine ih ?_ { mgr with created := mgr.created + 1 }
        rintro ⟨l, b', r, a, rfl, hl, hb', ha⟩
        refine hb ⟨b :: l, b', r, a, rfl, fun x hx => ?_, hb', ha⟩
        rcases List.mem_cons.mp hx with rfl | hx
        · simp [haddr]
        · exact hl x hx
      · intro hc
        refine hb ⟨[], b, brokers, _, rfl, fun x hx => ?_, haddr, leastNet_connect.mp hc⟩
        cases hx

/-- A listed master without a slot token. -/
theorem askNode_refused (hr : Reply nodes)
    (hs : ¬ ∀ n ∈ listed nodes, n.slots ≠ []) (uninit : Addr) (mgr : RedisClusterMgr) :
    ∃ mgr₁, mgr.askNode (leastNet nodes) uninit = some (-1, mgr₁) ∧ mgr.SameNodes mgr₁ := by
  have hg := leastNet_good nodes
  cases hinfo : mgr.getClusterNodesInfo uninit (some (clusterText nodes)) with
  | mk b mgr₁ =>
    cases b with
    | true => exact absurd (getClusterNodesInfo_true hr.lines hinfo).1 hs
    | false =>
      have hask : mgr.askNode (leastNet nodes) uninit = some (-1, mgr₁) := by
        simp only [askNode, hg.enabled, if_true, hg.ok, hg.nodes, hinfo]
      exact ⟨mgr₁, hask, getClusterNodesInfo_sameNodes hinfo⟩

theorem reconnect_refused (hr : Reply nodes) (ha : ¬ mgr.Asks nodes) (uninit : Addr)
    (node : RedisClusterNode) :
    ∃ mgr₁, mgr.reconnect (leastNet nodes) uninit node = some (-1, mgr₁) ∧
      (mgr.forget node.info_.id).SameNodes mgr₁ := by
  have hloop : ∀ mgr₀ : RedisClusterMgr, ∃ mgr₁,
      mgr₀.brokersLoop (leastNet nodes) uninit (split mgr.brokers_ [44]) = some (-1, mgr₁) ∧
        mgr₀.SameNodes mgr₁ := by
    intro mgr₀
    by_cases hb : BrokersOk nodes (split mgr.brokers_ [44])
    · obtain ⟨created, hc⟩ := brokersLoop_good (leastNet_good nodes) hb uninit mgr₀
      obtain ⟨mgr₁, hask, hsame⟩ := askNode_refused hr (fun hs => ha ⟨hb, hs⟩) uninit
        { mgr₀ with created := created }
      exact ⟨mgr₁, hc.trans hask, hsame.status, hsame.slotMap, hsame.heap⟩
    · obtain ⟨created, hc⟩ := brokersLoop_refused hb uninit mgr₀
      exact ⟨_, hc, rfl, rfl, rfl⟩
  obtain ⟨mgr₁, hc, hsame⟩ := hloop { mgr with
    bStatus_ := false, nodesStatus_ := Function.update mgr.nodesStatus_ node.info_.id none
    fullCoverage_ := 0 }
  refine ⟨mgr₁, ?_, hsame.status, hsame.slotMap, hsame.heap⟩
  simp only [reconnect, init2, hc, Option.map_some]
  rfl

/-- All lines connect, and none of them takes the slot. -/
theorem AllConnect.readCovers (hall : mgr.AllConnect nodes) {s : UInt16} (ht : ¬ mgr.Takeable nodes s)
    {n : NodeLine} (hn : n ∈ mgr.newLines (listed nodes)) : n.readCovers s = false := by
  obtain ⟨l, r, hnew⟩ := List.append_of_mem hn
  by_contra hs
  refine ht ⟨l, n, r, hnew, by simpa using hs, fun m hm => hall m ?_⟩
  rw [hnew]
  simp only [List.mem_append, List.mem_cons, List.not_mem_nil, or_false] at hm ⊢
  exact hm.imp_right .inl

/-- A reconnect that gets to the nodes: it goes through if all lines connect, and otherwise one of
those that do not is not known after it either. -/
theorem reconnect_least (hr : Reply nodes) (hv : mgr.Valid)
    (hsz : RedisClusterNode.SizesOk mgr.minSize_ mgr.maxSize_) (ha : mgr.Asks nodes) (uninit : Addr)
    (node : RedisClusterNode) :
    ∃ ret mgr₁, mgr.reconnect (leastNet nodes) uninit node = some (ret, mgr₁) ∧
      (ret = 0 ∧ (mgr.forget node.info_.id).AllConnect nodes ∨ ret ≠ 0 ∧ ¬ mgr₁.AllConnect nodes) ∧
      (∀ s, ¬ (mgr.forget node.info_.id).Takeable nodes s → mgr₁.slotNode s = mgr.slotNode s) ∧
      ∀ id, (mgr.forget node.info_.id).known id = true → mgr₁.known id = true := by
  obtain ⟨mgr₁, ret, mgr₂, mgr₃, hsame, hmin, hmax, hloop, hsame', hrec⟩ :=
    reconnect_good hr (leastNet_good nodes) ha uninit node
  have hw : ∀ n ∈ listed nodes, n.Wf := fun n hn => hr.wf_of_listed hn
  have hv₁ := hsame.valid (hv.forget node.info_.id)
  refine ⟨ret, mgr₃, hrec, ?_, fun s ht => ?_, fun id hk => ?_⟩
  · rw [AllConnect, AllConnect, hsame'.newLines, ← hsame.newLines]
    refine (connectLoop_least hw (by rw [hmin, hmax]; exact hsz) hr.listed_ids hv₁ hloop).imp_right ?_
    rintro ⟨hret, n, hn, hreach⟩
    exact ⟨hret, fun hall => hreach (hall n hn)⟩
  · rw [hsame'.slotNode, connectLoop_keeps hw hr.listed_ids hv₁ (fun l n r hnew hl => ?_) hloop,
      hsame.slotNode]
    · rfl
    · by_contra hcov
      exact ht ⟨l, n, r, hsame.newLines ▸ hnew, by simpa using hcov, hl⟩
  · rw [known, hsame'.status]
    refine connectLoop_known hw hv₁ hloop ?_
    rw [known, hsame.status]
    exact hk

/-- Where a reconnect for the node gives no client: it does not go through, or it does not take the
slot from the node, which has none to give. -/
def Refused (mgr : RedisClusterMgr) (nodes : List NodeLine) (s : UInt16)
    (node : RedisClusterNode) : Prop :=
  mgr.Asks nodes → (mgr.forget node.info_.id).AllConnect nodes →
    node.idleList_ = [] ∧ ¬ Reachable nodes node.info_.addr ∧
      ¬ (mgr.forget node.info_.id).Takeable nodes s

theorem known_forget {id id' : Bytes} :
    (mgr.forget id).known id' = true ↔ id' ≠ id ∧ mgr.known id' = true := by
  simp only [known, forget, Function.update_apply, decide_eq_true_eq]
  split
  · simp_all
  · simp_all

/-- More lines are new when a node is forgotten. -/
theorem mem_newLines_forget {ns : List NodeLine} {n : NodeLine} (h : n ∈ mgr.newLines ns) (id : Bytes) :
    n ∈ (mgr.forget id).newLines ns := by
  obtain ⟨hn, hk⟩ := mem_newLines.mp h
  refine mem_newLines.mpr ⟨hn, ?_⟩
  rw [← Bool.not_eq_true, known_forget, hk]
  simp

end RedisClusterMgr

section Stuck

open RedisClusterMgr

variable {minSize maxSize timeout : Int32} {password : Bytes} {mgr : RedisClusterMgr}
  (hi : InUse minSize maxSize timeout password mgr) {key : Bytes} {node : RedisClusterNode}
  (hs : mgr.slotNode (getKeySlotIndex key) = some node) {nodes : List NodeLine} (hr : Reply nodes)
  (hb : node.bStatus_ = false) (hno : mgr.Refused nodes (getKeySlotIndex key) node) (uninit : Addr)

include hi hs hr hb hno

/-- A call that gives no client. -/
theorem InUse.find_refused :
    ∃ mgr', mgr.findNodeConnection (leastNet nodes) uninit key = some (none, mgr') := by
  by_cases ha : mgr.Asks nodes
  · obtain ⟨ret, mgr₁, hrec, hret, hkept, -⟩ :=
      reconnect_least hr hi.valid (hi.sizesOk hs) ha uninit node
    rcases hret with ⟨rfl, hall⟩ | ⟨hret, -⟩
    · obtain ⟨hidle, hreach, ht⟩ := hno ha hall
      obtain ⟨k, -, -, hf⟩ := find_down hi.fullCoverage hs (leastNet nodes) uninit hb hrec
        ((hkept _ ht).trans hs)
      rw [(RedisClusterNode.getRedisClient_least hidle hreach mgr₁.created).1] at hf
      exact ⟨_, hf⟩
    · exact ⟨mgr₁, find_fail hi.fullCoverage hs (leastNet nodes) uninit hb hrec hret⟩
  · obtain ⟨mgr₁, hrec, -⟩ := reconnect_refused hr ha uninit node
    exact ⟨mgr₁, find_fail hi.fullCoverage hs (leastNet nodes) uninit hb hrec (by decide)⟩

/-- And the node is refused again, if no line that takes the slot could be reached. -/
theorem InUse.find_stuck
    (ht : mgr.Asks nodes → ¬ (mgr.forget node.info_.id).Takeable nodes (getKeySlotIndex key)) :
    ∃ mgr', mgr.findNodeConnection (leastNet nodes) uninit key = some (none, mgr') ∧
      mgr'.slotNode (getKeySlotIndex key) = some node ∧
      mgr'.Refused nodes (getKeySlotIndex key) node := by
  by_cases ha : mgr.Asks nodes
  · obtain ⟨ret, mgr₁, hrec, hret, hkept, hknown⟩ :=
      reconnect_least hr hi.valid (hi.sizesOk hs) ha uninit node
    have hslot := (hkept _ (ht ha)).trans hs
    rcases hret with ⟨rfl, hall⟩ | ⟨hret, hbad⟩
    · obtain ⟨hidle, hreach, -⟩ := hno ha hall
      obtain ⟨hnone, hsame⟩ := RedisClusterNode.getRedisClient_least hidle hreach mgr₁.created
      obtain ⟨k, hk, hnode, hf⟩ := find_down hi.fullCoverage hs (leastNet nodes) uninit hb hrec hslot
      rw [hnone, hsame (.inl hb)] at hf
      refine ⟨_, hf, slotNode_set hk hnode node _, fun _ _ => ⟨hidle, hreach, ?_⟩⟩
      rintro ⟨l, n, r, hnew, hcov, -⟩
      -- what was known before the call is known after it, so the line was new before
      have hn : n ∈ (mgr.forget node.info_.id).newLines (listed nodes) := by
        have hmem : n ∈ l ++ n :: r := by simp
        rw [← hnew] at hmem
        obtain ⟨hn, hk⟩ := mem_newLines.mp hmem
        refine mem_newLines.mpr ⟨hn, ?_⟩
        rw [← Bool.not_eq_true] at hk ⊢
        exact fun hk' => hk (known_forget.mpr ⟨(known_forget.mp hk').1, hknown n.id hk'⟩)
      rw [hall.readCovers (ht ha) hn] at hcov
      cases hcov
    · refine ⟨mgr₁, find_fail hi.fullCoverage hs (leastNet nodes) uninit hb hrec hret, hslot,
        fun _ hall => absurd (fun n hn => ?_) hbad⟩
      exact hall n (mem_newLines_forget hn node.info_.id)
  · obtain ⟨mgr₁, hrec, hsame⟩ := reconnect_refused hr ha uninit node
    refine ⟨mgr₁, find_fail hi.fullCoverage hs (leastNet nodes) uninit hb hrec (by decide), ?_,
      fun ha' => ?_⟩
    · rw [hsame.slotNode]
      exact hs
    · refine absurd ⟨?_, ha'.slots⟩ ha
      rw [← (reconnect_kept hi.fullCoverage hrec).brokers]
      exact ha'.brokers

end Stuck

/-! ## Recovery -/

/-- The slot has no node. -/
theorem InUse.find_none {minSize maxSize timeout : Int32} {password : Bytes} {mgr : RedisClusterMgr}
    (hi : InUse minSize maxSize timeout password mgr) {key : Bytes}
    (hs : mgr.slotNode (RedisClusterMgr.getKeySlotIndex key) = none) (net : Net) (uninit : Addr) :
    mgr.findNodeConnection net uninit key = some (none, mgr) := by
  have hslot : mgr.slotMap_ (RedisClusterMgr.getKeySlotIndex key) = none := by
    cases hk : mgr.slotMap_ (RedisClusterMgr.getKeySlotIndex key) with
    | none => rfl
    | some k =>
      have hlt := hi.valid.slots _ k hk
      simp [RedisClusterMgr.slotNode, hk] at hs
      omega
  simp only [RedisClusterMgr.findNodeConnection, hi.fullCoverage, ne_eq, not_true, and_false, if_false,
    RedisClusterMgr.getConnection, hslot]

theorem RedisClusterMgr.not_served {mgr mgr₁ : RedisClusterMgr} {key : Bytes} {net₁ net₂ : Net}
    {uninit : Addr} (h₁ : mgr.findNodeConnection net₁ uninit key = some (none, mgr₁))
    (h₂ : ∃ mgr₂, mgr₁.findNodeConnection net₂ uninit key = some (none, mgr₂)) :
    ¬ mgr.Served key net₁ net₂ uninit := by
  rintro ⟨client, mgr₁', h₁', hc | ⟨client', mgr₂', h₂', hc⟩⟩
  · rw [h₁] at h₁'
    cases h₁'
    exact hc rfl
  · rw [h₁] at h₁'
    cases h₁'
    obtain ⟨mgr₂, h₂⟩ := h₂
    rw [h₂] at h₂'
    cases h₂'
    exact hc rfl

section Gone

open RedisClusterMgr

variable {minSize maxSize timeout : Int32} {password : Bytes} {mgr : RedisClusterMgr}
  (hi : InUse minSize maxSize timeout password mgr) {key : Bytes} {node : RedisClusterNode}
  (hs : mgr.slotNode (getKeySlotIndex key) = some node) {nodes : List NodeLine}
  (hb : node.bStatus_ = true) (hidle : node.idleList_ = []) (hreach : ¬ Reachable nodes node.info_.addr)
  (uninit : Addr)

include hi hs hb hidle hreach

/-- A node that is up and gone, with clients in use: it stays up. -/
theorem InUse.busy_not_served (huse : node.useMap_ ≠ []) :
    ¬ mgr.Served key (leastNet nodes) (leastNet nodes) uninit := by
  obtain ⟨hnone, hsame⟩ := RedisClusterNode.getRedisClient_least hidle hreach mgr.created
  obtain ⟨k, hk, hnode, hf⟩ := find_up hi.fullCoverage hs (leastNet nodes) uninit hb
  have hi₁ := hi.find hf
  rw [hnone, hsame (.inr huse)] at hf
  rw [hsame (.inr huse)] at hi₁
  have hs₁ := slotNode_set hk hnode node (node.getRedisClient (leastNet nodes).connect mgr.created).2.2
  obtain ⟨k', -, -, hf₂⟩ := find_up hi₁.fullCoverage hs₁ (leastNet nodes) uninit hb
  rw [(RedisClusterNode.getRedisClient_least hidle hreach _).1] at hf₂
  exact not_served hf ⟨_, hf₂⟩

/-- One without a client in use: the first call brings it down, and the second one reconnects. -/
theorem InUse.lost_not_served (hr : Reply nodes) (huse : node.useMap_ = []) (hex : ¬ node.Exhausted)
    (hno : mgr.Asks nodes → (mgr.forget node.info_.id).AllConnect nodes →
      ¬ (mgr.forget node.info_.id).Takeable nodes (getKeySlotIndex key)) :
    ¬ mgr.Served key (leastNet nodes) (leastNet nodes) uninit := by
  have hmax : (0 : Int) < node.maxSize_.toInt := by
    by_contra hmax
    exact hex ⟨hidle, by simpa [huse] using hmax⟩
  obtain ⟨hnone, -⟩ := RedisClusterNode.getRedisClient_least hidle hreach mgr.created
  obtain ⟨k, hk, hnode, hf⟩ := find_up hi.fullCoverage hs (leastNet nodes) uninit hb
  have hi₁ := hi.find hf
  rw [hnone, RedisClusterNode.getRedisClient_lost hidle huse hmax hnone] at hf
  rw [RedisClusterNode.getRedisClient_lost hidle huse hmax hnone] at hi₁
  have hs₁ := slotNode_set hk hnode { node with bStatus_ := false }
    (node.getRedisClient (leastNet nodes).connect mgr.created).2.2
  refine not_served hf (hi₁.find_refused hs₁ hr rfl (fun ha hall => ⟨hidle, hreach, ?_⟩) uninit)
  exact hno ⟨ha.brokers, ha.slots⟩ hall

end Gone

/-- On the network that does no more than it has to, a client is to be had only if the manager can
recover. -/
theorem InUse.recoverable {minSize maxSize timeout : Int32} {password : Bytes} {mgr : RedisClusterMgr}
    (hi : InUse minSize maxSize timeout password mgr) {key : Bytes} {nodes : List NodeLine}
    (hr : Reply nodes)
    (hex : ∀ node, mgr.slotNode (RedisClusterMgr.getKeySlotIndex key) = some node → ¬ node.Exhausted)
    {uninit : Addr} (h : mgr.Served key (leastNet nodes) (leastNet nodes) uninit) :
    mgr.Recoverable nodes (RedisClusterMgr.getKeySlotIndex key) := by
  by_contra hnot
  cases hs : mgr.slotNode (RedisClusterMgr.getKeySlotIndex key) with
  | none =>
    exact RedisClusterMgr.not_served (hi.find_none hs _ uninit) ⟨mgr, hi.find_none hs _ uninit⟩ h
  | some node =>
    cases hb : node.bStatus_ with
    | false =>
      have ht : mgr.Asks nodes → ¬ (mgr.forget node.info_.id).Takeable nodes _ :=
        fun ha ht => hnot (.down hs hb ha (.inl ht))
      have hno : mgr.Refused nodes (RedisClusterMgr.getKeySlotIndex key) node := by
        intro ha hall
        refine ⟨?_, fun hreach => hnot (.down hs hb ha (.inr ⟨hall, .inr hreach⟩)), ht ha⟩
        by_contra hidle
        exact hnot (.down hs hb ha (.inr ⟨hall, .inl hidle⟩))
      obtain ⟨mgr₁, hf₁, hs₁, hno₁⟩ := hi.find_stuck hs hr hb hno uninit ht
      exact RedisClusterMgr.not_served hf₁ ((hi.find hf₁).find_refused hs₁ hr hb hno₁ uninit) h
    | true =>
      have hidle : node.idleList_ = [] := by
        by_contra hidle
        exact hnot (.up hs hb (.inl hidle))
      have hreach : ¬ Reachable nodes node.info_.addr := fun hreach => hnot (.up hs hb (.inr hreach))
      by_cases huse : node.useMap_ = []
      · exact hi.lost_not_served hs hb hidle hreach uninit hr huse (hex node hs)
          (fun ha hall ht => hnot (.lost hs hb huse ha hall ht)) h
      · exact hi.busy_not_served hs hb hidle hreach uninit huse h

/-- In every state of a manager in use: the settings are those that the user gave; and for a key
whose pool is not exhausted, one of at most two calls gives a client on every network of a cluster
that is well, exactly if the state is one to recover from. -/
theorem recovers_iff {minSize maxSize timeout : Int32} {password : Bytes}
    {mgr₀ mgr : RedisClusterMgr} (h0 : Started minSize maxSize timeout password mgr₀)
    (h : (useSystem mgr₀).Reach mgr) :
    mgr.settings = ⟨minSize, maxSize, timeout, password, 0⟩ ∧
      ∀ nodes key, Reply nodes →
        (∀ node, mgr.slotNode (RedisClusterMgr.getKeySlotIndex key) = some node → ¬ node.Exhausted) →
        ((∀ net₁ net₂ uninit, Good nodes net₁ → Good nodes net₂ → mgr.Served key net₁ net₂ uninit) ↔
          mgr.Recoverable nodes (RedisClusterMgr.getKeySlotIndex key)) := by
  have hi := useSystem_inUse h0 h
  refine ⟨hi.settings, fun nodes key hr hex =>
    ⟨fun hserved => ?_, fun hrec net₁ net₂ uninit hg₁ hg₂ => ?_⟩⟩
  · exact hi.recoverable hr hex (hserved _ _ ⟨[], 0⟩ (leastNet_good nodes) (leastNet_good nodes))
  · exact hi.served hr hg₁ hg₂ hex hrec uninit

/-! ## A master that is lost and comes back -/

/-- `b1 g:2@3 master - 0 0 2 connected 0-16383` -/
def wholeLine : NodeLine := { migratingLine with slots := [.range 0 16383] }

theorem wholeLine_reply : Reply [wholeLine] where
  lines n hn := by
    rw [List.mem_singleton.mp hn]
    exact { RedisAsyn.migratingLine_wf with slots := by simp [wholeLine, RedisAsyn.SlotToken.Wf] }
  disjoint := List.pairwise_singleton _ _
  ids := by decide

theorem wholeLine_covers {s : UInt16} (hs : s.toNat ≤ 16383) : wholeLine.covers s = true := by
  simpa [NodeLine.covers, wholeLine, RedisAsyn.SlotToken.covers] using hs

/-- A client of the empty key, whose slot is 0, is taken and comes back broken. -/
def lossRun (client : Nat) : List Act :=
  [.findNodeConnection (goodNet []) ⟨[], 0⟩ [], .recycle 0 client false]

/-- The node that the manager is left with. -/
def lostNode : RedisClusterNode where
  bStatus_ := false
  info_ := readNode migratingLine
  minSize_ := 1
  maxSize_ := 8
  timeout_ := 0
  password_ := []
  useMap_ := []
  idleList_ := []

theorem lostNode_not_exhausted : ¬ lostNode.Exhausted := fun h => h.2 (by decide)

/-- With brokers that can be reached, the manager recovers. -/
theorem recovers_brokers :
    ∃ mgr₀ mgr, Started 1 8 0 [] mgr₀ ∧ (useSystem mgr₀).Reach mgr ∧
    mgr.slotNode 0 = some lostNode ∧ ∀ net₁ net₂ uninit, Good [wholeLine] net₁ → Good [wholeLine] net₂ →
      mgr.Served [] net₁ net₂ uninit := by
  have hrun : ((RedisClusterMgr.new 0).init2 (goodNet [migratingLine]) ⟨[], 0⟩ [103, 58, 50] 1 8 0 []
      0).bind (fun r => ((useSystem r.2).run r.2 (lossRun 1)).map fun mgr =>
        (r.1, mgr.slotNode 0, mgr.brokers_)) = some (0, some lostNode, [103, 58, 50]) := by
    decide +kernel
  obtain ⟨⟨ret, mgr₀⟩, hinit, hrun⟩ := Option.bind_eq_some_iff.mp hrun
  obtain ⟨mgr, hrun, he⟩ := Option.map_eq_some_iff.mp hrun
  simp only [Prod.mk.injEq] at he
  obtain ⟨rfl, hslot, hbrokers⟩ := he
  have h0 : Started 1 8 0 [] mgr₀ := .init2 hinit
  have hreach : (useSystem mgr₀).Reach mgr := Sys.Reach.init.run (lossRun 1) hrun
  have hkey : RedisClusterMgr.getKeySlotIndex [] = 0 := by decide
  have hnew : (mgr.forget lostNode.info_.id).newLines (listed [wholeLine]) = [] ++ wholeLine :: [] := by
    have hk : (mgr.forget lostNode.info_.id).known wholeLine.id = false := by
      rw [← Bool.not_eq_true, RedisClusterMgr.known_forget]
      exact fun h => h.1 rfl
    have hl : listed [wholeLine] = [wholeLine] := by decide
    rw [hl, RedisClusterMgr.newLines_cons_of_new hk]
    rfl
  refine ⟨mgr₀, mgr, h0, hreach, hslot, ?_⟩
  refine ((recovers_iff h0 hreach).2 [wholeLine] [] wholeLine_reply (fun node hnode => ?_)).mpr ?_
  · rw [hkey, hslot] at hnode
    cases hnode
    exact lostNode_not_exhausted
  · rw [hkey]
    refine .down hslot rfl ⟨?_, by decide⟩ (.inl ⟨[], wholeLine, [], hnew, by decide, by decide⟩)
    rw [hbrokers]
    exact ⟨[], [103, 58, 50], [], ⟨[103], 2⟩, by decide, by decide, by decide, by decide⟩

/-- After `init` there are no brokers, and a master that was lost is lost for ever. -/
theorem init_never_recovers :
    ¬ ∀ minSize maxSize timeout password mgr₀ mgr,
    Started minSize maxSize timeout password mgr₀ → (useSystem mgr₀).Reach mgr →
      ∀ nodes key, Reply nodes →
        (∀ s : UInt16, s.toNat ≤ 16383 → ∃ n ∈ listed nodes, n.covers s = true) →
        (∀ node, mgr.slotNode (RedisClusterMgr.getKeySlotIndex key) = some node → ¬ node.Exhausted) →
        ∀ net₁ net₂ uninit, Good nodes net₁ → Good nodes net₂ → mgr.Served key net₁ net₂ uninit := by
  intro h
  have hrun : ((RedisClusterMgr.new 0).init (goodNet [migratingLine]) ⟨[], 0⟩ [103] 2 1 8 0 [] 0).bind
      (fun r => ((useSystem r.2).run r.2 (lossRun 1)).bind fun mgr =>
        (mgr.findNodeConnection (leastNet [wholeLine]) ⟨[], 0⟩ []).bind fun r₁ =>
          (r₁.2.findNodeConnection (leastNet [wholeLine]) ⟨[], 0⟩ []).map fun r₂ =>
            (r.1, mgr.slotNode 0, r₁.1, r₂.1)) = some (0, some lostNode, none, none) := by
    decide +kernel
  obtain ⟨⟨ret, mgr₀⟩, hinit, hrun⟩ := Option.bind_eq_some_iff.mp hrun
  obtain ⟨mgr, hrun, hcalls⟩ := Option.bind_eq_some_iff.mp hrun
  obtain ⟨⟨client₁, mgr₁⟩, hf₁, hcalls⟩ := Option.bind_eq_some_iff.mp hcalls
  obtain ⟨⟨client₂, mgr₂⟩, hf₂, he⟩ := Option.map_eq_some_iff.mp hcalls
  simp only [Prod.mk.injEq] at he
  obtain ⟨rfl, hslot, rfl, rfl⟩ := he
  have hkey : RedisClusterMgr.getKeySlotIndex [] = 0 := by decide
  obtain ⟨client, mgr₁', hf₁', hc | ⟨client', mgr₂', hf₂', hc⟩⟩ := h 1 8 0 [] mgr₀ mgr (.init hinit)
    (Sys.Reach.init.run (lossRun 1) hrun) [wholeLine] [] wholeLine_reply
    (fun s hs => ⟨wholeLine, by decide, wholeLine_covers hs⟩)
    (fun node hnode => by rw [hkey, hslot] at hnode; cases hnode; exact lostNode_not_exhausted)
    (leastNet [wholeLine]) (leastNet [wholeLine]) ⟨[], 0⟩ (leastNet_good _) (leastNet_good _)
  · rw [hf₁] at hf₁'
    cases hf₁'
    exact hc rfl
  · rw [hf₁] at hf₁'
    cases hf₁'
    rw [hf₂] at hf₂'
    cases hf₂'
    exact hc rfl

end RedisCluster
end CmakeFrame
