import CmakeFrame.RedisAsyn.ClusterNodes

/-!
# Which replies `analysisClusterNodes` accepts

* `masterLine_accepts`, `nodesLoop_accepts`: a well-formed line is refused only if it is the line of
  a master without a slot token.
* `Survives`: the analysis returns 0 and every master that owns a slot is in the new `cluterCli_`;
  `survives_iff`: exactly if every master line has a slot token.
* `drained_master_refused`: one master without slots makes the analysis fail.
-/

namespace CmakeFrame
namespace RedisAsyn

open Lib

section

variable {mgr : RedisClientMgr} {ioThreadNum : Nat} {nodes : List NodeLine}

/-- A master line without slot tokens has only 8 fields. -/
theorem masterLine_refuses {m : NodeLine} (hslots : m.slots = []) (s : Analysis) :
    masterLine mgr ioThreadNum (nodes.map (·.text)) (m.id :: m.fields) s =
      some (ANALYSIS_STRING_FORMATE_ERROR, s) := by
  have hlen : (m.id :: m.fields).length < 9 := by
    rw [fields_length, hslots]
    decide
  rw [masterLine, if_pos hlen]

variable (mgr ioThreadNum) in
theorem masterLine_accepts (hw : ∀ n ∈ nodes, n.Wf) {m : NodeLine} (hm : m.Wf)
    (hslots : m.slots ≠ []) (s : Analysis) :
    ∃ s', masterLine mgr ioThreadNum (nodes.map (·.text)) (m.id :: m.fields) s = some (0, s') := by
  have hlen : ¬ (m.id :: m.fields).length < 9 := by
    have := List.length_pos_iff.mpr hslots
    rw [fields_length]
    omega
  have ha : analysisSvrInfo ((m.id :: m.fields).getD 1 []) = some m.addr.read :=
    m.addr.analysisSvrInfo_text
  rw [masterLine, if_neg hlen, ha]
  simp only
  generalize getOrNew mgr ioThreadNum m.addr.read s = r
  rw [slotsInfo_fields hm, insertSlots_read _ hm]
  generalize (if r.1.state_ = .conn then { r.2 with masterConn := r.2.masterConn + 1 }
    else r.2) = s₁
  obtain ⟨cs, s₂, heq, -, -⟩ := slaveLoop_spec mgr ioThreadNum hm.id hw [] s₁
  have hid : (m.id :: m.fields).getD 0 [] = m.id := rfl
  rw [hid, heq]
  exact ⟨_, rfl⟩

variable (mgr ioThreadNum) in
/-- The loop over the lines comes to its end exactly if every master line has a slot token. -/
theorem nodesLoop_accepts (hw : ∀ n ∈ nodes, n.Wf) {ns : List NodeLine} (hns : ∀ n ∈ ns, n.Wf)
    (s : Analysis) :
    (∃ s', nodesLoop mgr ioThreadNum (nodes.map (·.text)) (ns.map (·.text)) s = some (0, s')) ↔
      ∀ m ∈ masters ns, m.slots ≠ [] := by
  induction ns generalizing s with
  | nil => simp [nodesLoop, masters]
  | cons n ns ih =>
    have hn := hns n (by simp)
    have ih := ih fun n' hn' => hns n' (List.mem_cons_of_mem n hn')
    have hlen : ¬ (n.id :: n.fields).length < 8 := by
      rw [fields_length]
      omega
    have hflags : isMasterFlags ((n.id :: n.fields).getD 2 []) = n.isMaster := isMasterFlags_text hn
    rw [List.map_cons, nodesLoop, split_line hn]
    simp only [if_neg hlen, hflags]
    by_cases hmaster : n.isMaster = true
    · have hcons : masters (n :: ns) = n :: masters ns := by simp [masters, hmaster]
      rw [if_pos hmaster, hcons, List.forall_mem_cons]
      by_cases hslots : n.slots = []
      · -- the error of the line is the result of the loop
        rw [masterLine_refuses hslots]
        constructor
        · rintro ⟨s', h⟩
          cases h
        · intro h
          exact absurd hslots h.1
      · obtain ⟨s₁, hline⟩ := masterLine_accepts mgr ioThreadNum hw hn hslots s
        rw [hline]
        simp only [if_true, ih]
        exact ⟨fun h => ⟨hslots, h⟩, fun h => h.2⟩
    · have hcons : masters (n :: ns) = masters ns := by simp [masters, hmaster]
      rw [if_neg hmaster, hcons, ih]

/-- The plain ranges of the line contain a slot. -/
def NodeLine.ownsSlot (n : NodeLine) : Prop := ∃ s, n.covers s = true

/-- The analysis has returned 0, and the new `cluterCli_` has a node with the id, the slots and a
client of the address of every master that owns a slot. -/
def Survives (nodes : List NodeLine) (r : Option (Int × RedisClientMgr × Analysis)) : Prop :=
  ∃ mgr' out info, r = some (0, mgr', out) ∧ mgr'.cluterCli_ = some info ∧
    ∀ m ∈ masters nodes, m.ownsSlot → ∃ node ∈ info.clusterVectInfo_,
      node.nodeIds_ = m.id ∧ node.vectSlotInfo_ = m.slots.map (slotsInfo ·.text) ∧
      ∃ c, node.clusterNode_.master_ = some c ∧ analysisSvrInfo m.addr.text = some c.svrInfo_

variable (mgr ioThreadNum) in
/-- A reply of well-formed lines is accepted exactly if every master line has a slot token. -/
theorem analysisClusterNodes_accepts (hw : ∀ n ∈ nodes, n.Wf) (hne : nodes ≠ []) (ioIndex : UInt32)
    (created : Nat) :
    (∃ mgr' out, analysisClusterNodes mgr ioThreadNum (clusterText nodes) ioIndex created =
      some (0, mgr', out)) ↔ ∀ m ∈ masters nodes, m.slots ≠ [] := by
  have htext : clusterText nodes ≠ [] := by
    obtain ⟨n, ns, rfl⟩ := List.exists_cons_of_ne_nil hne
    simp [clusterText]
  rw [← nodesLoop_accepts mgr ioThreadNum hw hw
    ⟨ioIndex, created, [], 0, 0, none⟩]
  unfold analysisClusterNodes
  simp only [if_neg htext, split_clusterText hw]
  constructor
  · rintro ⟨mgr', out, h⟩
    split at h
    · cases h
    · rename_i ret s hloop
      split at h
      · rename_i hret
        subst hret
        exact ⟨s, hloop⟩
      · rename_i hret
        cases h
        exact absurd rfl hret
  · rintro ⟨s, hloop⟩
    rw [hloop]
    exact ⟨_, _, rfl⟩

/-- For every reply of well-formed lines in which some master owns a slot. -/
theorem survives_iff (hw : ∀ n ∈ nodes, n.Wf) (howner : ∃ m ∈ masters nodes, m.ownsSlot)
    (ioIndex : UInt32) (created : Nat) :
    Survives nodes (analysisClusterNodes mgr ioThreadNum (clusterText nodes) ioIndex created) ↔
      ∀ m ∈ masters nodes, m.slots ≠ [] := by
  obtain ⟨o, ho, -⟩ := howner
  have hne : nodes ≠ [] := List.ne_nil_of_mem (List.mem_of_mem_filter ho)
  rw [← analysisClusterNodes_accepts mgr ioThreadNum hw hne ioIndex created]
  constructor
  · rintro ⟨mgr', out, info, h, -⟩
    exact ⟨mgr', out, h⟩
  · rintro ⟨mgr', out, h⟩
    obtain ⟨hb, hi⟩ := analysisClusterNodes_built hw h
    have hvect := hb.vect
    -- there is a node, that of `o`, so there is a `cluterCli_`
    obtain ⟨node, hnode, -⟩ := exists_of_mem_left hvect ho
    cases hinfo : out.tmpClusterInfo with
    | none => simp [Analysis.info, hinfo] at hnode
    | some info =>
      have heq : out.info = info := by simp [Analysis.info, hinfo]
      refine ⟨mgr', out, info, h, hi.trans hinfo, fun m hm _ => ?_⟩
      rw [heq] at hvect
      obtain ⟨node, hnode, hfit⟩ := exists_of_mem_left hvect hm
      obtain ⟨c, hc, hcfit⟩ := hfit.master
      refine ⟨node, hnode, hfit.id, ?_, c, hc, ?_⟩
      · have hwm := hw m (List.mem_of_mem_filter hm)
        rw [hfit.slots]
        exact List.map_congr_left fun t ht => (SlotToken.slotsInfo_text (hwm.slots t ht)).symm
      · rw [hcfit.1]
        exact m.addr.analysisSvrInfo_text

end

/-! ## A drained master -/

/-- `c1 f:3@4 master - 0 0 3 connected`, a master without slots. -/
def drainedLine : NodeLine :=
  { id := [99, 49], addr := ⟨[102], 3, [64, 52]⟩, flags := [.master], masterId := none,
    ping := 0, pong := 0, epoch := 3, connected := true, slots := [] }

theorem drainedLine_wf : drainedLine.Wf where
  id := by simp [drainedLine, NodeLine.IdOk]
  addr := by simp [drainedLine, NodeAddr.Wf, EndsNumber, isDigit]
  flags := by simp [drainedLine]
  masterId := by simp [drainedLine]
  slots := by simp [drainedLine]

theorem migratingLine_ownsSlot : migratingLine.ownsSlot := ⟨0, by decide⟩

/-- Two masters with slots are accepted. -/
theorem survives_twoMasters : Survives [importingLine false, migratingLine]
    (analysisClusterNodes newMgr 1 (clusterText [importingLine false, migratingLine]) 0 0) :=
  (survives_iff (twoMasters_wellFormed false).lines ⟨migratingLine, by decide, migratingLine_ownsSlot⟩
    0 0).mpr (by decide)

/-- A second master without slots makes the analysis fail. -/
theorem drained_master_refused : ¬ ∀ (nodes : List NodeLine) (mgr : RedisClientMgr),
    (∀ n ∈ nodes, n.Wf) → (∃ m ∈ masters nodes, m.ownsSlot) →
      Survives nodes (analysisClusterNodes mgr 1 (clusterText nodes) 0 0) := by
  intro h
  have hw : ∀ n ∈ [migratingLine, drainedLine], n.Wf := by
    simp [migratingLine_wf, drainedLine_wf]
  obtain ⟨mgr', out, info, hr, -⟩ := h _ newMgr hw ⟨migratingLine, by decide, migratingLine_ownsSlot⟩
  have hret : (analysisClusterNodes newMgr 1
      (clusterText [migratingLine, drainedLine]) 0 0).map (·.1) = some (-1) := by decide +kernel
  rw [hr] at hret
  cases hret

end RedisAsyn
end CmakeFrame
