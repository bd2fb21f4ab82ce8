import CmakeFrame.RedisAsyn.ClusterNodes
import CmakeFrame.RedisCluster.RedisClusterMgr

/-!
# What `getClusterNodesInfo` reads of a reply

* `live`: a master line that does not say that it has failed; `listed`: the lines that pass the
  filter of `getClusterNodesInfo`, which looks for `master,fail` in the flags.
* `Reply`: what a server may reply.
* `nodesLoop_eq`, `nodesLoop_true`: `nodes_` are the listed lines, if each has a slot token.
* `assignSlots_eq`: the entries of `slotMap_` that a line takes.
-/

namespace CmakeFrame
namespace RedisCluster

open Lib
open RedisAsyn (NodeFlag NodeLine SlotToken WellFormed clusterText flagsText masters)

/-! ## Live masters -/

/-- A master that is not said to have failed. -/
def live (n : NodeLine) : Bool :=
  n.isMaster && !n.flags.contains .fail && !n.flags.contains .maybeFail

/-- The lines that `getClusterNodesInfo` takes. -/
def listed (nodes : List NodeLine) : List NodeLine := nodes.filter fun n => isLive (flagsText n.flags)

/-- A server replies with well-formed lines; no slot has two masters, and no two nodes have one id. -/
structure Reply (nodes : List NodeLine) : Prop extends WellFormed nodes where
  ids : (nodes.map (·.id)).Nodup

theorem comma_notMem (f : NodeFlag) : (44 : UInt8) ∉ f.text := by
  cases f <;> decide

theorem fail_isPrefix {f : NodeFlag} {t : Bytes} (h : NodeFlag.fail.text <+: f.text ++ t) :
    f = .fail ∨ f = .maybeFail := by
  have hlen : NodeFlag.fail.text.length ≤ f.text.length := by cases f <;> decide
  have hp := List.prefix_of_prefix_length_le h (List.prefix_append f.text t) hlen
  revert hp
  cases f <;> decide

/-- Behind a comma there is another flag. -/
theorem fail_infix_flagsText {f : NodeFlag} {fs : List NodeFlag}
    (h : 44 :: NodeFlag.fail.text <:+: flagsText (f :: fs)) :
    ∃ g ∈ fs, g = .fail ∨ g = .maybeFail := by
  induction fs generalizing f with
  | nil =>
    have hmem : (44 : UInt8) ∈ flagsText [f] := h.subset List.mem_cons_self
    exact absurd (by simpa [flagsText] using hmem) (comma_notMem f)
  | cons g fs ih =>
    obtain ⟨l, r, h⟩ := h
    have htext : flagsText (f :: g :: fs) = f.text ++ 44 :: flagsText (g :: fs) := by simp [flagsText]
    have hhere : NodeFlag.fail.text ++ r = flagsText (g :: fs) →
        ∃ g' ∈ g :: fs, g' = .fail ∨ g' = .maybeFail :=
      fun he => ⟨g, List.mem_cons_self, fail_isPrefix ⟨r, he⟩⟩
    rw [htext, List.append_assoc] at h
    rcases List.append_eq_append_iff.mp h with ⟨x, hf, hx⟩ | ⟨x, -, hx⟩
    · cases x with
      | nil => exact hhere (List.cons.inj hx).2
      | cons c x =>
        -- the comma would be within the first flag
        obtain ⟨rfl, -⟩ := List.cons.inj hx
        exact absurd (by simp [hf]) (comma_notMem f)
    · cases x with
      | nil => exact hhere (List.cons.inj hx).2.symm
      | cons c x =>
        obtain ⟨g', hg, hfail⟩ := ih ⟨x, r, by simpa using (List.cons.inj hx).2.symm⟩
        exact ⟨g', List.mem_cons_of_mem g hg, hfail⟩

theorem hasText_flagsText {fs : List NodeFlag} {t : Bytes} :
    hasText (flagsText fs) t = true ↔ t <:+: flagsText fs := by
  rw [hasText, RedisAsyn.cstr_solid (RedisAsyn.solid_flagsText fs), findSub_isSome]

theorem isMaster_of_isLive {n : NodeLine} (h : n.Wf) (hl : isLive (flagsText n.flags) = true) :
    n.isMaster = true := by
  simp only [isLive, decide_eq_true_eq] at hl
  rw [← RedisAsyn.isMasterFlags_text h]
  exact hl.1

/-- The filter takes every live master. -/
theorem isLive_of_live {n : NodeLine} (h : n.Wf) (hl : live n = true) :
    isLive (flagsText n.flags) = true := by
  simp only [live, Bool.and_eq_true, Bool.not_eq_true', List.contains_eq_mem,
    decide_eq_false_iff_not] at hl
  obtain ⟨⟨hm, hfail⟩, hmaybe⟩ := hl
  have hno : ¬ 44 :: NodeFlag.fail.text <:+: flagsText n.flags := by
    intro hin
    obtain ⟨f, fs, hf⟩ := List.exists_cons_of_ne_nil h.flags
    rw [hf] at hin
    obtain ⟨g, hg, rfl | rfl⟩ := fail_infix_flagsText hin
    · exact hfail (hf ▸ List.mem_cons_of_mem f hg)
    · exact hmaybe (hf ▸ List.mem_cons_of_mem f hg)
  have hmf : 44 :: NodeFlag.fail.text <:+: masterFailText := by decide
  simp only [isLive, decide_eq_true_eq]
  refine ⟨?_, fun hin => hno ?_, fun hin => hno ?_⟩
  · rw [← RedisAsyn.isMasterFlags_text h] at hm
    exact hm
  · exact hmf.trans (hasText_flagsText.mp hin)
  · exact (hmf.trans (List.suffix_append _ masterFailText).isInfix).trans (hasText_flagsText.mp hin)

theorem mem_listed {nodes : List NodeLine} {n : NodeLine} :
    n ∈ listed nodes ↔ n ∈ nodes ∧ isLive (flagsText n.flags) = true := List.mem_filter

section Nodes

variable {nodes : List NodeLine} (hr : Reply nodes)
include hr

theorem Reply.listed_of_live {n : NodeLine} (hn : n ∈ nodes) (hl : live n = true) : n ∈ listed nodes :=
  mem_listed.mpr ⟨hn, isLive_of_live (hr.lines n hn) hl⟩

theorem Reply.wf_of_listed {n : NodeLine} (hn : n ∈ listed nodes) : n.Wf :=
  hr.lines n (mem_listed.mp hn).1

/-- A slot is in the plain ranges of no more than one listed line. -/
theorem Reply.eq_of_covers {n n' : NodeLine} (hn : n ∈ listed nodes) (hn' : n' ∈ listed nodes)
    {s : UInt16} (hs : n.covers s = true) (hs' : n'.covers s = true) : n = n' := by
  have hmaster : ∀ m ∈ listed nodes, m ∈ masters nodes := fun m hm =>
    List.mem_filter.mpr
      ⟨(mem_listed.mp hm).1, isMaster_of_isLive (hr.wf_of_listed hm) (mem_listed.mp hm).2⟩
  by_contra hne
  exact hr.disjoint.forall (hmaster n hn) (hmaster n' hn') hne s ⟨hs, hs'⟩

theorem Reply.listed_ids : ((listed nodes).map (·.id)).Nodup :=
  hr.ids.sublist (List.filter_sublist.map _)

theorem Reply.eq_of_id {n n' : NodeLine} (hn : n ∈ listed nodes) (hn' : n' ∈ listed nodes)
    (he : n.id = n'.id) : n = n' :=
  List.inj_on_of_nodup_map hr.ids (mem_listed.mp hn).1 (mem_listed.mp hn').1 he

end Nodes

/-! ## `getClusterNodesInfo` -/

/-- The node that is made of a line. -/
def readNode (n : NodeLine) : NodeInfo := ⟨n.id, n.addr.read, n.slots.map SlotToken.read⟩

theorem foldl_parseSlotString (tokens : List Bytes) (node : NodeInfo) :
    tokens.foldl (fun node token => node.parseSlotString token) node =
      { node with slots := node.slots ++ tokens.map RedisAsyn.slotsInfo } := by
  induction tokens generalizing node with
  | nil => simp
  | cons token tokens ih =>
    rw [List.foldl_cons, ih]
    simp [NodeInfo.parseSlotString]

theorem parseNodeString_text (a : RedisAsyn.NodeAddr) (node : NodeInfo) :
    NodeInfo.parseNodeString a.text node = { node with addr := a.read } := by
  have hr := a.analysisSvrInfo_text
  unfold RedisAsyn.analysisSvrInfo at hr
  rw [if_neg (by simp [RedisAsyn.NodeAddr.text])] at hr
  unfold NodeInfo.parseNodeString
  cases hf : findByte 58 a.text with
  | none =>
    rw [hf] at hr
    cases hr
  | some i =>
    rw [hf] at hr
    simp only
    rw [Option.some.inj hr]

theorem lineNode_eq {n : NodeLine} (h : n.Wf) (uninit : Addr) :
    lineNode uninit (n.id :: n.fields) = readNode n := by
  have h1 : (n.id :: n.fields).getD 1 [] = n.addr.text := rfl
  rw [lineNode, h1, parseNodeString_text, foldl_parseSlotString, RedisAsyn.slotsInfo_fields h]
  rfl

theorem cstr_clusterText {nodes : List NodeLine} (h : ∀ n ∈ nodes, n.Wf) :
    cstr (clusterText nodes) = clusterText nodes := by
  refine cstr_eq_self fun hmem => ?_
  obtain ⟨n, hn, hmem⟩ := List.mem_flatMap.mp hmem
  have hsolid := n.solid_fields (h n hn)
  rcases List.mem_append.mp hmem with hmem | hmem
  · rcases List.mem_append.mp hmem with hmem | hmem
    · exact (hsolid n.id List.mem_cons_self).2.notMem (by decide) hmem
    · obtain ⟨t, ht, hmem⟩ := List.mem_flatMap.mp hmem
      rcases List.mem_cons.mp hmem with hmem | hmem
      · exact absurd hmem (by decide)
      · exact (hsolid t (List.mem_cons_of_mem _ ht)).2.notMem (by decide) hmem
  · exact absurd hmem (by decide)

section NodesLoop

variable {ns : List NodeLine} (hw : ∀ n ∈ ns, n.Wf) (uninit : Addr) (nodes_ : List NodeInfo)
include hw

/-- Every listed line has a slot token: the loop takes them all. -/
theorem nodesLoop_eq (hs : ∀ n ∈ listed ns, n.slots ≠ []) :
    nodesLoop uninit (ns.map (·.text)) nodes_ = (true, nodes_ ++ (listed ns).map readNode) := by
  induction ns generalizing nodes_ with
  | nil => simp [nodesLoop, listed]
  | cons n ns ih =>
    have hn := hw n (by simp)
    have hflags : (n.id :: n.fields).getD 2 [] = flagsText n.flags := rfl
    have hlen := RedisAsyn.fields_length n
    rw [List.map_cons, nodesLoop, split, RedisAsyn.split_line hn]
    simp only [hflags, lineNode_eq hn]
    rw [if_neg (by omega)]
    by_cases hl : isLive (flagsText n.flags) = true
    · have hlist : listed (n :: ns) = n :: listed ns := by simp [listed, hl]
      rw [hlist] at hs ⊢
      have hpos : n.slots.length ≠ 0 := fun h0 => hs n (by simp) (List.length_eq_zero_iff.mp h0)
      rw [if_pos hl, if_neg (by omega),
        ih (fun m hm => hw m (by simp [hm])) _ fun m hm => hs m (by simp [hm])]
      simp
    · have hlist : listed (n :: ns) = listed ns := by simp [listed, hl]
      rw [hlist] at hs ⊢
      rw [if_neg hl, ih (fun m hm => hw m (by simp [hm])) _ hs]

theorem nodesLoop_true (h : (nodesLoop uninit (ns.map (·.text)) nodes_).1 = true) :
    ∀ n ∈ listed ns, n.slots ≠ [] := by
  induction ns generalizing nodes_ with
  | nil => simp [listed]
  | cons n ns ih =>
    have hn := hw n (by simp)
    have hflags : (n.id :: n.fields).getD 2 [] = flagsText n.flags := rfl
    have hlen := RedisAsyn.fields_length n
    rw [List.map_cons, nodesLoop, split, RedisAsyn.split_line hn] at h
    simp only [hflags] at h
    rw [if_neg (by omega)] at h
    by_cases hl : isLive (flagsText n.flags) = true
    · have hlist : listed (n :: ns) = n :: listed ns := by simp [listed, hl]
      rw [if_pos hl] at h
      split at h
      · cases h
      · rename_i hslots
        rw [hlist, List.forall_mem_cons]
        refine ⟨fun h0 => hslots ?_, ih (fun m hm => hw m (by simp [hm])) _ h⟩
        rw [hlen, h0]
        decide
    · have hlist : listed (n :: ns) = listed ns := by simp [listed, hl]
      rw [if_neg hl] at h
      rw [hlist]
      exact ih (fun m hm => hw m (by simp [hm])) _ h

end NodesLoop

namespace RedisClusterMgr

theorem getClusterNodesInfo_eq {nodes : List NodeLine} (hw : ∀ n ∈ nodes, n.Wf)
    (hs : ∀ n ∈ listed nodes, n.slots ≠ []) (uninit : Addr) (mgr : RedisClusterMgr) :
    mgr.getClusterNodesInfo uninit (some (clusterText nodes)) =
      (true, { mgr with nodes_ := (listed nodes).map readNode }) := by
  simp only [getClusterNodesInfo, split, cstr_clusterText hw, RedisAsyn.split_clusterText hw,
    nodesLoop_eq hw uninit [] hs, List.nil_append]

theorem getClusterNodesInfo_true {nodes : List NodeLine} (hw : ∀ n ∈ nodes, n.Wf) {uninit : Addr}
    {mgr mgr' : RedisClusterMgr}
    (h : mgr.getClusterNodesInfo uninit (some (clusterText nodes)) = (true, mgr')) :
    (∀ n ∈ listed nodes, n.slots ≠ []) ∧
      mgr' = { mgr with nodes_ := (listed nodes).map readNode } := by
  have hs : ∀ n ∈ listed nodes, n.slots ≠ [] := by
    refine nodesLoop_true hw uninit [] ?_
    simp only [getClusterNodesInfo, split, cstr_clusterText hw, RedisAsyn.split_clusterText hw,
      Prod.mk.injEq] at h
    exact h.1
  rw [getClusterNodesInfo_eq hw hs] at h
  exact ⟨hs, (congrArg Prod.snd h).symm⟩

/-! ## Slots -/

theorem slotLoop_eq_fillLoop (node : Nat) (e : UInt16) (fuel : Nat) (pos : UInt16)
    (m : UInt16 → Option Nat) :
    slotLoop node e fuel pos m = fillLoop (fun _ => some node) e fuel pos m := by
  induction fuel generalizing pos m with
  | zero => rfl
  | succ fuel ih => rw [slotLoop, fillLoop, ih]

theorem assignSlots_eq (node : Nat) {rs : List SlotsInfo} (h : ∀ r ∈ rs, r.slotEnd_.toNat < 65535)
    (m : UInt16 → Option Nat) :
    assignSlots node rs m = some fun s => if rs.any (·.covers s) then some node else m s := by
  induction rs generalizing m with
  | nil => rfl
  | cons r rs ih =>
    have hr := h r (by simp)
    rw [assignSlots, slotLoop_eq_fillLoop, fillLoop_eq _ hr _ _ (by omega)]
    simp only
    rw [ih fun r' hr' => h r' (by simp [hr'])]
    congr 1
    funext s
    simp only [List.any_cons, RedisAsyn.SlotsInfo.covers]
    by_cases h1 : r.slotStart_ ≤ s ∧ s ≤ r.slotEnd_
    · simp [h1]
    · simp [h1]

/-- What the slot tokens of a line do to `slotMap_`. -/
theorem assignSlots_read (node : Nat) {n : NodeLine} (h : n.Wf) (m : UInt16 → Option Nat) :
    assignSlots node (readNode n).slots m =
      some fun s => if n.readCovers s then some node else m s := by
  have hend : ∀ r ∈ n.slots.map SlotToken.read, r.slotEnd_.toNat < 65535 := by
    intro r hr
    obtain ⟨t, ht, rfl⟩ := List.mem_map.mp hr
    exact SlotToken.read_slotEnd (h.slots t ht)
  rw [readNode, assignSlots_eq node hend]
  simp only [n.any_read_covers h]

end RedisClusterMgr

end RedisCluster
end CmakeFrame
