import CmakeFrame.RedisCluster.SlotMap

/-!
# Any reply to `CLUSTER NODES`

What `getClusterNodesInfo` and `connectClusterNode` make of any text, for a manager that knows no
node.

* `linesOf`, `liveLines`: the lines of a reply and those that pass the filter, as their fields.
* `refresh`: both functions, one after the other.
* `getClusterNodesInfo_text`: the nodes that are read; `connectLoop_ends`, `connectLoop_never`: what
  the slots of a list of nodes make of `slotMap_`, and when a loop does not end.
* `Master`: a live line whose slot tokens are slots, ranges and markers.
* `slotText_iff`: when each slot is mapped to its owner, and when the functions end.
-/

namespace CmakeFrame
namespace RedisCluster

open Lib
open RedisAsyn (SlotToken)

/-! ## The first of each id -/

/-- The elements whose key was not seen, each key once. -/
def firstsBy {α : Type} (key : α → Bytes) : (Bytes → Bool) → List α → List α
  | _, [] => []
  | seen, a :: l =>
    if seen (key a) then firstsBy key seen l
    else a :: firstsBy key (fun k => k = key a || seen k) l

theorem firstsBy_map {α β : Type} (key : β → Bytes) (f : α → β) (seen : Bytes → Bool) (l : List α) :
    firstsBy key seen (l.map f) = (firstsBy (fun a => key (f a)) seen l).map f := by
  induction l generalizing seen with
  | nil => rfl
  | cons a l ih =>
    simp only [List.map_cons, firstsBy, ih]
    split_ifs <;> rfl

theorem firstsBy_subset {α : Type} (key : α → Bytes) (seen : Bytes → Bool) (l : List α) :
    firstsBy key seen l ⊆ l := by
  induction l generalizing seen with
  | nil => exact List.Subset.refl _
  | cons a l ih =>
    rw [firstsBy]
    split_ifs
    · exact fun b hb => List.mem_cons_of_mem a (ih seen hb)
    · exact List.cons_subset_cons a (ih _)

/-! ## Lines -/

/-- The lines of a reply, cut into fields. -/
def linesOf (str : Bytes) : List (List Bytes) := (split (cstr str) [10]).map fun line => split line [32]

/-- The line of a master that has not failed. -/
def liveLine (fields : List Bytes) : Bool := isLive (fields.getD 2 [])

def liveLines (str : Bytes) : List (List Bytes) := (linesOf str).filter liveLine

/-- A line with enough fields. -/
def LineOk (fields : List Bytes) : Prop :=
  8 ≤ fields.length ∧ (liveLine fields = true → 9 ≤ fields.length)

instance (fields : List Bytes) : Decidable (LineOk fields) := inferInstanceAs (Decidable (_ ∧ _))

/-- The id of a line. -/
def lineId (fields : List Bytes) : Bytes := fields.getD 0 []

theorem nodesLoop_ok (uninit : Addr) {vLines : List Bytes}
    (h : ∀ line ∈ vLines, LineOk (split line [32])) (nodes_ : List NodeInfo) :
    nodesLoop uninit vLines nodes_ =
      (true, nodes_ ++ ((vLines.map fun line => split line [32]).filter liveLine).map
        (lineNode uninit)) := by
  induction vLines generalizing nodes_ with
  | nil => simp [nodesLoop]
  | cons line vLines ih =>
    obtain ⟨h8, h9⟩ := h line List.mem_cons_self
    have ih := ih fun l hl => h l (List.mem_cons_of_mem line hl)
    rw [nodesLoop]
    simp only [List.map_cons, if_neg (Nat.not_lt.mpr h8)]
    split_ifs with hlive hlt
    · exact absurd (h9 hlive) (Nat.not_le.mpr hlt)
    · rw [ih, List.filter_cons_of_pos (p := liveLine) hlive, List.map_cons, List.append_assoc]
      rfl
    · rw [ih, List.filter_cons_of_neg (p := liveLine) hlive]

theorem nodesLoop_bad (uninit : Addr) {vLines : List Bytes}
    (h : ¬ ∀ line ∈ vLines, LineOk (split line [32])) (nodes_ : List NodeInfo) :
    (nodesLoop uninit vLines nodes_).1 = false := by
  induction vLines generalizing nodes_ with
  | nil => exact absurd (List.forall_mem_nil _) h
  | cons line vLines ih =>
    rw [List.forall_mem_cons, not_and] at h
    rw [nodesLoop]
    split_ifs with h8 hlive h9
    · rfl
    · rfl
    · exact ih (h ⟨Nat.not_lt.mp h8, fun _ => Nat.not_lt.mp h9⟩) _
    · exact ih (h ⟨Nat.not_lt.mp h8, fun hl => absurd hl hlive⟩) _

namespace RedisClusterMgr

variable {connect : Connect} {mgr mgr' : RedisClusterMgr}

/-- `getClusterNodesInfo`, and `connectClusterNode` for each node that it gives. -/
def refresh (connect : Connect) (uninit : Addr) (str : Bytes) (mgr : RedisClusterMgr) :
    Option (Int × RedisClusterMgr) :=
  match mgr.getClusterNodesInfo uninit (some str) with
  | (false, mgr) => some (-1, mgr)
  | (true, mgr) => connectLoop connect mgr.nodes_ mgr

/-- Lines with enough fields are read. -/
theorem getClusterNodesInfo_text {str : Bytes} (h : ∀ fields ∈ linesOf str, LineOk fields)
    (uninit : Addr) (mgr : RedisClusterMgr) :
    mgr.getClusterNodesInfo uninit (some str) =
      (true, { mgr with nodes_ := (liveLines str).map (lineNode uninit) }) := by
  have hlines : ∀ line ∈ split (cstr str) [10], LineOk (split line [32]) := fun line hl =>
    h _ (List.mem_map_of_mem hl)
  have hok := nodesLoop_ok uninit hlines []
  simp only [getClusterNodesInfo, hok, List.nil_append]
  rfl

theorem getClusterNodesInfo_bad {str : Bytes} (h : ¬ ∀ fields ∈ linesOf str, LineOk fields)
    (uninit : Addr) (mgr : RedisClusterMgr) :
    (mgr.getClusterNodesInfo uninit (some str)).1 = false := by
  refine nodesLoop_bad uninit (fun hall => h fun fields hf => ?_) []
  obtain ⟨line, hl, rfl⟩ := List.mem_map.mp hf
  exact hall line hl

/-! ## Connecting to a list of nodes -/

/-- The node has the slot in one of its ranges. -/
def infoCovers (s : UInt16) (info : NodeInfo) : Bool := info.slots.any (·.covers s)

/-- The counter of a range up to 65535 wraps. -/
def Endless (info : NodeInfo) : Prop := ∃ r ∈ info.slots, r.slotEnd_ = 65535

/-- The sizes of the pools are accepted and every `connect()` succeeds. -/
def ConnectsAll (connect : Connect) (mgr : RedisClusterMgr) : Prop :=
  RedisClusterNode.SizesOk mgr.minSize_ mgr.maxSize_ ∧ ∀ c addr, connect c addr = true

theorem assignSlots_never {node : Nat} {rs : List RedisAsyn.SlotsInfo}
    (h : ∃ r ∈ rs, r.slotEnd_ = 65535) (m : UInt16 → Option Nat) : assignSlots node rs m = none := by
  induction rs generalizing m with
  | nil =>
    obtain ⟨r, hr, -⟩ := h
    cases hr
  | cons r rs ih =>
    rw [assignSlots, slotLoop_eq_fillLoop]
    by_cases hr : r.slotEnd_ = 65535
    · rw [hr, fillLoop_last]
    · obtain ⟨r', hr', he⟩ := h
      have hmem : r' ∈ rs := (List.mem_cons.mp hr').resolve_left fun hx => hr (hx ▸ he)
      cases fillLoop (fun _ => some node) r.slotEnd_ (2 ^ 16 + 1) r.slotStart_ m with
      | none => rfl
      | some m' => exact ih ⟨r', hmem, he⟩ m'

theorem slotInfo_eq_none (h : mgr.slotMap_ = fun _ => none) (s : UInt16) : mgr.slotInfo s = none := by
  rw [slotInfo, slotNode, h]
  rfl

/-- A node that is not known is connected, and gets its slots, unless one of its ranges is endless. -/
theorem connectClusterNode_ends {node : NodeInfo} (hc : ConnectsAll connect mgr) (hv : mgr.Valid)
    (hk : mgr.known node.id = false) (he : ¬ Endless node) :
    ∃ mgr', mgr.connectClusterNode connect node = some (true, mgr') ∧ mgr'.Valid ∧
      ConnectsAll connect mgr' ∧
      (∀ s, mgr'.slotInfo s = if infoCovers s node then some node else mgr.slotInfo s) ∧
      mgr'.known = fun id => id = node.id || mgr.known id := by
  have hinit : (RedisClusterNode.init connect node mgr.minSize_ mgr.maxSize_ mgr.timeout_
      mgr.password_ mgr.created).1 = true :=
    RedisClusterNode.init_of_connect hc.1 (fun c => hc.2 c _) _ _ _
  have hends : ∀ r ∈ node.slots, r.slotEnd_.toNat < 65535 := by
    intro r hr
    have hlt := r.slotEnd_.toNat_lt
    have hne : r.slotEnd_.toNat ≠ 65535 := fun h => he ⟨r, hr, UInt16.toNat_inj.mp h⟩
    omega
  have hslots := assignSlots_eq mgr.heap.length hends mgr.slotMap_
  cases hi : RedisClusterNode.init connect node mgr.minSize_ mgr.maxSize_ mgr.timeout_
    mgr.password_ mgr.created with
  | mk b r =>
    obtain ⟨clusterNode, created⟩ := r
    rw [hi] at hinit
    obtain rfl : b = true := hinit
    obtain ⟨-, -, hinfo⟩ := RedisClusterNode.init_true hi
    have hstep : mgr.connectClusterNode connect node = some (true, { mgr with
        slotMap_ := fun s => if node.slots.any (·.covers s) then some mgr.heap.length
          else mgr.slotMap_ s
        created := created, heap := mgr.heap ++ [clusterNode]
        nodesStatus_ := Function.update mgr.nodesStatus_ node.id
          (some ((mgr.nodesStatus_ node.id).getD true)) }) := by
      have hk' : ¬ mgr.nodesStatus_ node.id = some true := by simpa [known] using hk
      rw [connectClusterNode, if_neg hk', hi]
      simp only [hslots]
    refine ⟨_, hstep, connectClusterNode_valid hv hstep, hc, fun s => ?_, ?_⟩
    · simp only [slotInfo, slotNode]
      by_cases hs : infoCovers s node = true
      · have hs' : node.slots.any (·.covers s) = true := hs
        simp [hs, hs', hinfo]
      · have hs' : ¬ node.slots.any (·.covers s) = true := hs
        rw [if_neg hs, if_neg hs']
        cases hm : mgr.slotMap_ s with
        | none => rfl
        | some k =>
          exact congrArg (Option.map (·.info_)) (List.getElem?_append_left (hv.slots s k hm))
    · funext id
      simp only [known, known_insert hv node.id id]
      by_cases hid : id = node.id <;> simp [hid]

theorem connectClusterNode_never {node : NodeInfo} (hc : ConnectsAll connect mgr)
    (hk : mgr.known node.id = false) (he : Endless node) :
    mgr.connectClusterNode connect node = none := by
  have hinit : (RedisClusterNode.init connect node mgr.minSize_ mgr.maxSize_ mgr.timeout_
      mgr.password_ mgr.created).1 = true :=
    RedisClusterNode.init_of_connect hc.1 (fun c => hc.2 c _) _ _ _
  have hk' : ¬ mgr.nodesStatus_ node.id = some true := by simpa [known] using hk
  rw [connectClusterNode, if_neg hk']
  cases hi : RedisClusterNode.init connect node mgr.minSize_ mgr.maxSize_ mgr.timeout_
    mgr.password_ mgr.created with
  | mk b r =>
    rw [hi] at hinit
    obtain rfl : b = true := hinit
    simp only [assignSlots_never he]

/-- The nodes that a loop connects to. -/
def newNodes (mgr : RedisClusterMgr) (infos : List NodeInfo) : List NodeInfo :=
  firstsBy (·.id) mgr.known infos

/-- Each slot gets the last new node that has it. -/
theorem connectLoop_ends {infos : List NodeInfo} (hc : ConnectsAll connect mgr) (hv : mgr.Valid)
    (he : ∀ info ∈ mgr.newNodes infos, ¬ Endless info) :
    ∃ mgr', connectLoop connect infos mgr = some (0, mgr') ∧
      ∀ s, mgr'.slotInfo s =
        ((mgr.newNodes infos).reverse.find? (infoCovers s)).or (mgr.slotInfo s) := by
  induction infos generalizing mgr with
  | nil => exact ⟨mgr, rfl, fun _ => rfl⟩
  | cons info infos ih =>
    unfold newNodes at he ⊢
    rw [firstsBy] at he ⊢
    cases hk : mgr.known info.id with
    | true =>
      rw [hk] at he
      obtain ⟨mgr', hrun, hslots⟩ := ih hc hv he
      have hk' : mgr.nodesStatus_ info.id = some true := by simpa [known] using hk
      refine ⟨mgr', ?_, hslots⟩
      rw [connectLoop, connectClusterNode, if_pos hk']
      exact hrun
    | false =>
      rw [hk] at he
      obtain ⟨he₁, he₂⟩ := List.forall_mem_cons.mp he
      obtain ⟨mgr₁, hstep, hv₁, hc₁, hslots₁, hknown⟩ := connectClusterNode_ends hc hv hk he₁
      have hnew : mgr₁.newNodes infos =
          firstsBy (·.id) (fun id => id = info.id || mgr.known id) infos := by
        rw [newNodes, hknown]
      obtain ⟨mgr', hrun, hslots⟩ := ih hc₁ hv₁ (hnew ▸ he₂)
      refine ⟨mgr', ?_, fun s => ?_⟩
      · rw [connectLoop, hstep]
        exact hrun
      · rw [hslots s, hslots₁ s, hnew]
        simp only [Bool.false_eq_true, if_false, List.reverse_cons, List.find?_append,
          List.find?_singleton, Option.or_assoc]
        congr 1
        split_ifs <;> rfl

theorem connectLoop_never {infos : List NodeInfo} (hc : ConnectsAll connect mgr) (hv : mgr.Valid)
    (he : ∃ info ∈ mgr.newNodes infos, Endless info) : connectLoop connect infos mgr = none := by
  induction infos generalizing mgr with
  | nil =>
    obtain ⟨info, hi, -⟩ := he
    cases hi
  | cons info infos ih =>
    unfold newNodes at he
    rw [firstsBy] at he
    cases hk : mgr.known info.id with
    | true =>
      rw [hk] at he
      have hk' : mgr.nodesStatus_ info.id = some true := by simpa [known] using hk
      rw [connectLoop, connectClusterNode, if_pos hk']
      exact ih hc hv he
    | false =>
      rw [hk] at he
      rw [connectLoop]
      by_cases hend : Endless info
      · rw [connectClusterNode_never hc hk hend]
      · obtain ⟨mgr₁, hstep, hv₁, hc₁, -, hknown⟩ := connectClusterNode_ends hc hv hk hend
        rw [hstep]
        refine ih hc₁ hv₁ ?_
        rw [newNodes, hknown]
        obtain ⟨info', hi, he'⟩ := he
        exact ⟨info', (List.mem_cons.mp hi).resolve_left fun hx => hend (hx ▸ he'), he'⟩

end RedisClusterMgr

/-! ## What is read of a line -/

theorem parseNodeString_keeps (nodeStr : Bytes) (node : NodeInfo) :
    (NodeInfo.parseNodeString nodeStr node).id = node.id ∧
      (NodeInfo.parseNodeString nodeStr node).slots = node.slots := by
  unfold NodeInfo.parseNodeString
  cases findByte 58 nodeStr <;> exact ⟨rfl, rfl⟩

theorem lineNode_id (uninit : Addr) (fields : List Bytes) :
    (lineNode uninit fields).id = lineId fields := by
  rw [lineNode, foldl_parseSlotString]
  exact (parseNodeString_keeps _ _).1

theorem lineNode_slots (uninit : Addr) (fields : List Bytes) :
    (lineNode uninit fields).slots = (fields.drop 8).map RedisAsyn.slotsInfo := by
  rw [lineNode, foldl_parseSlotString]
  show (NodeInfo.parseNodeString _ _).slots ++ _ = _
  rw [(parseNodeString_keeps _ _).2, List.nil_append]

/-- A token of the line is read as an endless range: the number behind its first dash, or of the
whole, is 65535. -/
def EndlessLine (fields : List Bytes) : Prop :=
  ∃ token ∈ fields.drop 8, (RedisAsyn.slotsInfo token).slotEnd_ = 65535

theorem endless_lineNode (uninit : Addr) (fields : List Bytes) :
    RedisClusterMgr.Endless (lineNode uninit fields) ↔ EndlessLine fields := by
  rw [RedisClusterMgr.Endless, lineNode_slots]
  simp only [List.mem_map, exists_exists_and_eq_and]
  exact Iff.rfl

/-- The line of a live master: eight fields, and slot tokens. -/
structure Master where
  fields : List Bytes
  slots : List SlotToken

namespace Master

def line (m : Master) : List Bytes := m.fields ++ m.slots.map SlotToken.text

structure Wf (m : Master) : Prop where
  fields : m.fields.length = 8
  slots : m.slots ≠ []
  tokens : ∀ t ∈ m.slots, t.Wf

/-- The slot is in one of the plain tokens. -/
def covers (s : UInt16) (m : Master) : Bool := m.slots.any (·.covers s)

/-- The line has a migration marker. -/
def marked (m : Master) : Bool := m.slots.any (·.isMarker)

/-- No slot is in plain tokens of both. -/
def Apart (m m' : Master) : Prop := ∀ s, ¬ (m.covers s = true ∧ m'.covers s = true)

instance : Std.Symm Apart := ⟨fun _ _ h s hc => h s hc.symm⟩

def id (m : Master) : Bytes := lineId m.line

/-- The node that is made of the line. -/
def info (uninit : Addr) (m : Master) : NodeInfo := lineNode uninit m.line

theorem Wf.drop {m : Master} (h : m.Wf) : m.line.drop 8 = m.slots.map SlotToken.text := by
  rw [line, ← h.fields, List.drop_left]

/-- A marker is read as slot 0. -/
theorem Wf.infoCovers {m : Master} (h : m.Wf) (uninit : Addr) (s : UInt16) :
    RedisClusterMgr.infoCovers s (m.info uninit) = (m.covers s || (m.marked && s = 0)) := by
  have hread : m.slots.map (fun t => RedisAsyn.slotsInfo t.text) = m.slots.map SlotToken.read :=
    List.map_congr_left fun t ht => SlotToken.slotsInfo_text (h.tokens t ht)
  rw [RedisClusterMgr.infoCovers, info, lineNode_slots, h.drop, List.map_map]
  show ((m.slots.map fun t => RedisAsyn.slotsInfo t.text).any (·.covers s)) = _
  rw [hread, List.any_map]
  exact SlotToken.any_read_covers h.tokens s

theorem Wf.not_endless {m : Master} (h : m.Wf) (uninit : Addr) :
    ¬ RedisClusterMgr.Endless (m.info uninit) := by
  rw [info, endless_lineNode, EndlessLine, h.drop]
  rintro ⟨token, htoken, he⟩
  obtain ⟨t, ht, rfl⟩ := List.mem_map.mp htoken
  have hlt := SlotToken.read_slotEnd (h.tokens t ht)
  rw [← SlotToken.slotsInfo_text (h.tokens t ht), he] at hlt
  exact absurd hlt (by decide)

end Master

/-- The text is a reply: at least eight fields in each line, `ms` are its live masters, with at least
one slot token each, and no slot has two of them. -/
structure Reads (str : Bytes) (ms : List Master) : Prop where
  fields : ∀ fields ∈ linesOf str, 8 ≤ fields.length
  live : liveLines str = ms.map Master.line
  wf : ∀ m ∈ ms, m.Wf
  disjoint : ms.Pairwise Master.Apart

theorem Reads.lineOk {str : Bytes} {ms : List Master} (h : Reads str ms) :
    ∀ fields ∈ linesOf str, LineOk fields := by
  intro fields hf
  refine ⟨h.fields fields hf, fun hlive => ?_⟩
  have hmem : fields ∈ liveLines str := List.mem_filter.mpr ⟨hf, hlive⟩
  rw [h.live] at hmem
  obtain ⟨m, hm, rfl⟩ := List.mem_map.mp hmem
  have hw := h.wf m hm
  have hpos := List.length_pos_of_ne_nil hw.slots
  rw [Master.line, List.length_append, List.length_map, hw.fields]
  omega

theorem Reads.eq_of_covers {str : Bytes} {ms : List Master} (h : Reads str ms) {m m' : Master}
    (hm : m ∈ ms) (hm' : m' ∈ ms) {s : UInt16} (hs : m.covers s = true) (hs' : m'.covers s = true) :
    m = m' := by
  by_contra hne
  exact h.disjoint.forall hm hm' hne s ⟨hs, hs'⟩

/-! ## When it is right -/

/-- The live masters whose ids do not occur on a live line before. -/
def firsts (ms : List Master) : List Master := firstsBy Master.id (fun _ => false) ms

/-- Each slot of a plain token is mapped to the node of its line, and no other slot is mapped. -/
def MapsSlots (uninit : Addr) (ms : List Master) (mgr : RedisClusterMgr) : Prop :=
  ∀ s, mgr.slotInfo s = (ms.find? (·.covers s)).map (·.info uninit)

/-- A line with a plain slot is the first of its id, and the last first line that has slot 0 or a
marker is that of the owner of slot 0. -/
structure SlotsSafe (uninit : Addr) (ms : List Master) : Prop where
  first : ∀ m ∈ ms, ∀ s ≠ 0, m.covers s = true → m ∈ firsts ms
  zero : ((firsts ms).reverse.find? fun m => m.covers 0 || m.marked).map (·.info uninit) =
    (ms.find? (·.covers 0)).map (·.info uninit)

namespace RedisClusterMgr

variable {connect : Connect} {uninit : Addr} {mgr : RedisClusterMgr} {str : Bytes}
  {ms : List Master}

/-- No node is known, and no slot is mapped. -/
structure KnowsNothing (mgr : RedisClusterMgr) : Prop where
  status : mgr.nodesStatus_ = fun _ => none
  slots : mgr.slotMap_ = fun _ => none

theorem KnowsNothing.valid (h : mgr.KnowsNothing) : mgr.Valid := by
  constructor
  · intro s k hk
    rw [h.slots] at hk
    cases hk
  · intro id
    rw [h.status]
    simp

theorem KnowsNothing.known (h : mgr.KnowsNothing) : mgr.known = fun _ => false := by
  funext id
  rw [RedisClusterMgr.known, h.status]
  rfl

/-- The nodes that a reply makes a fresh manager connect to. -/
theorem KnowsNothing.newNodes (h : mgr.KnowsNothing) (lines : List (List Bytes)) :
    mgr.newNodes (lines.map (lineNode uninit)) =
      (firstsBy lineId (fun _ => false) lines).map (lineNode uninit) := by
  have hkey : (fun fields => (lineNode uninit fields).id) = lineId := funext (lineNode_id uninit)
  rw [RedisClusterMgr.newNodes, h.known, firstsBy_map, hkey]

theorem KnowsNothing.withNodes (h : mgr.KnowsNothing) (nodes : List NodeInfo) :
    KnowsNothing { mgr with nodes_ := nodes } :=
  ⟨h.status, h.slots⟩

/-- A text that is read: its live lines are connected to. -/
theorem refresh_eq (hok : ∀ fields ∈ linesOf str, LineOk fields) :
    refresh connect uninit str mgr = connectLoop connect ((liveLines str).map (lineNode uninit))
      { mgr with nodes_ := (liveLines str).map (lineNode uninit) } := by
  simp only [refresh, getClusterNodesInfo_text hok]

/-- What a reply makes of the slots. -/
theorem refresh_reads (hc : ConnectsAll connect mgr) (hk : mgr.KnowsNothing) (h : Reads str ms) :
    ∃ mgr', refresh connect uninit str mgr = some (0, mgr') ∧ ∀ s, mgr'.slotInfo s =
      ((firsts ms).reverse.find? fun m => m.covers s || (m.marked && s = 0)).map
        (·.info uninit) := by
  have hk₁ := hk.withNodes ((liveLines str).map (lineNode uninit))
  have hmem : ∀ m ∈ firsts ms, m.Wf := fun m hm => h.wf m (firstsBy_subset _ _ _ hm)
  have hnew : newNodes { mgr with nodes_ := (liveLines str).map (lineNode uninit) }
      ((liveLines str).map (lineNode uninit)) = (firsts ms).map (·.info uninit) := by
    rw [hk₁.newNodes, h.live, firstsBy_map, List.map_map]
    rfl
  have hc₁ : ConnectsAll connect { mgr with nodes_ := (liveLines str).map (lineNode uninit) } := hc
  obtain ⟨mgr', hrun, hslots⟩ := connectLoop_ends hc₁ hk₁.valid (by
    rw [hnew]
    intro info hi
    obtain ⟨m, hm, rfl⟩ := List.mem_map.mp hi
    exact (hmem m hm).not_endless uninit)
  refine ⟨mgr', by rw [refresh_eq h.lineOk, hrun], fun s => ?_⟩
  have hcovers : ∀ m ∈ (firsts ms).reverse,
      (infoCovers s ∘ (·.info uninit)) m = (m.covers s || (m.marked && s = 0)) := by
    intro m hm
    rw [Function.comp_apply, (hmem m (List.mem_reverse.mp hm)).infoCovers]
  rw [hslots s, slotInfo_eq_none hk₁.slots, Option.or_none, hnew, ← List.map_reverse,
    List.find?_map, List.find?_congr hcovers]

/-- Slots but 0: every line with one has to be the first of its id. -/
theorem firsts_iff (h : Reads str ms) {s : UInt16} :
    ((firsts ms).reverse.find? (·.covers s)).map (·.info uninit) =
        (ms.find? (·.covers s)).map (·.info uninit) ↔
      ∀ m ∈ ms, m.covers s = true → m ∈ firsts ms := by
  have hmem : ∀ m ∈ (firsts ms).reverse, m ∈ ms := fun m hm =>
    firstsBy_subset _ _ _ (List.mem_reverse.mp hm)
  constructor
  · intro heq m hm hs
    cases hz : (firsts ms).reverse.find? (·.covers s) with
    | none =>
      rw [hz] at heq
      have hnone := Option.map_eq_none_iff.mp heq.symm
      exact absurd hs (List.find?_eq_none.mp hnone m hm)
    | some z =>
      have hz' := List.mem_of_find?_eq_some hz
      obtain rfl := h.eq_of_covers hm (hmem z hz') hs (List.find?_some (p := Master.covers s) hz)
      exact List.mem_reverse.mp hz'
  · intro hall
    cases ho : ms.find? (·.covers s) with
    | none =>
      have hnone : (firsts ms).reverse.find? (·.covers s) = none :=
        List.find?_eq_none.mpr fun m hm => List.find?_eq_none.mp ho m (hmem m hm)
      rw [hnone]
    | some o =>
      have hos := List.find?_some (p := Master.covers s) ho
      have hoF := hall o (List.mem_of_find?_eq_some ho) hos
      cases hz : (firsts ms).reverse.find? (·.covers s) with
      | none => exact absurd hos (List.find?_eq_none.mp hz o (List.mem_reverse.mpr hoF))
      | some z =>
        rw [h.eq_of_covers (hmem z (List.mem_of_find?_eq_some hz)) (List.mem_of_find?_eq_some ho)
          (List.find?_some (p := Master.covers s) hz) hos]

theorem refresh_maps_iff (hc : ConnectsAll connect mgr) (hk : mgr.KnowsNothing) (h : Reads str ms) :
    (∃ mgr', refresh connect uninit str mgr = some (0, mgr') ∧ MapsSlots uninit ms mgr') ↔
      SlotsSafe uninit ms := by
  obtain ⟨mgr', hrun, hslots⟩ : ∃ mgr', refresh connect uninit str mgr = some (0, mgr') ∧ _ :=
    refresh_reads hc hk h
  have hne : ∀ s ≠ (0 : UInt16), (fun m : Master => m.covers s || (m.marked && s = 0)) =
      (·.covers s) := by
    intro s hs
    funext m
    simp [hs]
  have hzero : (fun m : Master => m.covers 0 || (m.marked && (0 : UInt16) = 0)) =
      fun m => m.covers 0 || m.marked := by
    funext m
    simp
  constructor
  · rintro ⟨mgr'', hrun', hmaps⟩
    rw [hrun] at hrun'
    obtain rfl := (Prod.mk.inj (Option.some.inj hrun')).2
    refine ⟨fun m hm s hs => ?_, ?_⟩
    · have := hmaps s
      rw [hslots s, hne s hs, firsts_iff h] at this
      exact this m hm
    · have := hmaps 0
      rwa [hslots 0, hzero] at this
  · intro hsafe
    refine ⟨mgr', hrun, fun s => ?_⟩
    rw [hslots s]
    by_cases hs : s = 0
    · subst hs
      rw [hzero]
      exact hsafe.zero
    · rw [hne s hs, firsts_iff h]
      exact fun m hm => hsafe.first m hm s hs

/-- The functions end for a text that is not read, and for one where no line that is connected to
has an endless range. -/
theorem refresh_ends_iff (hc : ConnectsAll connect mgr) (hk : mgr.KnowsNothing) :
    (∃ r, refresh connect uninit str mgr = some r) ↔
      ((∀ fields ∈ linesOf str, LineOk fields) →
        ∀ fields ∈ firstsBy lineId (fun _ => false) (liveLines str), ¬ EndlessLine fields) := by
  have hk₁ := hk.withNodes ((liveLines str).map (lineNode uninit))
  have hc₁ : ConnectsAll connect { mgr with nodes_ := (liveLines str).map (lineNode uninit) } := hc
  have hnew : newNodes { mgr with nodes_ := (liveLines str).map (lineNode uninit) }
      ((liveLines str).map (lineNode uninit)) =
        (firstsBy lineId (fun _ => false) (liveLines str)).map (lineNode uninit) := hk₁.newNodes _
  by_cases hok : ∀ fields ∈ linesOf str, LineOk fields
  · rw [refresh_eq hok]
    constructor
    · rintro ⟨r, hr⟩ - fields hf hend
      have hnever : connectLoop connect ((liveLines str).map (lineNode uninit))
          { mgr with nodes_ := (liveLines str).map (lineNode uninit) } = none := by
        refine connectLoop_never hc₁ hk₁.valid ⟨lineNode uninit fields, ?_, ?_⟩
        · rw [hnew]
          exact List.mem_map_of_mem hf
        · exact (endless_lineNode uninit fields).mpr hend
      rw [hnever] at hr
      cases hr
    · intro hend
      obtain ⟨mgr', hrun, -⟩ := connectLoop_ends hc₁ hk₁.valid (by
        rw [hnew]
        intro info hi
        obtain ⟨fields, hf, rfl⟩ := List.mem_map.mp hi
        rw [endless_lineNode]
        exact hend hok fields hf)
      exact ⟨_, hrun⟩
  · refine iff_of_true ?_ fun h => absurd h hok
    have hbad := getClusterNodesInfo_bad hok uninit mgr
    rw [refresh]
    cases hg : mgr.getClusterNodesInfo uninit (some str) with
    | mk b mgr' =>
      rw [hg] at hbad
      obtain rfl : b = false := hbad
      exact ⟨_, rfl⟩

/-- A manager that knows no node, and whose connects succeed, gets a text. If it is a reply, each
slot of a plain token has the node of its line and no other slot has one just if the lines are safe.
Whatever the text is, the functions end just if no line that is connected to has an endless range. -/
theorem slotText_iff (connect : Connect) (uninit : Addr) (mgr : RedisClusterMgr)
    (hc : ConnectsAll connect mgr) (hk : mgr.KnowsNothing) (str : Bytes) :
    (∀ ms, Reads str ms →
      ((∃ mgr', refresh connect uninit str mgr = some (0, mgr') ∧ MapsSlots uninit ms mgr') ↔
        SlotsSafe uninit ms)) ∧
    ((∃ r, refresh connect uninit str mgr = some r) ↔
      ((∀ fields ∈ linesOf str, LineOk fields) →
        ∀ fields ∈ firstsBy lineId (fun _ => false) (liveLines str), ¬ EndlessLine fields)) :=
  ⟨fun _ h => refresh_maps_iff hc hk h, refresh_ends_iff hc hk⟩

/-- `a h:1 master - 0 1 1 connected` and `b h:2 master - 0 1 1 connected`. -/
def lineFields (i : UInt8) : List Bytes :=
  [[96 + i], [104, 58, 48 + i], [109, 97, 115, 116, 101, 114], [45], [48], [49], [49],
    [99, 111, 110, 110, 101, 99, 116, 101, 100]]

/-- A text of lines with these fields. -/
def textOf (ms : List Master) : Bytes := ms.flatMap fun m => List.intercalate [32] m.line ++ [10]

/-- `a` has the slots 0 to 2, and `b` slot 3. -/
def plainMasters : List Master := [⟨lineFields 1, [.range 0 2]⟩, ⟨lineFields 2, [.slot 3]⟩]

/-- `b` has slot 3, and moves it to `a`, which has slot 0. -/
def markedMasters : List Master :=
  [⟨lineFields 1, [.slot 0]⟩, ⟨lineFields 2, [.slot 3, .migrating 3 [97]]⟩]

theorem reads_plain : Reads (textOf plainMasters) plainMasters where
  fields := by decide +kernel
  live := by decide +kernel
  wf := by
    intro m hm
    simp only [plainMasters, List.mem_cons, List.not_mem_nil, or_false] at hm
    rcases hm with rfl | rfl <;> exact ⟨rfl, by simp, by simp [SlotToken.Wf]⟩
  disjoint := by
    refine List.pairwise_pair.mpr fun s hs => ?_
    simp [Master.covers, SlotToken.covers] at hs
    omega

theorem reads_marked : Reads (textOf markedMasters) markedMasters where
  fields := by decide +kernel
  live := by decide +kernel
  wf := by
    intro m hm
    simp only [markedMasters, List.mem_cons, List.not_mem_nil, or_false] at hm
    rcases hm with rfl | rfl <;>
      exact ⟨rfl, by simp, by simp [SlotToken.Wf, RedisAsyn.Solid]⟩
  disjoint := by
    refine List.pairwise_pair.mpr fun s hs => ?_
    simp [Master.covers, SlotToken.covers] at hs
    omega

theorem new_connectsAll : ConnectsAll (fun _ _ => true) (new 0) :=
  ⟨by unfold RedisClusterNode.SizesOk; decide, fun _ _ => rfl⟩

theorem slotText_iff_plain :
    ∃ mgr', refresh (fun _ _ => true) ⟨[], 0⟩ (textOf plainMasters) (new 0) = some (0, mgr') ∧
      MapsSlots ⟨[], 0⟩ plainMasters mgr' := by
  have hsafe : SlotsSafe ⟨[], 0⟩ plainMasters := ⟨fun _ hm _ _ _ => hm, by decide +kernel⟩
  exact ((slotText_iff (fun _ _ => true) ⟨[], 0⟩ (new 0) new_connectsAll ⟨rfl, rfl⟩
    (textOf plainMasters)).1 plainMasters reads_plain).mpr hsafe

/-- The line of `a` with `65535` for a slot. -/
def endlessText : Bytes :=
  List.intercalate [32] (lineFields 1 ++ [[54, 53, 53, 51, 53]])

/-- The marker of `b` gives slot 0 to `b`, and the text with `65535` makes the functions go on for
ever. -/
theorem slotText_fails :
    (Reads (textOf markedMasters) markedMasters ∧
      ¬ ∃ mgr', refresh (fun _ _ => true) ⟨[], 0⟩ (textOf markedMasters) (new 0) = some (0, mgr') ∧
        MapsSlots ⟨[], 0⟩ markedMasters mgr') ∧
    refresh (fun _ _ => true) ⟨[], 0⟩ endlessText (new 0) = none := by
  refine ⟨⟨reads_marked, fun h => ?_⟩, ?_⟩
  · have hsafe := (refresh_maps_iff new_connectsAll ⟨rfl, rfl⟩ reads_marked).mp h
    exact absurd hsafe.zero (by decide +kernel)
  · cases hr : refresh (fun _ _ => true) ⟨[], 0⟩ endlessText (new 0) with
    | none => rfl
    | some r =>
      have hends := (refresh_ends_iff new_connectsAll ⟨rfl, rfl⟩).mp ⟨r, hr⟩
      have hline : EndlessLine (lineFields 1 ++ [[54, 53, 53, 51, 53]]) :=
        ⟨[54, 53, 53, 51, 53], by decide, by decide +kernel⟩
      have hok : ∀ fields ∈ linesOf endlessText, LineOk fields := by decide +kernel
      exact absurd hline (hends hok _ (by decide +kernel))

end RedisClusterMgr

end RedisCluster
end CmakeFrame
