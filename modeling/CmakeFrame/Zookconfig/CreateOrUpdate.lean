import CmakeFrame.Zookconfig.CreatePath
import Mathlib.Logic.Relation

/-!
# `createForeverPath` and `createSessionPath`, one call after another

The calls of one session, when no connection is lost: each looks for the ancestors, creates the
missing ones with `ZOO_OPEN_ACL_UNSAFE`, and sets or creates the leaf. The leaf is created with
`ZOO_READ_ACL_UNSAFE`.

* `CreateCall.run`: a whole call. `CreateCall.run_goes`: the steps of the call come to it.
* `withAncestors`: the nodes when the ancestors are there. `createAncestors_iff`.
* `Updatable`: the condition on the nodes; `create_or_update_iff`.
* `second_set_refused`: two calls for a new path.
-/

namespace CmakeFrame
namespace Zookconfig

open Lib

/-! ## A whole call -/

namespace Zookeeper

/-- The loop over the ancestors. -/
def createAncestors (z : Zookeeper) (nodes : Nodes) : List Bytes → Nodes × Int
  | [] => (nodes, ZOK)
  | path :: rest =>
    if z.zooExists nodes path = ZOK then z.createAncestors nodes rest
    else if z.zooExists nodes path = ZNONODE then
      match z.zooCreate nodes path ancestorNode with
      | (nodes, ret) => if ret ≠ ZOK then (nodes, ret) else z.createAncestors nodes rest
    else (nodes, z.zooExists nodes path)

/-- The leaf is set if it exists, and created if it does not. -/
def setOrCreate (z : Zookeeper) (nodes : Nodes) (c : CreateCall) : Nodes × Int :=
  if z.zooExists nodes c.leaf = ZOK then z.zooSet nodes c.leaf c.value
  else if z.zooExists nodes c.leaf = ZNONODE then z.zooCreate nodes c.leaf c.leafNode
  else (nodes, z.zooExists nodes c.leaf)

end Zookeeper

/-- The nodes behind the call, and what it returns. -/
def CreateCall.run (z : Zookeeper) (nodes : Nodes) (c : CreateCall) : Nodes × Int :=
  if zookeeperPathCheck c.path ≤ 0 then (nodes, zookeeperPathCheck c.path)
  else if zookeeperPathCheck c.path = 1 then (nodes, ZOOK_CONFIG_PARAMETER_ERROR)
  else match z.createAncestors nodes c.ancestors with
    | (nodes, ret) => if ret ≠ ZOK then (nodes, ret) else z.setOrCreate nodes c

/-- The steps of a call, when no connection is lost. -/
def CreateCall.Goes (z : Zookeeper) (colonyNum : Nat) (c : CreateCall) :
    Nodes × CreatePc → Nodes × CreatePc → Prop :=
  Relation.ReflTransGen fun s t => c.step z colonyNum s.1 .fine s.2 = t

/-- Calls one after another, with their codes. -/
def runAll (z : Zookeeper) : Nodes → List CreateCall → Nodes × List Int
  | nodes, [] => (nodes, [])
  | nodes, c :: calls =>
    ((runAll z (c.run z nodes).1 calls).1, (c.run z nodes).2 :: (runAll z (c.run z nodes).1 calls).2)

/-- `c`, and calls like it with the values `values`. -/
def CreateCall.again (c : CreateCall) (values : List Bytes) : List CreateCall :=
  c :: values.map fun value => { c with value }

/-- All calls gave `ZOK`, the ancestors are permanent nodes, and the leaf has the last value. -/
structure CreatedOrUpdated (c : CreateCall) (values : List Bytes) (r : Nodes × List Int) : Prop where
  rets : ∀ ret ∈ r.2, ret = ZOK
  ancestors : ∀ path ∈ c.ancestors, ∃ node, r.1 path = some node ∧ node.ephemeral = false
  value : ∃ node, r.1 c.leaf = some node ∧ node.value = some (values.getLast?.getD c.value)

/-! ## The condition -/

/-- Nodes can be created below the parent of `path`: it is open and permanent, or it is one of those
that were made. -/
def ParentOpen (z : Zookeeper) (nodes : Nodes) (made : List Bytes) (path : Bytes) : Prop :=
  match nodes (parentPath path) with
  | some parent => z.allows parent = true ∧ parent.ephemeral = false
  | none => parentPath path ∈ made

/-- The paths, from the first one on, are accepted, and each that is missing can be created when those
before it are there. -/
def Makeable (z : Zookeeper) (nodes : Nodes) : (made rest : List Bytes) → Prop
  | _, [] => True
  | made, path :: rest =>
    z.accepts path = true ∧ (nodes path = none → path ∉ made → ParentOpen z nodes made path) ∧
      Makeable z nodes (made ++ [path]) rest

/-- The condition on the nodes. A leaf that is there is open, and one that is missing can be created
and is set no more, unless the server checks no rights. -/
structure Updatable (z : Zookeeper) (nodes : Nodes) (c : CreateCall) (values : List Bytes) :
    Prop where
  makeable : Makeable z nodes [] c.ancestors
  permanent : ∀ path ∈ c.ancestors, ∀ node, nodes path = some node → node.ephemeral = false
  accepts : z.accepts c.leaf = true
  found : ∀ node, nodes c.leaf = some node → z.allows node = true
  missing : nodes c.leaf = none →
    ParentOpen z nodes c.ancestors c.leaf ∧ (values = [] ∨ z.skipACL = true)

section

variable {z : Zookeeper} {colonyNum : Nat} {nodes : Nodes} {c : CreateCall} {path : Bytes}

theorem zooExists_ok_iff : z.zooExists nodes path = ZOK ↔ z.accepts path = true ∧ nodes path ≠ none := by
  unfold Zookeeper.zooExists
  cases hacc : z.accepts path <;> cases hn : nodes path <;> simp [ZOK, ZNONODE, ZBADARGUMENTS]

theorem zooExists_nonode_iff :
    z.zooExists nodes path = ZNONODE ↔ z.accepts path = true ∧ nodes path = none := by
  unfold Zookeeper.zooExists
  cases hacc : z.accepts path <;> cases hn : nodes path <;> simp [ZOK, ZNONODE, ZBADARGUMENTS]

theorem zooExists_not_lost (nodes : Nodes) (path : Bytes) :
    z.zooExists nodes path ≠ ZCONNECTIONLOSS := by
  unfold Zookeeper.zooExists
  cases hacc : z.accepts path <;> cases hn : nodes path <;>
    simp [ZOK, ZNONODE, ZBADARGUMENTS, ZCONNECTIONLOSS]

/-- A node that cannot be created is refused. -/
theorem zooCreate_refused (node : Node) (h : ¬ z.Creatable nodes path) :
    ∃ ret, z.zooCreate nodes path node = (nodes, ret) ∧ ret ≠ ZOK ∧ ret ≠ ZCONNECTIONLOSS := by
  unfold Zookeeper.zooCreate
  split
  · exact ⟨ZBADARGUMENTS, rfl, by decide, by decide⟩
  · rename_i hacc
    split
    · exact ⟨ZNONODE, rfl, by decide, by decide⟩
    · rename_i parent hparent
      split
      · exact ⟨ZNOAUTH, rfl, by decide, by decide⟩
      · rename_i hallows
        split
        · exact ⟨ZNODEEXISTS, rfl, by decide, by decide⟩
        · rename_i hnone
          split
          · exact ⟨ZNOCHILDRENFOREPHEMERALS, rfl, by decide, by decide⟩
          · rename_i heph
            exact absurd ⟨by simpa using hacc, hnone, parent, hparent, by simpa using hallows,
              by simpa using heph⟩ h

/-- A node that cannot be written is refused. -/
theorem zooSet_refused (value : Bytes) (h : ¬ z.Writable nodes path) :
    ∃ ret, z.zooSet nodes path value = (nodes, ret) ∧ ret ≠ ZOK ∧ ret ≠ ZCONNECTIONLOSS := by
  unfold Zookeeper.zooSet
  split
  · exact ⟨ZBADARGUMENTS, rfl, by decide, by decide⟩
  · rename_i hacc
    split
    · exact ⟨ZNONODE, rfl, by decide, by decide⟩
    · rename_i node hnode
      split
      · exact ⟨ZNOAUTH, rfl, by decide, by decide⟩
      · rename_i hallows
        exact absurd ⟨by simpa using hacc, node, hnode, by simpa using hallows⟩ h

theorem zooCreate_not_lost (nodes : Nodes) (path : Bytes) (node : Node) :
    (z.zooCreate nodes path node).2 ≠ ZCONNECTIONLOSS := by
  by_cases h : z.Creatable nodes path
  · rw [zooCreate_of_creatable node h]
    exact zok_ne_lost
  · obtain ⟨ret, heq, -, hret⟩ := zooCreate_refused node h
    rwa [heq]

theorem zooSet_not_lost (nodes : Nodes) (path value : Bytes) :
    (z.zooSet nodes path value).2 ≠ ZCONNECTIONLOSS := by
  by_cases h : z.Writable nodes path
  · obtain ⟨node, -, heq⟩ := zooSet_of_writable value h
    rw [heq]
    exact zok_ne_lost
  · obtain ⟨ret, heq, -, hret⟩ := zooSet_refused value h
    rwa [heq]

theorem CreateCall.Goes.head {s t u : Nodes × CreatePc}
    (h : c.step z colonyNum s.1 .fine s.2 = t) (ht : c.Goes z colonyNum t u) :
    c.Goes z colonyNum s u :=
  Relation.ReflTransGen.head h ht

/-- The steps over the ancestors. -/
theorem createAncestors_goes (rest : List Bytes) (nodes : Nodes) :
    c.Goes z colonyNum (nodes, .descend rest)
      ((z.createAncestors nodes rest).1,
        if (z.createAncestors nodes rest).2 ≠ ZOK then .returned (z.createAncestors nodes rest).2
        else .leafExists 0) := by
  induction rest generalizing nodes with
  | nil => exact Relation.ReflTransGen.refl
  | cons path rest ih =>
    have hlost := zooExists_not_lost (z := z) nodes path
    refine .head (t := (nodes, if z.zooExists nodes path = ZNONODE then .zooCreate path rest 0
      else if z.zooExists nodes path ≠ ZOK then .returned (z.zooExists nodes path)
      else .descend rest)) ?_ ?_
    · simp only [CreateCall.step, CreatePc.descend, Net.apply, loop_fine hlost]
    · rw [Zookeeper.createAncestors]
      by_cases hok : z.zooExists nodes path = ZOK
      · have hne : z.zooExists nodes path ≠ ZNONODE := by
          rw [hok]
          decide
        rw [if_neg hne, if_neg (not_not.mpr hok), if_pos hok]
        exact ih nodes
      · by_cases hno : z.zooExists nodes path = ZNONODE
        · rw [if_pos hno, if_neg hok, if_pos hno]
          have hlost' := zooCreate_not_lost (z := z) nodes path ancestorNode
          refine .head (t := ((z.zooCreate nodes path ancestorNode).1,
            if (z.zooCreate nodes path ancestorNode).2 ≠ ZOK then
              .returned (z.zooCreate nodes path ancestorNode).2
            else .descend rest)) ?_ ?_
          · simp only [CreateCall.step, Net.apply, loop_fine hlost']
          · by_cases hret : (z.zooCreate nodes path ancestorNode).2 = ZOK
            · simp only [hret, ne_eq, not_true_eq_false, if_false]
              exact ih _
            · simp only [ne_eq, hret, not_false_eq_true, if_true]
              exact Relation.ReflTransGen.refl
        · rw [if_neg hno, if_pos hok, if_neg hok, if_neg hno]
          simp only [ne_eq, hok, not_false_eq_true, if_true]
          exact Relation.ReflTransGen.refl

theorem setOrCreate_goes (nodes : Nodes) :
    c.Goes z colonyNum (nodes, .leafExists 0)
      ((z.setOrCreate nodes c).1, .returned (z.setOrCreate nodes c).2) := by
  have hlost := zooExists_not_lost (z := z) nodes c.leaf
  refine .head (t := (nodes, if z.zooExists nodes c.leaf = ZOK then .leafSet 0
    else if z.zooExists nodes c.leaf = ZNONODE then .leafCreate 0
    else .returned (z.zooExists nodes c.leaf))) ?_ ?_
  · simp only [CreateCall.step, Net.apply, loop_fine hlost]
  · rw [Zookeeper.setOrCreate]
    split
    · refine .head ?_ Relation.ReflTransGen.refl
      simp only [CreateCall.step, Net.apply, loop_fine (zooSet_not_lost nodes c.leaf c.value)]
    · split
      · refine .head ?_ Relation.ReflTransGen.refl
        simp only [CreateCall.step, Net.apply, loop_fine (zooCreate_not_lost nodes c.leaf c.leafNode)]
      · exact Relation.ReflTransGen.refl

/-- The steps of a call end as `CreateCall.run` says. -/
theorem CreateCall.run_goes (z : Zookeeper) (colonyNum : Nat) (nodes : Nodes) (c : CreateCall) :
    c.Goes z colonyNum (nodes, .called) ((c.run z nodes).1, .returned (c.run z nodes).2) := by
  unfold CreateCall.run
  split
  · rename_i h
    exact .head (by simp [CreateCall.step, h]) Relation.ReflTransGen.refl
  · rename_i h0
    split
    · rename_i h1
      exact .head (by simp [CreateCall.step, h1]) Relation.ReflTransGen.refl
    · rename_i h1
      refine .head (t := (nodes, .descend c.ancestors)) (by simp [CreateCall.step, h0, h1]) ?_
      refine (createAncestors_goes c.ancestors nodes).trans ?_
      by_cases hret : (z.createAncestors nodes c.ancestors).2 = ZOK
      · simp only [hret, ne_eq, not_true_eq_false, if_false]
        exact setOrCreate_goes _
      · simp only [ne_eq, hret, not_false_eq_true, if_true]
        exact Relation.ReflTransGen.refl

/-! ## The ancestors -/

/-- The nodes, with the missing ones of `made` as a call creates them. -/
def withAncestors (nodes : Nodes) (made : List Bytes) : Nodes := fun path =>
  match nodes path with
  | some node => some node
  | none => if made.contains path then some ancestorNode else none

@[simp] theorem withAncestors_nil (nodes : Nodes) : withAncestors nodes [] = nodes := by
  funext path
  cases h : nodes path <;> simp [withAncestors, h]

theorem withAncestors_eq_none {made : List Bytes} :
    withAncestors nodes made path = none ↔ nodes path = none ∧ path ∉ made := by
  cases h : nodes path <;> simp [withAncestors, h]

/-- A path that is there changes nothing. -/
theorem withAncestors_append_of_ne_none {made : List Bytes}
    (h : withAncestors nodes made path ≠ none) :
    withAncestors nodes (made ++ [path]) = withAncestors nodes made := by
  funext p
  unfold withAncestors
  cases hp : nodes p with
  | some node => rfl
  | none =>
    rcases eq_or_ne p path with rfl | hne
    · have hmem : p ∈ made := by
        by_contra hnot
        exact h (withAncestors_eq_none.mpr ⟨hp, hnot⟩)
      simp [hmem]
    · simp [hne]

theorem withAncestors_update {made : List Bytes} (h : withAncestors nodes made path = none) :
    Function.update (withAncestors nodes made) path (some ancestorNode) =
      withAncestors nodes (made ++ [path]) := by
  obtain ⟨hnone, -⟩ := withAncestors_eq_none.mp h
  funext p
  rcases eq_or_ne p path with rfl | hne
  · rw [Function.update_self]
    simp [withAncestors, hnone]
  · rw [Function.update_of_ne hne]
    unfold withAncestors
    cases hp : nodes p <;> simp [hne]

theorem creatable_withAncestors_iff {made : List Bytes} :
    z.Creatable (withAncestors nodes made) path ↔
      z.accepts path = true ∧ withAncestors nodes made path = none ∧ ParentOpen z nodes made path := by
  unfold Zookeeper.Creatable ParentOpen
  refine and_congr_right fun _ => and_congr_right fun _ => ?_
  unfold withAncestors
  cases hp : nodes (parentPath path) with
  | some parent => simp
  | none =>
    by_cases hmem : parentPath path ∈ made <;> simp [hmem, ancestorNode, Zookeeper.allows]

theorem createAncestors_of_makeable {made rest : List Bytes} (h : Makeable z nodes made rest) :
    z.createAncestors (withAncestors nodes made) rest =
      (withAncestors nodes (made ++ rest), ZOK) := by
  induction rest generalizing made with
  | nil => simp [Zookeeper.createAncestors]
  | cons path rest ih =>
    obtain ⟨hacc, hopen, hrest⟩ := h
    have ih := ih hrest
    rw [List.append_assoc, List.singleton_append] at ih
    rw [Zookeeper.createAncestors]
    by_cases hnone : withAncestors nodes made path = none
    · have hexists := zooExists_nonode_iff.mpr ⟨hacc, hnone⟩
      obtain ⟨h1, h2⟩ := withAncestors_eq_none.mp hnone
      have hcreate := zooCreate_of_creatable ancestorNode
        (creatable_withAncestors_iff.mpr ⟨hacc, hnone, hopen h1 h2⟩)
      rw [if_neg (by rw [hexists]; decide), if_pos hexists, hcreate, withAncestors_update hnone]
      simpa using ih
    · rw [if_pos (zooExists_ok_iff.mpr ⟨hacc, hnone⟩)]
      rwa [withAncestors_append_of_ne_none hnone] at ih

theorem createAncestors_of_not_makeable {made rest : List Bytes} (h : ¬ Makeable z nodes made rest) :
    (z.createAncestors (withAncestors nodes made) rest).2 ≠ ZOK := by
  induction rest generalizing made with
  | nil => exact absurd trivial h
  | cons path rest ih =>
    rw [Zookeeper.createAncestors]
    by_cases hacc : z.accepts path = true
    · by_cases hnone : withAncestors nodes made path = none
      · have hexists := zooExists_nonode_iff.mpr ⟨hacc, hnone⟩
        obtain ⟨h1, h2⟩ := withAncestors_eq_none.mp hnone
        rw [if_neg (by rw [hexists]; decide), if_pos hexists]
        by_cases hopen : ParentOpen z nodes made path
        · have hcreate := zooCreate_of_creatable ancestorNode
            (creatable_withAncestors_iff.mpr ⟨hacc, hnone, hopen⟩)
          rw [hcreate, withAncestors_update hnone]
          simpa using ih fun hrest => h ⟨hacc, fun _ _ => hopen, hrest⟩
        · obtain ⟨ret, heq, hret, -⟩ := zooCreate_refused ancestorNode
            fun hc => hopen (creatable_withAncestors_iff.mp hc).2.2
          simp [heq, hret]
      · rw [if_pos (zooExists_ok_iff.mpr ⟨hacc, hnone⟩), ← withAncestors_append_of_ne_none hnone]
        refine ih fun hrest => h ⟨hacc, fun h1 h2 => ?_, hrest⟩
        exact absurd (withAncestors_eq_none.mpr ⟨h1, h2⟩) hnone
    · have hok : z.zooExists (withAncestors nodes made) path ≠ ZOK :=
        fun hok => hacc (zooExists_ok_iff.mp hok).1
      have hno : z.zooExists (withAncestors nodes made) path ≠ ZNONODE :=
        fun hno => hacc (zooExists_nonode_iff.mp hno).1
      rw [if_neg hok, if_neg hno]
      exact hok

theorem leaf_notMem_ancestors (c : CreateCall) : c.leaf ∉ c.ancestors := by
  intro h
  simp only [CreateCall.ancestors, List.mem_filterMap, List.mem_range] at h
  obtain ⟨i, hi, h⟩ := h
  split at h
  · have := congrArg List.length (Option.some_inj.mp h)
    rw [List.length_take] at this
    omega
  · cases h

theorem makeable_accepts {made rest : List Bytes} (h : Makeable z nodes made rest) :
    ∀ path ∈ rest, z.accepts path = true := by
  induction rest generalizing made with
  | nil => simp
  | cons path rest ih =>
    intro p hp
    rcases List.mem_cons.mp hp with rfl | hp
    · exact h.1
    · exact ih h.2.2 p hp

theorem makeable_of_exist {made rest : List Bytes}
    (h : ∀ path ∈ rest, z.accepts path = true ∧ nodes path ≠ none) : Makeable z nodes made rest := by
  induction rest generalizing made with
  | nil => trivial
  | cons path rest ih =>
    obtain ⟨hacc, hne⟩ := h path (.head _)
    exact ⟨hacc, fun hnone => absurd hnone hne, ih fun p hp => h p (.tail _ hp)⟩

theorem withAncestors_of_exist {made : List Bytes} (h : ∀ path ∈ made, nodes path ≠ none) :
    withAncestors nodes made = nodes := by
  funext p
  unfold withAncestors
  cases hp : nodes p with
  | some node => rfl
  | none => exact if_neg fun hmem => h p (List.contains_iff_mem.mp hmem) hp

/-! ## One call -/

/-- The leaf behind a call that found `node` there. -/
def CreateCall.written (c : CreateCall) : Option Node → Node
  | some node => { node with value := some c.value }
  | none => c.leafNode

theorem withAncestors_leaf (c : CreateCall) : withAncestors nodes c.ancestors c.leaf = nodes c.leaf := by
  unfold withAncestors
  cases h : nodes c.leaf <;> simp [leaf_notMem_ancestors]

/-- What one call needs. -/
structure Runs (z : Zookeeper) (nodes : Nodes) (c : CreateCall) : Prop where
  makeable : Makeable z nodes [] c.ancestors
  accepts : z.accepts c.leaf = true
  found : ∀ node, nodes c.leaf = some node → z.allows node = true
  missing : nodes c.leaf = none → ParentOpen z nodes c.ancestors c.leaf

theorem run_eq (hcheck : 1 < zookeeperPathCheck c.path) : c.run z nodes =
    if (z.createAncestors nodes c.ancestors).2 ≠ ZOK then z.createAncestors nodes c.ancestors
    else z.setOrCreate (z.createAncestors nodes c.ancestors).1 c := by
  rw [CreateCall.run, if_neg (by omega), if_neg (by omega)]

/-- A call that has what it needs writes the leaf. -/
theorem Runs.run (h : Runs z nodes c) (hcheck : 1 < zookeeperPathCheck c.path) : c.run z nodes =
    (Function.update (withAncestors nodes c.ancestors) c.leaf (some (c.written (nodes c.leaf))),
      ZOK) := by
  have hall := createAncestors_of_makeable h.makeable
  rw [withAncestors_nil, List.nil_append] at hall
  rw [run_eq hcheck, hall, if_neg (by simp), Zookeeper.setOrCreate]
  cases hleaf : nodes c.leaf with
  | some node =>
    have hleaf' : withAncestors nodes c.ancestors c.leaf = some node := by
      rw [withAncestors_leaf, hleaf]
    have hwritable : z.Writable (withAncestors nodes c.ancestors) c.leaf :=
      ⟨h.accepts, node, hleaf', h.found node hleaf⟩
    obtain ⟨node', hnode', hset⟩ := zooSet_of_writable c.value hwritable
    rw [hleaf'] at hnode'
    cases hnode'
    rw [if_pos (zooExists_ok_iff.mpr ⟨h.accepts, by simp [hleaf']⟩), hset]
    rfl
  | none =>
    have hleaf' : withAncestors nodes c.ancestors c.leaf = none := by
      rw [withAncestors_leaf, hleaf]
    have hexists := zooExists_nonode_iff.mpr ⟨h.accepts, hleaf'⟩
    rw [if_neg (by rw [hexists]; decide), if_pos hexists]
    exact zooCreate_of_creatable c.leafNode
      (creatable_withAncestors_iff.mpr ⟨h.accepts, hleaf', h.missing hleaf⟩)

/-- A call that gives `ZOK` had what it needs. -/
theorem runs_of_run (hcheck : 1 < zookeeperPathCheck c.path) (h : (c.run z nodes).2 = ZOK) :
    Runs z nodes c := by
  rw [run_eq hcheck] at h
  have hmake : Makeable z nodes [] c.ancestors := by
    by_contra hnot
    have hret := createAncestors_of_not_makeable hnot
    rw [withAncestors_nil] at hret
    rw [if_pos hret] at h
    exact hret h
  have hall := createAncestors_of_makeable hmake
  rw [withAncestors_nil, List.nil_append] at hall
  rw [hall, if_neg (by simp), Zookeeper.setOrCreate] at h
  have hacc : z.accepts c.leaf = true := by
    by_contra hacc
    rw [if_neg fun hok => hacc (zooExists_ok_iff.mp hok).1,
      if_neg fun hno => hacc (zooExists_nonode_iff.mp hno).1] at h
    exact hacc (zooExists_ok_iff.mp h).1
  refine ⟨hmake, hacc, fun node hleaf => ?_, fun hleaf => ?_⟩
  · have hleaf' : withAncestors nodes c.ancestors c.leaf = some node := by
      rw [withAncestors_leaf, hleaf]
    rw [if_pos (zooExists_ok_iff.mpr ⟨hacc, by simp [hleaf']⟩)] at h
    by_contra hallows
    have hnot : ¬ z.Writable (withAncestors nodes c.ancestors) c.leaf := by
      rintro ⟨-, node', hnode', hallows'⟩
      have hnode' : withAncestors nodes c.ancestors c.leaf = some node' := hnode'
      rw [hleaf'] at hnode'
      cases hnode'
      exact hallows hallows'
    obtain ⟨ret, heq, hret, -⟩ := zooSet_refused c.value hnot
    rw [heq] at h
    exact hret h
  · have hleaf' : withAncestors nodes c.ancestors c.leaf = none := by
      rw [withAncestors_leaf, hleaf]
    have hexists := zooExists_nonode_iff.mpr ⟨hacc, hleaf'⟩
    rw [if_neg (by rw [hexists]; decide), if_pos hexists] at h
    by_contra hopen
    obtain ⟨ret, heq, hret, -⟩ := zooCreate_refused c.leafNode
      fun hc => hopen (creatable_withAncestors_iff.mp hc).2.2
    rw [heq] at h
    exact hret h

/-! ## All calls -/

/-- The ancestors are as in `base`, where they all are, and the leaf is `node`. -/
structure Settled (z : Zookeeper) (base nodes : Nodes) (c : CreateCall) (node : Node) : Prop where
  ancestors : ∀ path ∈ c.ancestors, z.accepts path = true ∧ nodes path = base path ∧ base path ≠ none
  accepts : z.accepts c.leaf = true
  leaf : nodes c.leaf = some node

section

variable {base : Nodes} {node : Node}

theorem Settled.exists (h : Settled z base nodes c node) : ∀ path ∈ c.ancestors, nodes path ≠ none := by
  intro path hp
  obtain ⟨-, heq, hne⟩ := h.ancestors path hp
  rwa [heq]

/-- Another call like `c` sets the leaf if it may. -/
theorem Settled.runs_iff (h : Settled z base nodes c node) (value : Bytes) :
    Runs z nodes { c with value } ↔ z.allows node = true := by
  constructor
  · intro hr
    exact hr.found node h.leaf
  · intro hallows
    refine ⟨makeable_of_exist fun path hp => ⟨(h.ancestors path hp).1, h.exists path hp⟩, h.accepts,
      fun node' hnode' => ?_, fun hnone => ?_⟩
    · have hnode' : nodes c.leaf = some node' := hnode'
      rw [h.leaf] at hnode'
      cases hnode'
      exact hallows
    · have hnone : nodes c.leaf = none := hnone
      rw [h.leaf] at hnone
      cases hnone

theorem Settled.update (h : Settled z base nodes c node) (node' : Node) :
    Settled z base (Function.update nodes c.leaf (some node')) c node' where
  ancestors path hp := by
    have hne : path ≠ c.leaf := fun heq => leaf_notMem_ancestors c (heq ▸ hp)
    rw [Function.update_of_ne hne]
    exact h.ancestors path hp
  accepts := h.accepts
  leaf := Function.update_self ..

theorem Settled.run (h : Settled z base nodes c node) (hallows : z.allows node = true)
    (hcheck : 1 < zookeeperPathCheck c.path) (value : Bytes) :
    CreateCall.run z nodes { c with value } =
      (Function.update nodes c.leaf (some { node with value := some value }), ZOK) := by
  have hrun := ((h.runs_iff value).mpr hallows).run hcheck
  rw [show ({ c with value } : CreateCall).leaf = c.leaf from rfl,
    show ({ c with value } : CreateCall).ancestors = c.ancestors from rfl,
    withAncestors_of_exist h.exists, h.leaf] at hrun
  exact hrun

/-- All calls behind the first one, if there are any. -/
theorem Settled.runAll (h : Settled z base nodes c node) {values : List Bytes}
    (hallows : values = [] ∨ z.allows node = true) (hcheck : 1 < zookeeperPathCheck c.path) :
    (∀ ret ∈ (runAll z nodes (values.map fun value => { c with value })).2, ret = ZOK) ∧
      Settled z base (runAll z nodes (values.map fun value => { c with value })).1 c
        { node with value := (values.getLast?.map some).getD node.value } := by
  induction values generalizing nodes node with
  | nil => exact ⟨by simp [Zookconfig.runAll], h⟩
  | cons value values ih =>
    have hallows := hallows.resolve_left (List.cons_ne_nil _ _)
    have hrun := h.run hallows hcheck value
    obtain ⟨hrets, hsettled⟩ := ih (h.update { node with value := some value }) (.inr hallows)
    simp only [List.map_cons, Zookconfig.runAll, hrun]
    refine ⟨?_, ?_⟩
    · intro ret hret
      rcases List.mem_cons.mp hret with rfl | hret
      · rfl
      · exact hrets ret hret
    · cases values with
      | nil => exact hsettled
      | cons w values =>
        obtain ⟨last, hlast⟩ : ∃ last, (w :: values).getLast? = some last :=
          Option.isSome_iff_exists.mp (by simp)
        rw [List.getLast?_cons_cons, hlast]
        rw [hlast] at hsettled
        exact hsettled

end

/-- The first call has found and made what it needs. -/
theorem Runs.settled (h : Runs z nodes c) :
    Settled z (withAncestors nodes c.ancestors)
      (Function.update (withAncestors nodes c.ancestors) c.leaf
        (some (c.written (nodes c.leaf)))) c (c.written (nodes c.leaf)) where
  ancestors path hp := by
    have hne : path ≠ c.leaf := fun heq => leaf_notMem_ancestors c (heq ▸ hp)
    refine ⟨makeable_accepts h.makeable path hp, Function.update_of_ne hne .., fun hnone => ?_⟩
    exact (withAncestors_eq_none.mp hnone).2 hp
  accepts := h.accepts
  leaf := Function.update_self ..

theorem written_value (c : CreateCall) (old : Option Node) :
    (c.written old).value = some c.value := by
  cases old <;> rfl

/-- An ancestor is a permanent node if it was one, or was made. -/
theorem permanent_withAncestors_iff {made : List Bytes} (hmem : path ∈ made) :
    (∃ node, withAncestors nodes made path = some node ∧ node.ephemeral = false) ↔
      ∀ node, nodes path = some node → node.ephemeral = false := by
  unfold withAncestors
  cases hnode : nodes path with
  | some node => simp
  | none => simp [hmem, ancestorNode]

/-- **Create or update.** The calls all give `ZOK`, and leave permanent ancestors and the last value,
exactly for the nodes of the condition. -/
theorem create_or_update_iff (z : Zookeeper) (nodes : Nodes) (c : CreateCall) (values : List Bytes)
    (hcheck : 1 < zookeeperPathCheck c.path) :
    CreatedOrUpdated c values (runAll z nodes (c.again values)) ↔ Updatable z nodes c values := by
  constructor
  · rintro ⟨hrets, hancestors, -⟩
    have hruns : Runs z nodes c := runs_of_run hcheck (hrets _ (.head _))
    have hrun := hruns.run hcheck
    have hsettled := hruns.settled
    simp only [CreateCall.again, runAll, hrun] at hrets hancestors
    -- the second call sets the leaf that the first one has written
    have hallows : values = [] ∨ z.allows (c.written (nodes c.leaf)) = true := by
      cases values with
      | nil => exact .inl rfl
      | cons value values =>
        refine .inr ((hsettled.runs_iff value).mp (runs_of_run hcheck (hrets _ ?_)))
        simp [runAll]
    refine ⟨hruns.makeable, fun path hp => ?_, hruns.accepts, hruns.found, fun hnone => ?_⟩
    · refine (permanent_withAncestors_iff hp).mp ?_
      rw [← ((hsettled.runAll hallows hcheck).2.ancestors path hp).2.1]
      exact hancestors path hp
    · refine ⟨hruns.missing hnone, hallows.imp_right fun hallows => ?_⟩
      rw [hnone] at hallows
      simpa [CreateCall.written, CreateCall.leafNode, Zookeeper.allows] using hallows
  · intro h
    have hruns : Runs z nodes c := ⟨h.makeable, h.accepts, h.found, fun hnone => (h.missing hnone).1⟩
    have hrun := hruns.run hcheck
    have hsettled := hruns.settled
    have hallows : values = [] ∨ z.allows (c.written (nodes c.leaf)) = true := by
      cases hleaf : nodes c.leaf with
      | some node => exact .inr (h.found node hleaf)
      | none =>
        refine (h.missing hleaf).2.imp_right fun hskip => ?_
        simp [Zookeeper.allows, hskip]
    obtain ⟨hrets, hlast⟩ := hsettled.runAll hallows hcheck
    simp only [CreateCall.again, runAll, hrun]
    refine ⟨fun ret hret => ?_, fun path hp => ?_, ?_⟩
    · rcases List.mem_cons.mp hret with rfl | hret
      · rfl
      · exact hrets ret hret
    · have hpermanent := (permanent_withAncestors_iff hp).mpr (h.permanent path hp)
      rwa [← (hlast.ancestors path hp).2.1] at hpermanent
    · refine ⟨_, hlast.leaf, ?_⟩
      rw [written_value]
      cases values.getLast? <;> rfl

end

/-! ## A new path -/

/-- A server that accepts every path and checks the rights. -/
def checkingServer : Zookeeper := ⟨fun _ => true, false⟩

/-- `createForeverPath("/a", "1")` -/
def newPath : CreateCall := ⟨.createForeverPath, [47, 97], [49]⟩

/-- `/a` is there, and open: two calls set it. -/
theorem create_or_update_open : CreatedOrUpdated newPath [[50]]
    (runAll checkingServer (Function.update onlyRoot [47, 97] (some ancestorNode))
      (newPath.again [[50]])) := by
  refine (create_or_update_iff checkingServer _ newPath [[50]] (by decide)).mpr
    ⟨trivial, by decide, rfl, fun node hnode => ?_, fun hnone => ?_⟩
  · cases hnode
    rfl
  · cases hnone

/-- `/a` is new: the second call may not set what the first one has created. -/
theorem second_set_refused :
    (runAll checkingServer onlyRoot (newPath.again [[50]])).2 = [ZOK, ZNOAUTH] ∧
    ¬ ∀ (c : CreateCall) (values : List Bytes), 1 < zookeeperPathCheck c.path →
      CreatedOrUpdated c values (runAll checkingServer onlyRoot (c.again values)) := by
  have hrets : (runAll checkingServer onlyRoot (newPath.again [[50]])).2 = [ZOK, ZNOAUTH] := by decide
  refine ⟨hrets, fun h => ?_⟩
  have hok := (h newPath [[50]] (by decide)).rets ZNOAUTH (by rw [hrets]; simp)
  exact absurd hok (by decide)

end Zookconfig
end CmakeFrame
