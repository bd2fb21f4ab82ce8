import CmakeFrame.Lib.Sys
import CmakeFrame.Lib.Threads
import CmakeFrame.Zookconfig.ZookConfig
import Mathlib.Tactic.Ring

/-!
# `createSessionPath` and `createForeverPath` of several sessions

Both look for every ancestor of a path and create the missing ones, and then set or create the leaf;
they differ in the leaf that they create. Each call of zookeeper is one step of a store of nodes, and
the connection may be lost before it or behind it.

* `Node`, `Zookeeper`, `zooExists`, `zooCreate`, `zooSet`: the store.
* `CreatePc`, `CreateState`, `createSystem`: any number of calls, step by step.
* `Registered`: every call that has returned gave `ZOK`, its ancestors exist, and its leaf has the
  value of one of the calls for it.
* `Alone`: the condition on a step; `CreateInv`: the invariant; `registration`: in every run whose
  steps all meet the condition; every call can go on until it returns, and does return.
* `sibling_create_fails`: two calls that share a missing ancestor.
-/

namespace CmakeFrame
namespace Zookconfig

open Lib

/-! ## The store -/

/-- `ZOO_OPEN_ACL_UNSAFE` and `ZOO_READ_ACL_UNSAFE` -/
inductive Acl where
  | openUnsafe
  | readUnsafe
  deriving DecidableEq, Repr

/-- A node; a null value is `none`. -/
structure Node where
  value : Option Bytes
  acl : Acl
  ephemeral : Bool
  deriving DecidableEq, Repr

/-- A server: the paths that it accepts, and whether it leaves out the check of the rights. -/
structure Zookeeper where
  accepts : Bytes → Bool
  skipACL : Bool

abbrev Nodes := Bytes → Option Node

/-- The path up to its last slash, which is `/` for a child of the root. -/
def parentPath (path : Bytes) : Bytes :=
  match ((path.reverse.dropWhile (· ≠ 47)).drop 1).reverse with
  | [] => [47]
  | parent => parent

namespace Zookeeper

/-- Whether anybody may write a node, and create nodes below it. -/
def allows (z : Zookeeper) (node : Node) : Bool := z.skipACL || node.acl = .openUnsafe

def zooExists (z : Zookeeper) (nodes : Nodes) (path : Bytes) : Int :=
  if ¬ z.accepts path then ZBADARGUMENTS
  else match nodes path with
    | none => ZNONODE
    | some _ => ZOK

def zooCreate (z : Zookeeper) (nodes : Nodes) (path : Bytes) (node : Node) : Nodes × Int :=
  if ¬ z.accepts path then (nodes, ZBADARGUMENTS)
  else match nodes (parentPath path) with
    | none => (nodes, ZNONODE)
    | some parent =>
      if ¬ z.allows parent then (nodes, ZNOAUTH)
      else match nodes path with
        | some _ => (nodes, ZNODEEXISTS)
        | none =>
          if parent.ephemeral then (nodes, ZNOCHILDRENFOREPHEMERALS)
          else (Function.update nodes path (some node), ZOK)

def zooSet (z : Zookeeper) (nodes : Nodes) (path value : Bytes) : Nodes × Int :=
  if ¬ z.accepts path then (nodes, ZBADARGUMENTS)
  else match nodes path with
    | none => (nodes, ZNONODE)
    | some node =>
      if ¬ z.allows node then (nodes, ZNOAUTH)
      else (Function.update nodes path (some { node with value := some value }), ZOK)

/-- A node can be created: it is missing, and its parent is there and open. -/
def Creatable (z : Zookeeper) (nodes : Nodes) (path : Bytes) : Prop :=
  z.accepts path = true ∧ nodes path = none ∧
    ∃ parent ∈ nodes (parentPath path), z.allows parent = true ∧ parent.ephemeral = false

/-- A node can be written. -/
def Writable (z : Zookeeper) (nodes : Nodes) (path : Bytes) : Prop :=
  z.accepts path = true ∧ ∃ node ∈ nodes path, z.allows node = true

instance (z : Zookeeper) (nodes : Nodes) (path : Bytes) : Decidable (z.Creatable nodes path) :=
  inferInstanceAs (Decidable (_ ∧ _ ∧ _))

instance (z : Zookeeper) (nodes : Nodes) (path : Bytes) : Decidable (z.Writable nodes path) :=
  inferInstanceAs (Decidable (_ ∧ _))

end Zookeeper

/-! ## The calls -/

inductive CreateKind where
  | createSessionPath
  | createForeverPath
  deriving DecidableEq, Repr

structure CreateCall where
  kind : CreateKind
  path : Bytes
  value : Bytes
  deriving DecidableEq, Repr

namespace CreateCall

/-- `pathArray`, with every slash in its place. -/
def leaf (c : CreateCall) : Bytes := cstr c.path

/-- `pathArray` at each slash behind the first byte, cut there. -/
def ancestors (c : CreateCall) : List Bytes :=
  (List.range c.leaf.length).filterMap fun i =>
    if 1 ≤ i ∧ c.leaf[i]? = some 47 then some (c.leaf.take i) else none

/-- The leaf, as the call creates it. -/
def leafNode (c : CreateCall) : Node where
  value := some c.value
  acl := .readUnsafe
  ephemeral := match c.kind with
    | .createSessionPath => true
    | .createForeverPath => false

end CreateCall

/-- An ancestor, as a call creates it. -/
def ancestorNode : Node := ⟨none, .openUnsafe, false⟩

/-- Where a call is: before the call of zookeeper that the name says. `rest` are the ancestors behind
`path`. -/
inductive CreatePc where
  /-- Before `zookeeperPathCheck`. -/
  | called
  | zooExists (path : Bytes) (rest : List Bytes) (tryTime : Nat)
  | zooCreate (path : Bytes) (rest : List Bytes) (tryTime : Nat)
  | leafExists (tryTime : Nat)
  | leafSet (tryTime : Nat)
  | leafCreate (tryTime : Nat)
  | returned (ret : Int)
  deriving DecidableEq, Repr

/-- The loop over the ancestors. -/
def CreatePc.descend : List Bytes → CreatePc
  | [] => .leafExists 0
  | path :: rest => .zooExists path rest 0

/-- What the connection does to one call of zookeeper. -/
inductive Net where
  | fine
  | lostBefore
  | lostBehind
  deriving DecidableEq, Repr

/-- The nodes and the result of a call of zookeeper, under `net`. -/
def Net.apply (net : Net) (nodes : Nodes) (answer : Nodes × Int) : Nodes × Int :=
  match net with
  | .fine => answer
  | .lostBefore => (nodes, ZCONNECTIONLOSS)
  | .lostBehind => (answer.1, ZCONNECTIONLOSS)

/-- The end of one turn of a `do { … } while(tryTime < colonyNum)`: another turn, or what follows. -/
def loop (colonyNum tryTime : Nat) (ret : Int) (again : Nat → CreatePc) (next : Int → CreatePc) :
    CreatePc :=
  if ret = ZCONNECTIONLOSS ∧ tryTime + 1 < colonyNum then again (tryTime + 1) else next ret

/-- The next step of a call. -/
def CreateCall.step (z : Zookeeper) (colonyNum : Nat) (c : CreateCall) (nodes : Nodes) (net : Net) :
    CreatePc → Nodes × CreatePc
  | .called =>
    if zookeeperPathCheck c.path ≤ 0 then (nodes, .returned (zookeeperPathCheck c.path))
    else if zookeeperPathCheck c.path = 1 then (nodes, .returned ZOOK_CONFIG_PARAMETER_ERROR)
    else (nodes, .descend c.ancestors)
  | .zooExists path rest tryTime =>
    match net.apply nodes (nodes, z.zooExists nodes path) with
    | (nodes, ret) =>
      (nodes, loop colonyNum tryTime ret (.zooExists path rest) fun ret =>
        if ret = ZNONODE then .zooCreate path rest 0
        else if ret ≠ ZOK then .returned ret
        else .descend rest)
  | .zooCreate path rest tryTime =>
    match net.apply nodes (z.zooCreate nodes path ancestorNode) with
    | (nodes, ret) =>
      (nodes, loop colonyNum tryTime ret (.zooCreate path rest) fun ret =>
        if ret ≠ ZOK then .returned ret else .descend rest)
  | .leafExists tryTime =>
    match net.apply nodes (nodes, z.zooExists nodes c.leaf) with
    | (nodes, ret) =>
      (nodes, loop colonyNum tryTime ret .leafExists fun ret =>
        if ret = ZOK then .leafSet 0
        else if ret = ZNONODE then .leafCreate 0
        else .returned ret)
  | .leafSet tryTime =>
    match net.apply nodes (z.zooSet nodes c.leaf c.value) with
    | (nodes, ret) => (nodes, loop colonyNum tryTime ret .leafSet .returned)
  | .leafCreate tryTime =>
    match net.apply nodes (z.zooCreate nodes c.leaf c.leafNode) with
    | (nodes, ret) => (nodes, loop colonyNum tryTime ret .leafCreate .returned)
  | .returned ret => (nodes, .returned ret)

structure CreateTask where
  call : CreateCall
  pc : CreatePc
  deriving DecidableEq, Repr

structure CreateState where
  nodes : Nodes
  tasks : List CreateTask

/-- The next step of call `i`. -/
structure CreateAct where
  i : Nat
  net : Net
  deriving DecidableEq, Repr

/-- A call has returned. -/
def CreatePc.ended : CreatePc → Bool
  | .returned _ => true
  | .called | .zooExists _ _ _ | .zooCreate _ _ _ | .leafExists _ | .leafSet _ | .leafCreate _ =>
    false

def CreateState.next (z : Zookeeper) (colonyNum : Nat) (s : CreateState) (a : CreateAct) :
    Option CreateState :=
  match s.tasks[a.i]? with
  | none => none
  | some t =>
    if t.pc.ended then none
    else match t.call.step z colonyNum s.nodes a.net t.pc with
      | (nodes, pc) => some ⟨nodes, s.tasks.set a.i { t with pc }⟩

/-- The calls `calls`, none of which has begun. -/
def createSystem (z : Zookeeper) (colonyNum : Nat) (nodes : Nodes) (calls : List CreateCall) :
    Sys CreateState CreateAct where
  init := ⟨nodes, calls.map fun call => ⟨call, .called⟩⟩
  next := CreateState.next z colonyNum

/-! ## What a registration is -/

/-- The leaf of `c` has the value of one of the calls for it. -/
def HasValue (calls : List CreateCall) (nodes : Nodes) (path : Bytes) : Prop :=
  ∃ c ∈ calls, c.leaf = path ∧ ∃ node, nodes path = some node ∧ node.value = some c.value

/-- The tasks are the calls, and each that has returned gave `ZOK`, its ancestors exist, and its leaf
has the value of one of the calls for it. -/
def Registered (calls : List CreateCall) (s : CreateState) : Prop :=
  s.tasks.map (·.call) = calls ∧ ∀ t ∈ s.tasks, ∀ ret, t.pc = .returned ret → ret = ZOK ∧
    (∀ path ∈ t.call.ancestors, s.nodes path ≠ none) ∧ HasValue calls s.nodes t.call.leaf

/-- The number of the try that a call is in. -/
def CreatePc.tryTime : CreatePc → Nat
  | .zooExists _ _ n | .zooCreate _ _ n | .leafExists n | .leafSet n | .leafCreate n => n
  | .called | .returned _ => 0

/-- The nodes are as the next step of a call needs them: the path passes the check and zookeeper
accepts it, a node that is created is still missing and its parent is open, and a leaf that is set is
open. -/
def CreatePc.Ready (z : Zookeeper) (nodes : Nodes) (c : CreateCall) : CreatePc → Prop
  | .called => 1 < zookeeperPathCheck c.path
  | .zooExists path _ _ => z.accepts path = true
  | .zooCreate path _ _ => z.Creatable nodes path
  | .leafExists _ => z.accepts c.leaf = true
  | .leafSet _ => z.Writable nodes c.leaf
  | .leafCreate _ => z.Creatable nodes c.leaf
  | .returned _ => True

/-- The condition on the next step of a call: the nodes are as it needs them, and the connection is
lost less than `colonyNum` times in a row. -/
def CreateTask.Alone (z : Zookeeper) (colonyNum : Nat) (nodes : Nodes) (t : CreateTask)
    (net : Net) : Prop :=
  (net = .fine ∨ t.pc.tryTime + 1 < colonyNum) ∧ t.pc.Ready z nodes t.call

/-- The condition on a step. -/
def Alone (z : Zookeeper) (colonyNum : Nat) (s : CreateState) (a : CreateAct) : Prop :=
  ∀ t ∈ s.tasks[a.i]?, t.Alone z colonyNum s.nodes a.net

instance (z : Zookeeper) (nodes : Nodes) (c : CreateCall) :
    (pc : CreatePc) → Decidable (pc.Ready z nodes c)
  | .called => inferInstanceAs (Decidable (_ < _))
  | .zooExists path _ _ => inferInstanceAs (Decidable (z.accepts path = true))
  | .zooCreate path _ _ => inferInstanceAs (Decidable (z.Creatable nodes path))
  | .leafExists _ => inferInstanceAs (Decidable (z.accepts c.leaf = true))
  | .leafSet _ => inferInstanceAs (Decidable (z.Writable nodes c.leaf))
  | .leafCreate _ => inferInstanceAs (Decidable (z.Creatable nodes c.leaf))
  | .returned _ => inferInstanceAs (Decidable True)

instance (z : Zookeeper) (colonyNum : Nat) (nodes : Nodes) (t : CreateTask) (net : Net) :
    Decidable (t.Alone z colonyNum nodes net) :=
  inferInstanceAs (Decidable (_ ∧ _))

instance (z : Zookeeper) (colonyNum : Nat) (s : CreateState) (a : CreateAct) :
    Decidable (Alone z colonyNum s a) :=
  inferInstanceAs (Decidable (∀ t ∈ s.tasks[a.i]?, _))

/-! ## One call of zookeeper -/

section

variable {z : Zookeeper} {colonyNum tryTime : Nat} {nodes nodes' : Nodes} {path : Bytes}

theorem zooCreate_of_creatable (node : Node) (h : z.Creatable nodes path) :
    z.zooCreate nodes path node = (Function.update nodes path (some node), ZOK) := by
  obtain ⟨hacc, hnone, parent, hparent, hallows, heph⟩ := h
  have hparent : nodes (parentPath path) = some parent := hparent
  simp [Zookeeper.zooCreate, hacc, hparent, hallows, hnone, heph]

theorem zooSet_of_writable (value : Bytes) (h : z.Writable nodes path) :
    ∃ node, nodes path = some node ∧ z.zooSet nodes path value =
      (Function.update nodes path (some { node with value := some value }), ZOK) := by
  obtain ⟨hacc, node, hnode, hallows⟩ := h
  have hnode : nodes path = some node := hnode
  exact ⟨node, hnode, by simp [Zookeeper.zooSet, hacc, hnode, hallows]⟩

theorem zooExists_cases (nodes : Nodes) (h : z.accepts path = true) :
    (z.zooExists nodes path = ZNONODE ∧ nodes path = none) ∨
    (z.zooExists nodes path = ZOK ∧ nodes path ≠ none) := by
  unfold Zookeeper.zooExists
  cases hn : nodes path <;> simp [h]

theorem zooExists_ne_lost (nodes : Nodes) (h : z.accepts path = true) :
    z.zooExists nodes path ≠ ZCONNECTIONLOSS := by
  rcases zooExists_cases nodes h with ⟨hret, -⟩ | ⟨hret, -⟩
  · rw [hret]
    decide
  · rw [hret]
    decide

theorem zok_ne_lost : ZOK ≠ ZCONNECTIONLOSS := by decide

/-- The connection is lost, and there is another try. -/
theorem loop_lost {again : Nat → CreatePc} {next : Int → CreatePc} (h : tryTime + 1 < colonyNum) :
    loop colonyNum tryTime ZCONNECTIONLOSS again next = again (tryTime + 1) :=
  if_pos ⟨rfl, h⟩

theorem loop_fine {ret : Int} {again : Nat → CreatePc} {next : Int → CreatePc}
    (h : ret ≠ ZCONNECTIONLOSS) : loop colonyNum tryTime ret again next = next ret :=
  if_neg fun hc => h hc.1

/-- What one step of the call `c` does to the nodes. -/
inductive Effect (c : CreateCall) (nodes : Nodes) : Nodes → Prop
  | same : Effect c nodes nodes
  | create (path : Bytes) (node : Node) : nodes path = none →
      Effect c nodes (Function.update nodes path (some node))
  | set (node : Node) :
      Effect c nodes (Function.update nodes c.leaf (some { node with value := some c.value }))

namespace Effect

variable {c : CreateCall} {calls : List CreateCall}

/-- No node goes away. -/
theorem mono (h : Effect c nodes nodes') (hp : nodes path ≠ none) : nodes' path ≠ none := by
  cases h with
  | same => exact hp
  | create p n _ =>
    by_cases he : path = p
    · simp [he]
    · rwa [Function.update_of_ne he]
  | set n =>
    by_cases he : path = c.leaf
    · simp [he]
    · rwa [Function.update_of_ne he]

/-- A value of one of the calls stays one. -/
theorem hasValue (h : Effect c nodes nodes') (hc : c ∈ calls) (hv : HasValue calls nodes path) :
    HasValue calls nodes' path := by
  obtain ⟨d, hd, hleaf, n, hn, hval⟩ := hv
  cases h with
  | same => exact ⟨d, hd, hleaf, n, hn, hval⟩
  | create p m hnone =>
    have hne : path ≠ p := by
      rintro rfl
      simp [hnone] at hn
    exact ⟨d, hd, hleaf, n, by rwa [Function.update_of_ne hne], hval⟩
  | set m =>
    by_cases he : path = c.leaf
    · exact ⟨c, hc, he.symm, { m with value := some c.value }, by rw [he, Function.update_self], rfl⟩
    · exact ⟨d, hd, hleaf, n, by rwa [Function.update_of_ne he], hval⟩

end Effect

end

/-! ## The invariant -/

section

variable {z : Zookeeper} {colonyNum : Nat} {nodes : Nodes} {calls : List CreateCall}
  {c : CreateCall} {net : Net}

/-- The ancestors that a call has still to look at. -/
def CreateCall.todo (c : CreateCall) : CreatePc → List Bytes
  | .called => c.ancestors
  | .zooExists path rest _ | .zooCreate path rest _ => path :: rest
  | .leafExists _ | .leafSet _ | .leafCreate _ | .returned _ => []

@[simp] theorem todo_descend (c : CreateCall) (rest : List Bytes) :
    c.todo (.descend rest) = rest := by
  cases rest <;> rfl

@[simp] theorem descend_ne_returned (rest : List Bytes) (ret : Int) :
    CreatePc.descend rest ≠ .returned ret := by
  cases rest <;> simp [CreatePc.descend]

/-- The ancestors that a call has left behind exist, and if it has returned, so does its leaf. -/
structure TaskOk (calls : List CreateCall) (nodes : Nodes) (c : CreateCall) (pc : CreatePc) :
    Prop where
  passed : ∀ path ∈ c.ancestors, path ∈ c.todo pc ∨ nodes path ≠ none
  returned : ∀ ret, pc = .returned ret → ret = ZOK ∧ HasValue calls nodes c.leaf

theorem TaskOk.mono {nodes' : Nodes} {d : CreateCall} {pc : CreatePc} (h : TaskOk calls nodes c pc)
    (hd : d ∈ calls) (he : Effect d nodes nodes') : TaskOk calls nodes' c pc where
  passed path hp := (h.passed path hp).imp_right he.mono
  returned ret hr := ⟨(h.returned ret hr).1, he.hasValue hd (h.returned ret hr).2⟩

/-- The call goes on with the same ancestors ahead. -/
theorem TaskOk.go {pc pc' : CreatePc} (h : TaskOk calls nodes c pc) (htodo : c.todo pc' = c.todo pc)
    (hret : ∀ ret, pc' ≠ .returned ret) : TaskOk calls nodes c pc' where
  passed path hp := by
    rw [htodo]
    exact h.passed path hp
  returned ret hr := absurd hr (hret ret)

/-- The ancestor at the head is there. -/
theorem TaskOk.descend {pc : CreatePc} {path : Bytes} {rest : List Bytes}
    (h : TaskOk calls nodes c pc) (htodo : c.todo pc = path :: rest) (hnode : nodes path ≠ none) :
    TaskOk calls nodes c (.descend rest) where
  passed p hp := by
    rw [todo_descend]
    rcases h.passed p hp with hin | hn
    · rw [htodo] at hin
      rcases List.mem_cons.mp hin with rfl | hin
      · exact .inr hnode
      · exact .inl hin
    · exact .inr hn
  returned ret hr := absurd hr (descend_ne_returned rest ret)

/-- The leaf has been written. -/
theorem TaskOk.finish {pc : CreatePc} (h : TaskOk calls nodes c pc) (htodo : c.todo pc = [])
    (hv : HasValue calls nodes c.leaf) : TaskOk calls nodes c (.returned ZOK) where
  passed path hp := by
    rcases h.passed path hp with hin | hn
    · rw [htodo] at hin
      cases hin
    · exact .inr hn
  returned ret hr := by
    cases hr
    exact ⟨rfl, hv⟩

theorem hasValue_update (hc : c ∈ calls) {node : Node} (hv : node.value = some c.value) :
    HasValue calls (Function.update nodes c.leaf (some node)) c.leaf :=
  ⟨c, hc, rfl, node, Function.update_self .., hv⟩

/-- One turn of a loop over the tries: the connection is lost and there is another try, or the answer
is there and the call goes on with it. -/
theorem TaskOk.turn {pc : CreatePc} (h : TaskOk calls nodes c pc) (hc : c ∈ calls) {tryTime : Nat}
    (hnet : net = .fine ∨ tryTime + 1 < colonyNum) (answer : Nodes × Int)
    (heffect : Effect c nodes answer.1) (hret : answer.2 ≠ ZCONNECTIONLOSS)
    (again : Nat → CreatePc) (htodo : ∀ n, c.todo (again n) = c.todo pc)
    (hagain : ∀ n ret, again n ≠ .returned ret) {next : Int → CreatePc}
    (hnext : TaskOk calls answer.1 c pc → TaskOk calls answer.1 c (next answer.2)) :
    Effect c nodes (net.apply nodes answer).1 ∧ TaskOk calls (net.apply nodes answer).1 c
      (loop colonyNum tryTime (net.apply nodes answer).2 again next) := by
  have hgone : TaskOk calls answer.1 c pc := h.mono hc heffect
  cases net with
  | fine =>
    simp only [Net.apply, loop_fine hret]
    exact ⟨heffect, hnext hgone⟩
  | lostBefore =>
    simp only [Net.apply, loop_lost (hnet.resolve_left (by simp))]
    exact ⟨.same, h.go (htodo _) (hagain _)⟩
  | lostBehind =>
    simp only [Net.apply, loop_lost (hnet.resolve_left (by simp))]
    exact ⟨heffect, hgone.go (htodo _) (hagain _)⟩

/-- A step that meets the condition leaves the call well, and no other call worse. -/
theorem TaskOk.step (net : Net) (hc : c ∈ calls) {pc : CreatePc} (h : TaskOk calls nodes c pc)
    (hpc : pc.ended = false) (ha : CreateTask.Alone z colonyNum nodes ⟨c, pc⟩ net) :
    Effect c nodes (c.step z colonyNum nodes net pc).1 ∧
      TaskOk calls (c.step z colonyNum nodes net pc).1 c (c.step z colonyNum nodes net pc).2 := by
  obtain ⟨hnet, ha⟩ := ha
  cases pc with
  | called =>
    have hcheck : 1 < zookeeperPathCheck c.path := ha
    have h1 : ¬ zookeeperPathCheck c.path ≤ 0 := by omega
    have h2 : ¬ zookeeperPathCheck c.path = 1 := by omega
    simp only [CreateCall.step, h1, h2, if_false]
    exact ⟨.same, h.go (todo_descend c _) (descend_ne_returned _)⟩
  | zooExists path rest tryTime =>
    simp only [CreateCall.step]
    refine h.turn hc hnet (nodes, z.zooExists nodes path) .same (zooExists_ne_lost nodes ha)
      (.zooExists path rest) (fun n => rfl) (by simp) fun h => ?_
    rcases zooExists_cases nodes ha with ⟨hret, -⟩ | ⟨hret, hnode⟩
    · rw [hret, if_pos rfl]
      exact h.go rfl (by simp)
    · simp only [hret]
      rw [if_neg (by decide), if_neg (by decide)]
      exact h.descend rfl hnode
  | zooCreate path rest tryTime =>
    simp only [CreateCall.step, zooCreate_of_creatable ancestorNode ha]
    refine h.turn hc hnet (Function.update nodes path (some ancestorNode), ZOK)
      (.create path ancestorNode ha.2.1) zok_ne_lost (.zooCreate path rest) (fun n => rfl) (by simp)
      fun h => ?_
    rw [if_neg (not_not_intro rfl)]
    exact h.descend rfl (by simp)
  | leafExists tryTime =>
    simp only [CreateCall.step]
    refine h.turn hc hnet (nodes, z.zooExists nodes c.leaf) .same (zooExists_ne_lost nodes ha)
      .leafExists (fun n => rfl) (by simp) fun h => ?_
    rcases zooExists_cases nodes ha with ⟨hret, -⟩ | ⟨hret, -⟩
    · simp only [hret]
      rw [if_neg (by decide), if_pos trivial]
      exact h.go rfl (by simp)
    · rw [hret, if_pos rfl]
      exact h.go rfl (by simp)
  | leafSet tryTime =>
    obtain ⟨node, -, hset⟩ := zooSet_of_writable c.value ha
    simp only [CreateCall.step, hset]
    exact h.turn hc hnet
      (Function.update nodes c.leaf (some { node with value := some c.value }), ZOK)
      (.set node) zok_ne_lost .leafSet (fun n => rfl) (by simp)
      fun h => h.finish rfl (hasValue_update hc rfl)
  | leafCreate tryTime =>
    simp only [CreateCall.step, zooCreate_of_creatable c.leafNode ha]
    exact h.turn hc hnet (Function.update nodes c.leaf (some c.leafNode), ZOK)
      (.create c.leaf c.leafNode ha.2.1) zok_ne_lost .leafCreate (fun n => rfl) (by simp)
      fun h => h.finish rfl (hasValue_update hc rfl)
  | returned ret => simp [CreatePc.ended] at hpc

/-- What holds in every state. -/
structure CreateInv (calls : List CreateCall) (s : CreateState) : Prop where
  same : s.tasks.map (·.call) = calls
  tasks : ∀ t ∈ s.tasks, TaskOk calls s.nodes t.call t.pc

theorem init_createInv :
    CreateInv calls (createSystem z colonyNum nodes calls).init where
  same := by simp [createSystem, Function.comp_def]
  tasks := by
    intro t ht
    obtain ⟨c, -, rfl⟩ := List.mem_map.mp ht
    exact ⟨fun path hp => .inl hp, fun ret hr => by cases hr⟩

/-- Every step that meets the condition keeps the invariant. -/
theorem CreateInv.next {s s' : CreateState} (hi : CreateInv calls s) {a : CreateAct}
    (ha : Alone z colonyNum s a) (h : s.next z colonyNum a = some s') : CreateInv calls s' := by
  unfold CreateState.next at h
  split at h
  · cases h
  · rename_i t ht
    split at h
    · cases h
    · rename_i hpc
      have hmem : t ∈ s.tasks := List.mem_of_getElem? ht
      have hc : t.call ∈ calls := by
        rw [← hi.same]
        exact List.mem_map_of_mem hmem
      obtain ⟨heffect, hok⟩ := (hi.tasks t hmem).step a.net hc (by simpa using hpc) (ha t ht)
      cases h
      refine ⟨?_, fun u hu => ?_⟩
      · rw [← hi.same]
        exact map_set_of_eq ht rfl
      · rcases List.mem_or_eq_of_mem_set hu with hu | rfl
        · exact (hi.tasks u hu).mono hc heffect
        · exact hok

/-! ## Every call returns -/

/-- One loop over the tries, and one more step. -/
def tries (colonyNum : Nat) : Nat := colonyNum + 1

/-- The steps that a call has left at most. -/
def CreateCall.budget (colonyNum : Nat) (c : CreateCall) : CreatePc → Nat
  | .called => 2 * tries colonyNum * (c.ancestors.length + 1) + 1
  | .zooExists _ rest n =>
    (colonyNum - n) + 1 + tries colonyNum + 2 * tries colonyNum * (rest.length + 1)
  | .zooCreate _ rest n => (colonyNum - n) + 1 + 2 * tries colonyNum * (rest.length + 1)
  | .leafExists n => (colonyNum - n) + 1 + tries colonyNum
  | .leafSet n | .leafCreate n => (colonyNum - n) + 1
  | .returned _ => 0

theorem budget_descend (colonyNum : Nat) (c : CreateCall) (rest : List Bytes) :
    c.budget colonyNum (.descend rest) = 2 * tries colonyNum * (rest.length + 1) := by
  cases rest with
  | nil => simp [CreatePc.descend, CreateCall.budget, tries]; omega
  | cons path rest =>
    simp only [CreatePc.descend, CreateCall.budget, tries, List.length_cons, Nat.sub_zero]
    ring

/-- Another try or what follows the loop, both leave less. -/
theorem budget_loop {c : CreateCall} {n tryTime : Nat} {ret : Int} {again : Nat → CreatePc}
    {next : Int → CreatePc}
    (hagain : tryTime + 1 < colonyNum → c.budget colonyNum (again (tryTime + 1)) < n)
    (hnext : c.budget colonyNum (next ret) < n) :
    c.budget colonyNum (loop colonyNum tryTime ret again next) < n := by
  unfold loop
  split
  · rename_i h
    exact hagain h.2
  · exact hnext

/-- Every step leaves fewer. -/
theorem budget_step (c : CreateCall) {pc : CreatePc} (hpc : pc.ended = false) :
    c.budget colonyNum (c.step z colonyNum nodes net pc).2 < c.budget colonyNum pc := by
  cases pc with
  | called =>
    simp only [CreateCall.step]
    split
    · simp [CreateCall.budget]
    · split
      · simp [CreateCall.budget]
      · rw [budget_descend]
        simp only [CreateCall.budget]
        omega
  | zooExists path rest tryTime =>
    simp only [CreateCall.step]
    refine budget_loop (fun h => ?_) ?_
    · simp only [CreateCall.budget]
      omega
    · split
      · simp only [CreateCall.budget, tries]
        omega
      · split
        · simp [CreateCall.budget]
        · rw [budget_descend]
          simp only [CreateCall.budget]
          omega
  | zooCreate path rest tryTime =>
    simp only [CreateCall.step]
    refine budget_loop (fun h => ?_) ?_
    · simp only [CreateCall.budget]
      omega
    · split
      · simp [CreateCall.budget]
      · rw [budget_descend]
        simp only [CreateCall.budget]
        omega
  | leafExists tryTime =>
    simp only [CreateCall.step]
    refine budget_loop (fun h => ?_) ?_
    · simp only [CreateCall.budget]
      omega
    · repeat' split
      all_goals simp only [CreateCall.budget, tries]
      all_goals omega
  | leafSet tryTime | leafCreate tryTime =>
    simp only [CreateCall.step]
    refine budget_loop (fun h => ?_) ?_
    · simp only [CreateCall.budget]
      omega
    · simp [CreateCall.budget]
  | returned ret => simp [CreatePc.ended] at hpc

/-- The steps that all calls have left at most. -/
def CreateState.budget (colonyNum : Nat) (s : CreateState) : Nat :=
  (s.tasks.map fun t => t.call.budget colonyNum t.pc).sum

theorem budget_next {s s' : CreateState} {a : CreateAct}
    (h : s.next z colonyNum a = some s') : s'.budget colonyNum < s.budget colonyNum := by
  unfold CreateState.next at h
  split at h
  · cases h
  · rename_i t ht
    split at h
    · cases h
    · rename_i hpc
      cases h
      let left (t : CreateTask) : Nat := t.call.budget colonyNum t.pc
      let t' : CreateTask := { t with pc := (t.call.step z colonyNum s.nodes a.net t.pc).2 }
      have hlt : left t' < left t := budget_step t.call (by simpa using hpc)
      have hsum := sum_map_set left ht t'
      show ((s.tasks.set a.i t').map left).sum < (s.tasks.map left).sum
      omega

end

/-- In every run whose steps meet the condition, every call that has returned has registered its
path. In every run at all, a call that has not returned has a next step, and there are no more steps
than the budget of the calls. -/
theorem registration (z : Zookeeper) (colonyNum : Nat) (nodes : Nodes) (calls : List CreateCall) :
    (∀ s, ((createSystem z colonyNum nodes calls).only (Alone z colonyNum)).Reach s →
      Registered calls s) ∧
    (∀ as s, (createSystem z colonyNum nodes calls).run (createSystem z colonyNum nodes calls).init
      as = some s → as.length ≤ (calls.map (·.budget colonyNum .called)).sum) ∧
    ∀ (s : CreateState) (i : Nat) (net : Net) (t : CreateTask), s.tasks[i]? = some t →
      t.pc.ended = false → ((createSystem z colonyNum nodes calls).next s ⟨i, net⟩).isSome := by
  refine ⟨fun s h => ?_, fun as s h => ?_, fun s i net t ht hpc => ?_⟩
  · have hi : CreateInv calls s :=
      Sys.Reach.inv_only init_createInv (fun _ _ _ hi ha hs => hi.next ha hs) h
    refine ⟨hi.same, fun t ht ret hret => ?_⟩
    have hok := hi.tasks t ht
    refine ⟨(hok.returned ret hret).1, fun path hp => ?_, (hok.returned ret hret).2⟩
    refine (hok.passed path hp).resolve_left ?_
    simp [hret, CreateCall.todo]
  · have hle := Sys.run_length_le (P := fun _ => True) (μ := CreateState.budget colonyNum)
      (fun _ _ _ _ hs => budget_next hs) as (by simp) h
    have hinit : CreateState.budget colonyNum (createSystem z colonyNum nodes calls).init =
        (calls.map (·.budget colonyNum .called)).sum := by
      simp [CreateState.budget, createSystem, Function.comp_def]
    omega
  · simp [createSystem, CreateState.next, ht, hpc]

/-- A server that accepts every path and leaves out the check of the rights. -/
def openServer : Zookeeper := ⟨fun _ => true, true⟩

/-- Only the root is there. -/
def onlyRoot : Nodes := Function.update (fun _ => none) [47] (some ancestorNode)

/-- Two calls whose paths share the ancestor `/a`. -/
def siblings : List CreateCall :=
  [⟨.createForeverPath, [47, 97, 47, 120], [49]⟩, ⟨.createForeverPath, [47, 97, 47, 121], [50]⟩]

/-- Both calls find their ancestor `/a` missing, and both create it. -/
def siblingRun : List CreateAct :=
  [⟨0, .fine⟩, ⟨1, .fine⟩, ⟨0, .fine⟩, ⟨1, .fine⟩, ⟨0, .fine⟩, ⟨1, .fine⟩]

/-- The second call that creates `/a` returns `ZNODEEXISTS`, and its leaf stays missing: with every
path in order, and no connection lost. -/
theorem sibling_create_fails : ¬ ∀ z colonyNum nodes calls s,
    (∀ c ∈ calls, c.kind = .createForeverPath ∧ 1 < zookeeperPathCheck c.path) →
    ((createSystem z colonyNum nodes calls).only fun _ a => a.net = .fine).Reach s →
    Registered calls s := by
  intro h
  let S := (createSystem openServer 1 onlyRoot siblings).only fun _ a => a.net = .fine
  obtain ⟨s, hrun⟩ : ∃ s, S.run S.init siblingRun = some s := ⟨_, rfl⟩
  have hf := h _ _ _ _ s (by decide) (Sys.Reach.init.run _ hrun)
  cases hrun
  obtain ⟨hret, -⟩ := hf.2 _ (.tail _ (.head _)) ZNODEEXISTS rfl
  exact absurd hret (by decide)

/-- One call after the other. -/
def inTurn : List CreateAct := List.replicate 5 ⟨0, .fine⟩ ++ List.replicate 4 ⟨1, .fine⟩

/-- That meets the condition, and both return `ZOK`. -/
theorem registration_siblings :
    ∃ s, ((createSystem openServer 1 onlyRoot siblings).only (Alone openServer 1)).run
        (createSystem openServer 1 onlyRoot siblings).init inTurn = some s ∧
      s.tasks.map (·.pc) = [.returned ZOK, .returned ZOK] ∧ Registered siblings s := by
  have hmap : (((createSystem openServer 1 onlyRoot siblings).only (Alone openServer 1)).run
      (createSystem openServer 1 onlyRoot siblings).init inTurn).map (·.tasks.map (·.pc)) =
      some [.returned ZOK, .returned ZOK] := by decide
  obtain ⟨s, hrun, hpcs⟩ := Option.map_eq_some_iff.mp hmap
  exact ⟨s, hrun, hpcs, (registration openServer 1 onlyRoot siblings).1 s (Sys.Reach.init.run _ hrun)⟩

end Zookconfig
end CmakeFrame
