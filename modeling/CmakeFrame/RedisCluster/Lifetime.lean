import CmakeFrame.Lib.Shared
import CmakeFrame.RedisCluster.Calls
import CmakeFrame.RedisCluster.Follow
import Mathlib.Data.FinEnum

/-!
# A connection in use, and the node that it belongs to

A node lives as long as `slotMap_` has an entry for it. A reconnect, which a call makes because the node
of its own slot has failed, may take the last entry of another node, and with it the clients of that
node that somebody uses.

* `Held`: what should hold of the clients that were returned and are not recycled.
* `Unused`, `Spares`: the condition on a step; `LifeInv`: the invariant; `clients_held`: in every run
  whose steps all meet the condition.
* `LifeInv.not_held`: a step that takes the last entry of a node whose client is in use.
* `used_client_deleted`: a run where a client is deleted while it is used.
-/

namespace CmakeFrame
namespace RedisCluster

open Lib
open RedisAsyn (NodeLine importingLine migratingLine)

/-! ## Clients of a node -/

namespace RedisClusterNode

variable {connect : Connect} {node node' : RedisClusterNode} {created created' : Nat}

theorem initLoop_clients {n : Nat} {ok : Bool}
    (h : initLoop connect n node created = (ok, node', created')) :
    created ≤ created' ∧
      ∀ c ∈ node'.clients, c ∈ node.clients ∨ (created ≤ c ∧ c < created') := by
  induction n generalizing node created with
  | zero =>
    cases h
    exact ⟨le_rfl, fun c hc => .inl hc⟩
  | succ n ih =>
    rw [initLoop] at h
    split at h
    · obtain ⟨hle, hclients⟩ := ih h
      refine ⟨by omega, fun c hc => ?_⟩
      rcases hclients c hc with hold | hnew
      · simp only [clients, List.mem_append, List.mem_singleton] at hold ⊢
        rcases hold with (hidle | rfl) | huse
        · exact .inl (.inl hidle)
        · exact .inr ⟨le_rfl, by omega⟩
        · exact .inl (.inr huse)
      · exact .inr ⟨by omega, hnew.2⟩
    · cases h
      exact ⟨by omega, fun c hc => .inl hc⟩

/-- A new node has new clients. -/
theorem init_clients {info : NodeInfo} {minSize maxSize timeout : Int32} {password : Bytes} {ok : Bool}
    (h : init connect info minSize maxSize timeout password created = (ok, node', created')) :
    created ≤ created' ∧ ∀ c ∈ node'.clients, created ≤ c ∧ c < created' := by
  unfold init at h
  simp only at h
  by_cases hs : SizesOk minSize maxSize
  · rw [if_neg hs] at h
    obtain ⟨hle, hclients⟩ := initLoop_clients h
    exact ⟨hle, fun c hc => (hclients c hc).resolve_left (by simp [clients])⟩
  · rw [if_pos (not_not.mp hs)] at h
    cases h
    exact ⟨le_rfl, fun c hc => by cases hc⟩

theorem getRedisClient_clients {client : Option Nat}
    (h : node.getRedisClient connect created = (client, node', created')) :
    created ≤ created' ∧ (∀ c ∈ node'.clients, c ∈ node.clients ∨ (created ≤ c ∧ c < created')) ∧
      ∀ c ∈ client, c ∈ node'.clients := by
  unfold getRedisClient at h
  split at h
  · rename_i c idle hidle
    cases h
    refine ⟨le_rfl, fun d hd => .inl ?_, fun d hd => ?_⟩
    · simp only [clients, hidle, List.mem_append, List.mem_cons] at hd ⊢
      tauto
    · cases hd
      simp [clients]
  · rename_i hidle
    split at h
    · split at h
      · cases h
        refine ⟨by omega, fun d hd => ?_, fun d hd => ?_⟩
        · simp only [clients, hidle, List.nil_append, List.mem_append, List.mem_singleton] at hd ⊢
          exact hd.imp_right fun h => ⟨by omega, by omega⟩
        · cases hd
          simp [clients]
      · split at h
        · cases h
          exact ⟨by omega, fun d hd => .inl hd, fun d hd => by cases hd⟩
        · cases h
          exact ⟨by omega, fun d hd => .inl hd, fun d hd => by cases hd⟩
    · cases h
      exact ⟨le_rfl, fun d hd => .inl hd, fun d hd => by cases hd⟩

theorem recycle_clients {client : Nat} {connStatus_ : Bool} {c : Nat}
    (h : c ∈ (node.recycle client connStatus_).clients) : c ∈ node.clients := by
  have herase : ∀ d ∈ node.useMap_.erase client, d ∈ node.useMap_ := fun d =>
    List.mem_of_mem_erase
  unfold recycle releaseRedisClient removeRedisClient at h
  split at h
  · split at h
    · rename_i huse
      simp only [clients, List.mem_append, List.mem_singleton] at h ⊢
      rcases h with (hidle | rfl) | hrest
      · exact .inl hidle
      · exact .inr huse
      · exact .inr (herase c hrest)
    · exact h
  · split at h
    · simp only at h
      split at h <;>
      · simp only [clients, List.mem_append] at h ⊢
        exact h.imp_right (herase c)
    · exact h

end RedisClusterNode

/-! ## The property, and the condition -/

namespace SharedMgr

/-- A client that was returned and is not recycled is not deleted, and the node that `recycle()` goes
to exists: `slotMap_` has an entry for it. -/
def Held (s : SharedMgr) : Prop :=
  ∀ c ∈ s.out, c ∉ s.deleted ∧ ∃ k, s.manager_ c = some k ∧ 0 < refs s.mgr.slotMap_ k

/-- No client of node `k` is in use, and no call is about to take one. -/
def Unused (s : SharedMgr) (k : Nat) : Prop :=
  (∀ c ∈ s.out, s.manager_ c ≠ some k) ∧ ∀ f ∈ s.calls, f.pc ≠ .getRedisClient k

instance (s : SharedMgr) (k : Nat) : Decidable (s.Unused k) := inferInstanceAs (Decidable (_ ∧ _))

/-- The node whose last entry the next step of `init2` takes. -/
def takesLast (s : SharedMgr) : Option Nat :=
  match s.init2 with
  | some ⟨_, .slots k (slots :: _) _ _⟩ =>
    if slots.slotStart_ ≤ slots.slotEnd_ then
      (s.mgr.slotMap_ slots.slotStart_).filter fun old => old ≠ k ∧ s.useCount old = 1
    else none
  | _ => none

/-- The condition on a step: it takes the last entry of a node only when nobody uses that node. -/
def Spares (s : SharedMgr) : CallAct → Prop
  | .init2 _ _ => ∀ k ∈ s.takesLast, s.Unused k
  | .find _ _ | .recycle _ _ => True

instance (s : SharedMgr) : (a : CallAct) → Decidable (s.Spares a)
  | .init2 _ _ => inferInstanceAs (Decidable (∀ k ∈ s.takesLast, s.Unused k))
  | .find _ _ | .recycle _ _ => inferInstanceAs (Decidable True)

/-- 1 for the node that `clusterNode` of the running `init2` points to. -/
def locals (s : SharedMgr) (k : Nat) : Nat :=
  match s.init2 with
  | some ⟨_, .slots clusterNode _ _ _⟩ => if k = clusterNode then 1 else 0
  | _ => 0

/-! ## The invariant -/

/-- Node `k` has a pointer for each of its entries, and `extra k` more. -/
structure LifeInv (extra : Nat → Nat) (s : SharedMgr) : Prop where
  counts : ∀ k, s.useCount k = refs s.mgr.slotMap_ k + extra k
  bound : ∀ k, s.mgr.heap.length ≤ k → s.useCount k = 0
  made : ∀ c k, s.manager_ c = some k → c < s.mgr.created ∧ k < s.mgr.heap.length
  clients : ∀ (k : Nat) node, s.mgr.heap[k]? = some node → ∀ c ∈ node.clients, s.manager_ c = some k
  deleted : ∀ c ∈ s.deleted, ∃ k, s.manager_ c = some k ∧ s.useCount k = 0
  out : ∀ c ∈ s.out, ∃ k, s.manager_ c = some k ∧ 0 < refs s.mgr.slotMap_ k
  taking : ∀ f ∈ s.calls, ∀ k, f.pc = .getRedisClient k → 0 < refs s.mgr.slotMap_ k

section

variable {extra : Nat → Nat} {s s' : SharedMgr} {i k : Nat}

theorem LifeInv.held (h : LifeInv extra s) : s.Held := by
  intro c hc
  obtain ⟨k, hk, hpos⟩ := h.out c hc
  refine ⟨fun hdel => ?_, k, hk, hpos⟩
  obtain ⟨k', hk', hzero⟩ := h.deleted c hdel
  obtain rfl : k = k' := Option.some.inj (hk.symm.trans hk')
  have := h.counts k
  omega

theorem LifeInv.congr (h : LifeInv extra s) (extra' : Nat → Nat) (he : ∀ j, extra' j = extra j) :
    LifeInv extra' s :=
  { h with counts := fun j => by rw [he, h.counts] }

theorem LifeInv.lt_length (h : LifeInv extra s) (hk : 0 < s.useCount k) : k < s.mgr.heap.length := by
  by_contra hlt
  have := h.bound k (not_lt.mp hlt)
  omega

theorem mem_goto {pc : FindPc} {f : FindCall} (hf : f ∈ (s.goto i pc).calls) :
    f ∈ s.calls ∨ f.pc = pc := by
  obtain ⟨j, hj⟩ := List.mem_iff_getElem?.mp hf
  simp only [goto, List.getElem?_modify] at hj
  split at hj
  · obtain ⟨c, -, rfl⟩ := Option.map_eq_some_iff.mp hj
    exact .inr rfl
  · exact .inl (List.mem_iff_getElem?.mpr ⟨j, by simpa using hj⟩)

/-- A call goes on; where it takes a client from, there is a node. -/
theorem LifeInv.goto (h : LifeInv extra s) (i : Nat) (pc : FindPc)
    (hpc : ∀ k, pc = .getRedisClient k → 0 < refs s.mgr.slotMap_ k) : LifeInv extra (s.goto i pc) :=
  { h with
    taking := fun f hf k hk => by
      rcases mem_goto hf with hf | hf
      · exact h.taking f hf k hk
      · exact hpc k (hf.symm.trans hk) }

/-- What is made later has no part in what was there. -/
theorem LifeInv.make_old (h : LifeInv extra s) {c k created : Nat} (hc : s.manager_ c = some k)
    (manager : Option Nat) : (s.make created manager).manager_ c = some k := by
  have := (h.made c k hc).1
  simp only [make]
  rw [if_neg (by omega), hc]

theorem LifeInv.make (h : LifeInv extra s) {created : Nat} (hle : s.mgr.created ≤ created)
    (manager : Option Nat) (hm : ∀ k, manager = some k → k < s.mgr.heap.length) :
    LifeInv extra (s.make created manager) :=
  { h with
    made := fun c k hc => by
      simp only [SharedMgr.make] at hc ⊢
      split at hc
      · exact ⟨by omega, hm k hc⟩
      · have := h.made c k hc
        exact ⟨by omega, this.2⟩
    clients := fun k node hn c hc => h.make_old (h.clients k node hn c hc) _
    deleted := fun c hc => by
      obtain ⟨k, hk, hzero⟩ := h.deleted c hc
      exact ⟨k, h.make_old hk _, hzero⟩
    out := fun c hc => by
      obtain ⟨k, hk, hpos⟩ := h.out c hc
      exact ⟨k, h.make_old hk _, hpos⟩ }

/-- A node changes, and its clients know it. -/
theorem LifeInv.setNode (h : LifeInv extra s) (k : Nat) (node : RedisClusterNode)
    (hn : ∀ c ∈ node.clients, s.manager_ c = some k) :
    LifeInv extra { s with mgr := { s.mgr with heap := s.mgr.heap.set k node } } :=
  { h with
    bound := fun j hj => h.bound j (by simpa using hj)
    made := fun c j hc => by simpa using h.made c j hc
    clients := fun j node' hj c hc => by
      simp only [List.getElem?_set] at hj
      split at hj
      · rename_i heq
        split at hj
        · cases hj
          exact heq ▸ hn c hc
        · cases hj
      · exact h.clients j node' hj c hc }

/-- Clients of nodes that are gone are deleted. -/
theorem LifeInv.delete (h : LifeInv extra s) {cs : List Nat}
    (hcs : ∀ c ∈ cs, ∃ k, s.manager_ c = some k ∧ s.useCount k = 0) :
    LifeInv extra { s with deleted := s.deleted ++ cs } :=
  { h with deleted := fun c hc => (List.mem_append.mp hc).elim (h.deleted c) (hcs c) }

/-- Node `k` has one pointer less. -/
theorem LifeInv.countDown (h : LifeInv (fun j => extra j + if j = k then 1 else 0) s) :
    LifeInv extra { s with useCount := Function.update s.useCount k (s.useCount k - 1) } := by
  have hk := h.counts k
  rw [if_pos rfl] at hk
  have hother : ∀ {j}, j ≠ k → Function.update s.useCount k (s.useCount k - 1) j = s.useCount j :=
    fun hj => Function.update_of_ne hj _ _
  refine { h with
    counts := fun j => ?_
    bound := fun j hj => ?_
    deleted := fun c hc => ?_ }
  · show Function.update s.useCount k (s.useCount k - 1) j = refs s.mgr.slotMap_ j + extra j
    by_cases hj : j = k
    · rw [hj, Function.update_self]
      omega
    · have := h.counts j
      rw [if_neg hj] at this
      rw [hother hj]
      exact this
  · have hzero := h.bound j hj
    have hne : j ≠ k := by
      rintro rfl
      omega
    exact (hother hne).trans hzero
  · obtain ⟨j, hj, hzero⟩ := h.deleted c hc
    have hne : j ≠ k := by
      rintro rfl
      omega
    exact ⟨j, hj, (hother hne).trans hzero⟩

/-- A pointer to node `k` goes away. -/
theorem LifeInv.release (h : LifeInv (fun j => extra j + if j = k then 1 else 0) s) :
    LifeInv extra (s.release k) := by
  have hk := h.counts k
  rw [if_pos rfl] at hk
  have hlt := h.lt_length (k := k) (by omega)
  have hdown := h.countDown
  unfold SharedMgr.release
  rw [List.getElem?_eq_getElem hlt]
  simp only
  split
  · rename_i hone
    rw [hone] at hdown
    have hstop := hdown.setNode k s.mgr.heap[k].stop (fun c hc => by cases hc)
    exact hstop.delete fun c hc =>
      ⟨k, h.clients k _ (List.getElem?_eq_getElem hlt) c hc, Function.update_self ..⟩
  · exact hdown

/-- The entry of `pos` is a new pointer, and the old one is one more than there are entries. -/
theorem LifeInv.point (h : LifeInv extra s) (hk : 0 < s.useCount k) {pos : UInt16}
    (hun : ∀ old, s.mgr.slotMap_ pos = some old → old ≠ k → refs s.mgr.slotMap_ old = 1 →
      s.Unused old) :
    LifeInv (fun j => extra j + if s.mgr.slotMap_ pos = some j then 1 else 0) (s.point pos k) := by
  have hupd := refs_update s.mgr.slotMap_ pos k
  -- the last entry of a node goes only if nobody uses it
  have hkeep : ∀ j, 0 < refs s.mgr.slotMap_ j → ¬ s.Unused j →
      0 < refs (Function.update s.mgr.slotMap_ pos (some k)) j := by
    intro j hj hused
    have hj' := hupd j
    by_contra hzero
    split at hj'
    · rename_i hold
      split at hj'
      · omega
      · rename_i hne
        exact hused (hun j hold hne (by omega))
    · omega
  refine { h with
    counts := fun j => ?_
    bound := fun j hj => ?_
    deleted := fun c hc => ?_
    out := fun c hc => ?_
    taking := fun f hf j hj => ?_ }
  · have hj := h.counts j
    have hj' := hupd j
    show Function.update s.useCount k (s.useCount k + 1) j =
      refs (Function.update s.mgr.slotMap_ pos (some k)) j +
        (extra j + if s.mgr.slotMap_ pos = some j then 1 else 0)
    by_cases hjk : j = k
    · subst hjk
      rw [Function.update_self]
      rw [if_pos rfl] at hj'
      omega
    · rw [Function.update_of_ne hjk]
      rw [if_neg hjk] at hj'
      omega
  · have hne : j ≠ k := by
      rintro rfl
      exact absurd (h.lt_length hk) (not_lt.mpr hj)
    show Function.update s.useCount k _ j = 0
    rw [Function.update_of_ne hne]
    exact h.bound j hj
  · obtain ⟨j, hj, hzero⟩ := h.deleted c hc
    have hne : j ≠ k := by
      rintro rfl
      omega
    refine ⟨j, hj, ?_⟩
    show Function.update s.useCount k _ j = 0
    rwa [Function.update_of_ne hne]
  · obtain ⟨j, hj, hpos⟩ := h.out c hc
    exact ⟨j, hj, hkeep j hpos fun hfree => hfree.1 c hc hj⟩
  · exact hkeep j (h.taking f hf j hj) fun hfree => hfree.2 f hf hj

theorem LifeInv.assign (h : LifeInv extra s) (hk : 0 < s.useCount k) (pos : UInt16)
    (hun : ∀ old, s.mgr.slotMap_ pos = some old → old ≠ k → refs s.mgr.slotMap_ old = 1 →
      s.Unused old) : LifeInv extra (s.assign pos k) := by
  have hpoint := h.point hk hun
  unfold SharedMgr.assign
  cases hold : s.mgr.slotMap_ pos with
  | none => exact hpoint.congr _ fun j => by simp [hold]
  | some old => exact (hpoint.congr _ fun j => by simp [hold, eq_comm]).release

/-- A new node has the number of the next one, and `n` pointers. -/
theorem LifeInv.newNode (h : LifeInv extra s) (node : RedisClusterNode) {created : Nat}
    (hle : s.mgr.created ≤ created) (hn : ∀ c ∈ node.clients, s.mgr.created ≤ c ∧ c < created)
    (n : Nat) (useCount : Nat → Nat)
    (huse : ∀ j, useCount j = s.useCount j + if j = s.mgr.heap.length then n else 0) :
    LifeInv (fun j => extra j + if j = s.mgr.heap.length then n else 0)
      { s.make created (some s.mgr.heap.length) with
        mgr := { (s.make created (some s.mgr.heap.length)).mgr with heap := s.mgr.heap ++ [node] }
        useCount } := by
  refine { h with
    counts := fun j => ?_
    bound := fun j hj => ?_
    made := fun c j hc => ?_
    clients := fun j node' hj c hc => ?_
    deleted := fun c hc => ?_
    out := fun c hc => ?_ }
  · show useCount j = refs s.mgr.slotMap_ j + (extra j + _)
    rw [huse, h.counts]
    omega
  · have hlen : s.mgr.heap.length + 1 ≤ j := by simpa using hj
    show useCount j = 0
    rw [huse, h.bound j (by omega), if_neg (by omega)]
  · have hlen : (s.mgr.heap ++ [node]).length = s.mgr.heap.length + 1 := by simp
    show c < created ∧ j < (s.mgr.heap ++ [node]).length
    rw [hlen]
    simp only [SharedMgr.make] at hc
    split at hc
    · rename_i hnew
      cases hc
      exact ⟨hnew.2, by omega⟩
    · have := h.made c j hc
      exact ⟨by omega, by omega⟩
  · have hj : (s.mgr.heap ++ [node])[j]? = some node' := hj
    rw [List.getElem?_append] at hj
    split at hj
    · exact h.make_old (h.clients j node' hj c hc) _
    · rename_i hge
      rw [List.getElem?_singleton] at hj
      split at hj
      · cases hj
        simp only [SharedMgr.make]
        rw [if_pos (hn c hc)]
        exact congrArg some (by omega)
      · cases hj
  · obtain ⟨j, hj, hzero⟩ := h.deleted c hc
    refine ⟨j, h.make_old hj _, ?_⟩
    show useCount j = 0
    have := (h.made c j hj).2
    rw [huse, hzero, if_neg (by omega)]
  · obtain ⟨j, hj, hpos⟩ := h.out c hc
    exact ⟨j, h.make_old hj _, hpos⟩

/-- A call goes on behind `init2`. -/
theorem LifeInv.leave (h : LifeInv extra s) (r : Init2) (pc : FindPc)
    (hpc : ∀ k, pc ≠ .getRedisClient k) : LifeInv extra (s.leave r pc) := by
  have hgoto := fun i => h.goto i pc fun k hk => absurd hk (hpc k)
  unfold SharedMgr.leave
  cases r.caller with
  | none => exact { h with }
  | some i => exact { hgoto i with }

/-! ## Steps -/

/-- What asking does: it makes clients that belong to no node, and it reads `nodes_`. -/
structure Asked (mgr mgr' : RedisClusterMgr) : Prop where
  slotMap : mgr'.slotMap_ = mgr.slotMap_
  heap : mgr'.heap = mgr.heap
  created : mgr.created ≤ mgr'.created

theorem askNodes_asked {net : Net} {uninit : Addr} {mgr mgr' : RedisClusterMgr} {ret : Bool}
    (h : mgr.askNodes net uninit = some (ret, mgr')) : Asked mgr mgr' := by
  unfold RedisClusterMgr.askNodes at h
  split at h
  · split at h
    · cases h
    · cases h
      exact ⟨rfl, rfl, le_rfl⟩
    · unfold RedisClusterMgr.getClusterNodesInfo at h
      split at h <;>
      · cases h
        exact ⟨rfl, rfl, le_rfl⟩
  · cases h
    exact ⟨rfl, rfl, le_rfl⟩

/-- One client more is made before. -/
theorem Asked.after {mgr mgr' : RedisClusterMgr} {n : Nat} (hn : mgr.created ≤ n)
    (h : Asked { mgr with created := n } mgr') : Asked mgr mgr' :=
  ⟨h.slotMap, h.heap, hn.trans h.created⟩

theorem askServer_asked {net : Net} {uninit : Addr} {mgr mgr' : RedisClusterMgr} {ret : Bool}
    (h : mgr.askServer net uninit = some (ret, mgr')) : Asked mgr mgr' := by
  unfold RedisClusterMgr.askServer at h
  simp only at h
  split at h
  · exact (askNodes_asked h).after (Nat.le_succ _)
  · cases h
    exact ⟨rfl, rfl, Nat.le_succ _⟩

theorem askBrokers_asked {net : Net} {uninit : Addr} {brokers : List Bytes}
    {mgr mgr' : RedisClusterMgr} {ret : Bool}
    (h : RedisClusterMgr.askBrokers net uninit brokers mgr = some (ret, mgr')) : Asked mgr mgr' := by
  induction brokers generalizing mgr with
  | nil =>
    cases h
    exact ⟨rfl, rfl, le_rfl⟩
  | cons broker result ih =>
    unfold RedisClusterMgr.askBrokers at h
    split at h
    · cases h
      exact ⟨rfl, rfl, le_rfl⟩
    · simp only at h
      split at h
      · exact (askNodes_asked h).after (Nat.le_succ _)
      · exact (ih h).after (Nat.le_succ _)

theorem locals_leave (s : SharedMgr) (r : Init2) (pc : FindPc) :
    (s.leave r pc).locals = fun _ => 0 := by
  unfold SharedMgr.leave
  cases r.caller <;> rfl

theorem LifeInv.asked (h : LifeInv extra s) {r : Init2} {answer : Option (Bool × RedisClusterMgr)}
    (ha : ∀ ret mgr, answer = some (ret, mgr) → Asked s.mgr mgr) (hs : s.asked r answer = some s') :
    LifeInv extra s' ∧ s'.locals = fun _ => 0 := by
  cases answer with
  | none => cases hs
  | some p =>
    obtain ⟨ret, mgr⟩ := p
    obtain ⟨hslot, hheap, hcreated⟩ := ha ret mgr rfl
    have hmake := h.make hcreated none (fun k hk => by cases hk)
    have hmgr : LifeInv extra { s.make mgr.created none with mgr } := by
      refine { hmake with
        counts := fun j => ?_
        bound := fun j hj => ?_
        made := fun c j hc => ?_
        clients := fun j node hj c hc => ?_
        out := fun c hc => ?_
        taking := fun f hf j hj => ?_ }
      · show s.useCount j = refs mgr.slotMap_ j + extra j
        rw [hslot]
        exact hmake.counts j
      · have hj : mgr.heap.length ≤ j := hj
        rw [hheap] at hj
        exact hmake.bound j hj
      · have := hmake.made c j hc
        show c < mgr.created ∧ j < mgr.heap.length
        rw [hheap]
        exact this
      · have hj : mgr.heap[j]? = some node := hj
        rw [hheap] at hj
        exact hmake.clients j node hj c hc
      · show ∃ k, _ ∧ 0 < refs mgr.slotMap_ k
        rw [hslot]
        exact hmake.out c hc
      · show 0 < refs mgr.slotMap_ j
        rw [hslot]
        exact hmake.taking f hf j hj
    simp only [SharedMgr.asked] at hs
    split at hs
    · cases hs
      exact ⟨{ hmgr with }, rfl⟩
    · cases hs
      exact ⟨hmgr.leave r _ (fun k hk => by cases hk), locals_leave _ r _⟩

/-- A call of `findNodeConnection` goes on. -/
theorem LifeInv.findStep (h : LifeInv s.locals s) {connect : Connect} {c : FindCall}
    (hs : s.findStep connect i c = some s') (hc : s.calls[i]? = some c) : LifeInv s'.locals s' := by
  obtain ⟨slotIndex, pc⟩ := c
  cases pc with
  | called =>
    simp only [SharedMgr.findStep] at hs
    repeat' split at hs
    all_goals cases hs
    all_goals exact h.goto i _ fun k hk => by cases hk
  | find =>
    simp only [SharedMgr.findStep] at hs
    repeat' split at hs
    all_goals cases hs
    · exact h.goto i _ fun k hk => by cases hk
    · exact h.goto i _ fun k hk => by cases hk
    · exact h.goto i _ fun k hk => by cases hk
  | failed =>
    cases hs
    have hgoto := h.goto i .lock fun k hk => by cases hk
    exact { hgoto with }
  | lock =>
    simp only [SharedMgr.findStep] at hs
    split at hs
    · cases hs
    · rename_i hfree
      have hnone : s.init2 = none := by simpa using hfree
      repeat' split at hs
      all_goals cases hs
      · exact h.goto i _ fun k hk => by cases hk
      · have hgoto := h.goto i .init2 fun k hk => by cases hk
        have hgoto' : LifeInv (fun _ => 0) (s.goto i .init2) :=
          hgoto.congr _ fun j => by simp [locals, hnone]
        exact { hgoto' with }
  | init2 => cases hs
  | slot =>
    simp only [SharedMgr.findStep] at hs
    split at hs
    · cases hs
    · rename_i k hk
      cases hs
      refine h.goto i _ fun j hj => ?_
      cases hj
      exact refs_pos.mpr ⟨slotIndex, hk⟩
  | getRedisClient k =>
    simp only [SharedMgr.findStep] at hs
    split at hs
    · cases hs
    · rename_i node hnode
      have hlt : k < s.mgr.heap.length := (List.getElem?_eq_some_iff.mp hnode).1
      rcases hget : node.getRedisClient connect s.mgr.created with ⟨client, node', created⟩
      rw [hget] at hs
      cases hs
      obtain ⟨hle, hclients, hclient⟩ := RedisClusterNode.getRedisClient_clients hget
      have hgoto := h.goto i (.returned client) fun k hk => by cases hk
      have hmake := hgoto.make hle (some k) fun j hj => by cases hj; exact hlt
      have hmanager : ∀ d ∈ node'.clients, (s.make created (some k)).manager_ d = some k := by
        intro d hd
        rcases hclients d hd with hold | hnew
        · exact h.make_old (h.clients k node hnode d hold) _
        · simp only [SharedMgr.make]
          rw [if_pos hnew]
      have hset := hmake.setNode k node' hmanager
      have hpos : 0 < refs s.mgr.slotMap_ k :=
        h.taking _ (List.mem_iff_getElem?.mpr ⟨i, hc⟩) k rfl
      refine { hset with out := fun d hd => ?_ }
      rcases List.mem_append.mp hd with hold | hnew
      · exact hset.out d hold
      · exact ⟨k, hmanager d (hclient d (by simpa using hnew)), hpos⟩
  | returned client => cases hs

/-- `connectClusterNode`, while no other `clusterNode` is there. -/
theorem LifeInv.connectClusterNode (h : LifeInv (fun _ => 0) s) (connect : Connect) (r : Init2)
    (node : NodeInfo) (nodes : List NodeInfo) :
    LifeInv (s.connectClusterNode connect r node nodes).locals
      (s.connectClusterNode connect r node nodes) := by
  unfold SharedMgr.connectClusterNode
  split
  · exact { h with }
  · rcases hinit : RedisClusterNode.init connect node s.mgr.minSize_ s.mgr.maxSize_ s.mgr.timeout_
      s.mgr.password_ s.mgr.created with ⟨ok, clusterNode, created⟩
    obtain ⟨hle, hclients⟩ := RedisClusterNode.init_clients hinit
    cases ok with
    | true =>
      have hzero := h.bound s.mgr.heap.length le_rfl
      have hnew := h.newNode clusterNode hle hclients 1
        (Function.update s.useCount s.mgr.heap.length 1) (fun j => by
          by_cases hj : j = s.mgr.heap.length
          · rw [hj, Function.update_self, if_pos rfl, hzero]
          · rw [Function.update_of_ne hj, if_neg hj, Nat.add_zero])
      refine { hnew with counts := fun j => ?_ }
      have := hnew.counts j
      rw [Nat.zero_add] at this
      exact this
    | false =>
      have hnew := h.newNode clusterNode.stop hle (fun c hc => by cases hc) 0
        s.useCount (fun j => by simp)
      simp only [Bool.false_eq_true, if_false, locals_leave]
      refine LifeInv.leave ?_ r _ fun k hk => by cases hk
      refine (hnew.congr (fun _ => 0) fun j => by simp).delete fun c hc => ?_
      refine ⟨s.mgr.heap.length, ?_, h.bound _ le_rfl⟩
      simp only [SharedMgr.make]
      rw [if_pos (hclients c hc)]

/-- The `init2` that runs goes on. -/
theorem LifeInv.init2Step (h : LifeInv s.locals s) {net : Net} {uninit : Addr} {r : Init2}
    (hr : s.init2 = some r) (ha : s.Spares (.init2 net uninit))
    (hs : s.init2Step net uninit r = some s') : LifeInv s'.locals s' := by
  obtain ⟨caller, pc⟩ := r
  cases pc with
  | askServer =>
    obtain ⟨hi, hl⟩ := h.asked (fun ret mgr heq => askServer_asked heq) hs
    rw [hl]
    exact hi.congr _ fun j => by simp [locals, hr]
  | askBrokers =>
    obtain ⟨hi, hl⟩ := h.asked (fun ret mgr heq => askBrokers_asked heq) hs
    rw [hl]
    exact hi.congr _ fun j => by simp [locals, hr]
  | nodes nodes =>
    have h0 : LifeInv (fun _ => 0) s := h.congr _ fun j => by simp [locals, hr]
    cases nodes with
    | nil =>
      cases hs
      have hleave := h0.leave ⟨caller, .nodes []⟩ .slot fun k hk => by cases hk
      unfold SharedMgr.connected
      cases caller with
      | none => exact { hleave with }
      | some i => exact { hleave with }
    | cons node nodes =>
      cases hs
      exact h0.connectClusterNode net.connect _ node nodes
  | slots k slots id nodes =>
    have hlocals : ∀ j, s.locals j = if j = k then 1 else 0 := fun j => by simp [locals, hr]
    cases slots with
    | nil =>
      cases hs
      have hrel : LifeInv (fun _ => 0) (s.release k) :=
        (h.congr (fun j => 0 + if j = k then 1 else 0) fun j => by
          rw [hlocals, Nat.zero_add]).release
      exact { hrel with }
    | cons slots rest =>
      simp only [SharedMgr.init2Step] at hs
      split at hs
      · rename_i hle
        cases hs
        have hpos : 0 < s.useCount k := by
          have := h.counts k
          rw [hlocals, if_pos rfl] at this
          omega
        have hassign := h.assign hpos slots.slotStart_ fun old hold hne hone => by
          have hcount : s.useCount old = 1 := by
            rw [h.counts, hlocals, if_neg hne, hone]
          refine ha old ?_
          simp [takesLast, hr, hle, hold, hne, hcount]
        exact { hassign.congr (fun j => if j = k then 1 else 0) fun j =>
          (hlocals j).symm with }
      · cases hs
        exact { h.congr (fun j => if j = k then 1 else 0) fun j => (hlocals j).symm with }

/-- Every step that meets the condition keeps the invariant. -/
theorem LifeInv.next (h : LifeInv s.locals s) {a : CallAct} (ha : s.Spares a)
    (hs : s.next a = some s') : LifeInv s'.locals s' := by
  cases a with
  | find i connect =>
    simp only [SharedMgr.next] at hs
    split at hs
    · cases hs
    · rename_i c hc
      exact h.findStep hs hc
  | init2 net uninit =>
    simp only [SharedMgr.next] at hs
    split at hs
    · cases hs
    · rename_i r hr
      exact h.init2Step hr ha hs
  | recycle client connStatus_ =>
    simp only [SharedMgr.next, recycleStep] at hs
    repeat' split at hs
    all_goals cases hs
    rename_i k hk _ node hnode
    have hset := h.setNode k (node.recycle client connStatus_) fun c hc =>
      h.clients k node hnode c (RedisClusterNode.recycle_clients hc)
    exact { hset with out := fun c hc => h.out c (List.mem_of_mem_erase hc) }

theorem init_lifeInv (setup : Setup) (keys : List Bytes) :
    LifeInv (callSystem setup keys).init.locals (callSystem setup keys).init where
  counts k := by
    cases setup <;> simp [callSystem, Setup.mgr, Setup.pc, RedisClusterMgr.new, locals]
  bound _ _ := rfl
  made c k hc := by cases hc
  clients k node hk := by cases setup <;> cases hk
  deleted c hc := by cases hc
  out c hc := by cases hc
  taking f hf k hk := by
    obtain ⟨key, -, rfl⟩ := List.mem_map.mp hf
    cases hk

/-- In every run whose steps all meet the condition. -/
theorem clients_held (setup : Setup) (keys : List Bytes)
    (h : ((callSystem setup keys).only Spares).Reach s) : s.Held := by
  have hi : LifeInv s.locals s :=
    Sys.Reach.inv_only (I := fun s => LifeInv s.locals s) (init_lifeInv setup keys)
      (fun _ _ _ hi ha hs => hi.next ha hs) h
  exact hi.held

/-! ## A step that takes the last entry of a node in use -/

/-- What the last pointer takes with it is the node, and nothing else. -/
theorem release_frame (s : SharedMgr) (k : Nat) :
    (s.release k).mgr.slotMap_ = s.mgr.slotMap_ ∧ (s.release k).manager_ = s.manager_ ∧
      (s.release k).out = s.out := by
  unfold SharedMgr.release
  split
  · exact ⟨rfl, rfl, rfl⟩
  · split <;> exact ⟨rfl, rfl, rfl⟩

theorem assign_frame (s : SharedMgr) (pos : UInt16) (k : Nat) :
    (s.assign pos k).mgr.slotMap_ = Function.update s.mgr.slotMap_ pos (some k) ∧
      (s.assign pos k).manager_ = s.manager_ ∧ (s.assign pos k).out = s.out := by
  unfold SharedMgr.assign
  split
  · exact ⟨rfl, rfl, rfl⟩
  · exact release_frame _ _

/-- After it the node of the client is gone. -/
theorem LifeInv.not_held (h : LifeInv s.locals s) {c : Nat} (hc : c ∈ s.out)
    (hk : s.manager_ c = some k) (hlast : s.takesLast = some k) {net : Net} {uninit : Addr}
    (hs : s.next (.init2 net uninit) = some s') : ¬ s'.Held := by
  intro hheld
  simp only [takesLast] at hlast
  split at hlast
  · rename_i caller node slots rest id nodes hr
    split at hlast
    · rename_i hle
      obtain ⟨hold, hcond⟩ := Option.filter_eq_some_iff.mp hlast
      obtain ⟨hne, hone⟩ : k ≠ node ∧ s.useCount k = 1 := by simpa using hcond
      simp only [SharedMgr.next, hr, SharedMgr.init2Step, if_pos hle] at hs
      cases hs
      obtain ⟨hmap, hmanager, hout⟩ := assign_frame s slots.slotStart_ node
      obtain ⟨-, j, hj, hpos⟩ := hheld c (by show c ∈ (s.assign slots.slotStart_ node).out; rwa [hout])
      have hj : (s.assign slots.slotStart_ node).manager_ c = some j := hj
      have hpos : 0 < refs (s.assign slots.slotStart_ node).mgr.slotMap_ j := hpos
      rw [hmanager, hk] at hj
      cases hj
      have hcount := h.counts k
      have hupd := refs_update s.mgr.slotMap_ slots.slotStart_ node k
      rw [if_pos hold, if_neg hne] at hupd
      rw [hmap] at hpos
      omega
    · cases hlast
  · cases hlast

end

/-! ## A run -/

/-- `a1` has slot 0. -/
def zeroLine : NodeLine := { importingLine false with slots := [.slot 0] }

/-- `b1` has the slot of the key `a`. -/
def otherLine : NodeLine := { migratingLine with slots := [.slot 15495] }

/-- `c1`, a new master. -/
def newLine (slots : List RedisAsyn.SlotToken) : NodeLine :=
  { migratingLine with id := [99, 49], slots }

/-- `n` steps of an `init2` that is told of the nodes `lines`. -/
def tell (lines : List NodeLine) (n : Nat) : List CallAct :=
  List.replicate n (.init2 (goodNet lines) ⟨[], 0⟩)

/-- `n` steps of call `i`. -/
def proceed (i n : Nat) : List CallAct := List.replicate n (.find i fun _ _ => true)

/-- A call for the key `a`, and two for the empty key, whose slot is 0. -/
def threeCalls : Sys SharedMgr CallAct :=
  callSystem (.init2 firstBroker 1 8 0 [] 0) [[97], [], []]

/-- Client 2 is in use, client 1 comes back broken, and the third call starts to reconnect. -/
def failRun : List CallAct :=
  List.flatten [tell [zeroLine, otherLine] 10, proceed 0 4, proceed 1 4, [.recycle 1 false],
    proceed 2 4]

/-- The new master has taken slot 0 only, and client 2 stays. -/
theorem clients_held_spared :
    ∃ s, (threeCalls.only Spares).run threeCalls.init
        (failRun ++ tell [newLine [.slot 0], otherLine] 7 ++ proceed 2 2) = some s ∧
      s.out = [2, 4] ∧ s.Held := by
  have hmap : ((threeCalls.only Spares).run threeCalls.init
      (failRun ++ tell [newLine [.slot 0], otherLine] 7 ++ proceed 2 2)).map (fun s => s.out) =
        some [2, 4] := by decide +kernel
  obtain ⟨s, hrun, hout⟩ := Option.map_eq_some_iff.mp hmap
  exact ⟨s, hrun, hout, clients_held _ _ (Sys.Reach.init.run _ hrun)⟩

/-- The new master has taken the slots of both nodes, and client 2 is deleted. -/
theorem used_client_deleted : ¬ ∀ setup keys s, (callSystem setup keys).Reach s → s.Held := by
  intro h
  have hmap : (threeCalls.run threeCalls.init
      (failRun ++ tell [newLine [.slot 0, .slot 15495]] 7)).map (fun s => (s.out, s.deleted)) =
        some ([2], [2]) := by decide +kernel
  obtain ⟨s, hrun, heq⟩ := Option.map_eq_some_iff.mp hmap
  obtain ⟨hout, hdeleted⟩ := Prod.mk.inj heq
  have hheld : s.Held := h _ _ s (Sys.Reach.init.run _ hrun)
  exact (hheld 2 (by rw [hout]; exact List.mem_singleton_self 2)).1
    (by rw [hdeleted]; exact List.mem_singleton_self 2)

end SharedMgr

end RedisCluster
end CmakeFrame
