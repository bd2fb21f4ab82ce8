import CmakeFrame.Lib.Sys
import Mathlib.Data.List.Sort

/-!
# `TimerOrderDeque` of `redisAsyn/v1.0/src/LibeventIo.h`

Orders that wait for their time: `insertTimerOrder` puts a node before the first one that is not
earlier, `dealTimerOrder` looks at the front only.

* `insertTimerOrder_eq`: the three cases of the insertion are one sorted insertion.
* `timerSystem`: the queue with the history of what went in and what came out, under any calls.
* `timerOrder_reach`: the list is sorted, so the front is the earliest; every node comes out once.
-/

namespace CmakeFrame
namespace RedisAsyn

open Lib

section Deque

variable {ν : Type}

/-- `RedisCliOrderNode`: the time of a node; `order` is the rest of it. -/
structure TimerNode (ν : Type) where
  outSecond_ : UInt64
  order : ν
  deriving DecidableEq, Repr

/-- The loop of `insertTimerOrder` and the `push_back` behind it. -/
def insertTimerLoop (node : TimerNode ν) : List (TimerNode ν) → List (TimerNode ν)
  | [] => [node]
  | iter :: rest =>
    if node.outSecond_ ≤ iter.outSecond_ then node :: iter :: rest
    else iter :: insertTimerLoop node rest

/-- `insertTimerOrder(node)`. -/
def insertTimerOrder (node : TimerNode ν) (list_ : List (TimerNode ν)) : List (TimerNode ν) :=
  if list_.isEmpty then node :: list_
  else if node.outSecond_ = 0 then node :: list_
  else insertTimerLoop node list_

/-- The condition of `dealTimerOrder` on a node. -/
def TimerNode.due (nowSecond : UInt64) (node : TimerNode ν) : Prop :=
  node.outSecond_ = 0 ∨ nowSecond ≥ node.outSecond_

instance (nowSecond : UInt64) (node : TimerNode ν) : Decidable (node.due nowSecond) :=
  inferInstanceAs (Decidable (_ ∨ _))

/-- `dealTimerOrder(nowSecond)`: both branches of the loop return, so it sees the front only. -/
def dealTimerOrder (nowSecond : UInt64) (list_ : List (TimerNode ν)) :
    Option (TimerNode ν) × List (TimerNode ν) :=
  match list_ with
  | [] => (none, [])
  | iter :: rest => if iter.due nowSecond then (some iter, rest) else (none, iter :: rest)

/-! ## One call -/

/-- Sorted by `outSecond_`. -/
def TimerSorted (list_ : List (TimerNode ν)) : Prop :=
  list_.Pairwise fun a b => a.outSecond_ ≤ b.outSecond_

theorem insertTimerLoop_eq (node : TimerNode ν) (list_ : List (TimerNode ν)) :
    insertTimerLoop node list_ =
      list_.orderedInsert (fun a b => a.outSecond_ ≤ b.outSecond_) node := by
  induction list_ with
  | nil => rfl
  | cons iter rest ih => rw [insertTimerLoop, ih, List.orderedInsert_cons]

theorem insertTimerOrder_eq (node : TimerNode ν) (list_ : List (TimerNode ν)) :
    insertTimerOrder node list_ =
      list_.orderedInsert (fun a b => a.outSecond_ ≤ b.outSecond_) node := by
  unfold insertTimerOrder
  split
  · rename_i h
    rw [List.isEmpty_iff.mp h]
    rfl
  · split
    · rename_i h0
      cases list_ with
      | nil => rfl
      | cons iter rest =>
        exact (List.orderedInsert_cons_of_le _ rest (by rw [h0]; exact UInt64.zero_le)).symm
    · exact insertTimerLoop_eq node list_

theorem insertTimerOrder_perm (node : TimerNode ν) (list_ : List (TimerNode ν)) :
    (insertTimerOrder node list_).Perm (node :: list_) := by
  rw [insertTimerOrder_eq]
  exact List.perm_orderedInsert _ _ _

theorem TimerSorted.insert {list_ : List (TimerNode ν)} (h : TimerSorted list_)
    (node : TimerNode ν) : TimerSorted (insertTimerOrder node list_) := by
  have : Std.Total fun a b : TimerNode ν => a.outSecond_ ≤ b.outSecond_ :=
    ⟨fun a b => UInt64.le_total a.outSecond_ b.outSecond_⟩
  have : IsTrans (TimerNode ν) fun a b => a.outSecond_ ≤ b.outSecond_ :=
    ⟨fun a b c => UInt64.le_trans⟩
  rw [insertTimerOrder_eq]
  exact List.Pairwise.orderedInsert node list_ h

/-- A call of `dealTimerOrder` takes the front away or leaves the list alone. -/
theorem dealTimerOrder_list (nowSecond : UInt64) (list_ : List (TimerNode ν)) :
    list_ = (dealTimerOrder nowSecond list_).1.toList ++ (dealTimerOrder nowSecond list_).2 := by
  unfold dealTimerOrder
  split
  · rfl
  · split <;> rfl

theorem TimerSorted.deal {list_ : List (TimerNode ν)} (h : TimerSorted list_)
    (nowSecond : UInt64) : TimerSorted (dealTimerOrder nowSecond list_).2 := by
  have h := h
  rw [dealTimerOrder_list nowSecond list_] at h
  exact (List.pairwise_append.mp h).2.1

/-- A node that is returned was stored and is due. -/
theorem dealTimerOrder_due {nowSecond : UInt64} {list_ : List (TimerNode ν)} {node : TimerNode ν}
    (h : (dealTimerOrder nowSecond list_).1 = some node) :
    node ∈ list_ ∧ node.due nowSecond := by
  unfold dealTimerOrder at h
  split at h
  · cases h
  · split at h
    · rename_i hd
      cases h
      exact ⟨List.mem_cons_self, hd⟩
    · cases h

/-- What is returned from a sorted list is one of the earliest nodes. -/
theorem TimerSorted.deal_least {list_ : List (TimerNode ν)} (h : TimerSorted list_)
    {nowSecond : UInt64} {node : TimerNode ν}
    (hd : (dealTimerOrder nowSecond list_).1 = some node) {other : TimerNode ν}
    (ho : other ∈ list_) : node.outSecond_ ≤ other.outSecond_ := by
  have h' := h
  have ho' := ho
  rw [dealTimerOrder_list nowSecond list_, hd] at h' ho'
  rcases List.mem_cons.mp ho' with rfl | ho'
  · exact UInt64.le_refl _
  · exact (List.pairwise_cons.mp h').1 other ho'

/-- A node that is due makes every earlier node due. -/
theorem TimerNode.due_of_le {nowSecond : UInt64} {a b : TimerNode ν} (hb : b.due nowSecond)
    (h : a.outSecond_ ≤ b.outSecond_) : a.due nowSecond := by
  rcases hb with hb | hb
  · left
    rw [hb] at h
    exact UInt64.le_zero_iff.mp h
  · exact Or.inr (UInt64.le_trans h hb)

/-- The front of a sorted list decides whether any node is due. -/
theorem TimerSorted.deal_iff {list_ : List (TimerNode ν)} (h : TimerSorted list_)
    (nowSecond : UInt64) :
    (∃ node, (dealTimerOrder nowSecond list_).1 = some node) ↔
      ∃ node ∈ list_, node.due nowSecond := by
  constructor
  · rintro ⟨node, hd⟩
    exact ⟨node, dealTimerOrder_due hd⟩
  · rintro ⟨node, hm, hn⟩
    cases list_ with
    | nil => cases hm
    | cons iter rest =>
      have hi : iter.due nowSecond := by
        rcases List.mem_cons.mp hm with rfl | hm
        · exact hn
        · exact TimerNode.due_of_le hn ((List.pairwise_cons.mp h).1 node hm)
      exact ⟨iter, by simp [dealTimerOrder, hi]⟩

/-- Null at a time that is late enough for every node: there is none. -/
theorem TimerSorted.eq_nil_of_deal {list_ : List (TimerNode ν)} (h : TimerSorted list_)
    {now : UInt64} (hlate : ∀ node ∈ list_, node.outSecond_ ≤ now)
    (hd : (dealTimerOrder now list_).1 = none) : list_ = [] := by
  refine List.eq_nil_iff_forall_not_mem.mpr fun node hm => ?_
  obtain ⟨other, ho⟩ := (h.deal_iff now).mpr ⟨node, hm, Or.inr (hlate node hm)⟩
  rw [hd] at ho
  cases ho

end Deque

/-! ## Any calls -/

variable {ν : Type}

/-- The queue, and as history the nodes that went in, and those that came out with the time of the
call. -/
structure TimerState (ν : Type) where
  list_ : List (TimerNode ν)
  inserted : List (TimerNode ν)
  returned : List (UInt64 × TimerNode ν)
  deriving DecidableEq, Repr

inductive TimerAct (ν : Type) where
  | insertTimerOrder (node : TimerNode ν)
  | dealTimerOrder (nowSecond : UInt64)
  deriving DecidableEq, Repr

def TimerState.next (s : TimerState ν) : TimerAct ν → TimerState ν
  | .insertTimerOrder node =>
    { s with list_ := insertTimerOrder node s.list_, inserted := s.inserted ++ [node] }
  | .dealTimerOrder nowSecond =>
    let (node, list_) := dealTimerOrder nowSecond s.list_
    { s with list_ := list_, returned := s.returned ++ node.toList.map (nowSecond, ·) }

/-- The queue under any calls; the mutex makes each of them one step. -/
def timerSystem (ν : Type) : Sys (TimerState ν) (TimerAct ν) where
  init := ⟨[], [], []⟩
  next s a := some (s.next a)

structure TimerInv (s : TimerState ν) : Prop where
  sorted : TimerSorted s.list_
  /-- No node was returned before its time. -/
  due : ∀ r ∈ s.returned, r.2.due r.1
  /-- Every node that went in came out once or is stored once. -/
  once : s.inserted.Perm (s.returned.map (·.2) ++ s.list_)

theorem timerInv_init : TimerInv (timerSystem ν).init where
  sorted := List.Pairwise.nil
  due := by simp [timerSystem]
  once := List.Perm.refl _

theorem TimerInv.next {s : TimerState ν} (h : TimerInv s) (a : TimerAct ν) :
    TimerInv (s.next a) := by
  cases a with
  | insertTimerOrder node =>
    refine ⟨h.sorted.insert node, h.due, ?_⟩
    have hins := insertTimerOrder_perm node s.list_
    have hlast : (s.list_ ++ [node]).Perm (insertTimerOrder node s.list_) :=
      (List.perm_append_singleton node s.list_).trans hins.symm
    calc (s.inserted ++ [node]).Perm ((s.returned.map (·.2) ++ s.list_) ++ [node]) :=
        h.once.append_right [node]
      _ = s.returned.map (·.2) ++ (s.list_ ++ [node]) := List.append_assoc _ _ _
      List.Perm _ (s.returned.map (·.2) ++ insertTimerOrder node s.list_) := hlast.append_left _
  | dealTimerOrder nowSecond =>
    refine ⟨h.sorted.deal nowSecond, fun r hr => ?_, ?_⟩
    · rcases List.mem_append.mp hr with hr | hr
      · exact h.due r hr
      · obtain ⟨node, hn, rfl⟩ := List.mem_map.mp hr
        exact (dealTimerOrder_due (Option.mem_toList.mp hn)).2
    · have hsplit := dealTimerOrder_list nowSecond s.list_
      have hmap : (dealTimerOrder nowSecond s.list_).1.toList.map (Prod.snd ∘ (nowSecond, ·)) =
          (dealTimerOrder nowSecond s.list_).1.toList := List.map_id _
      simp only [TimerState.next, List.map_append, List.map_map, hmap, List.append_assoc]
      rw [← hsplit]
      exact h.once

theorem timerInv_reach {s : TimerState ν} (h : (timerSystem ν).Reach s) : TimerInv s := by
  refine h.inv timerInv_init fun s a s' hi hs => ?_
  cases hs
  exact hi.next a

/-- Late enough for every stored node, so many calls as there are nodes take them all out. -/
theorem timerSystem_drain (now : UInt64) (s : TimerState ν)
    (hlate : ∀ node ∈ s.list_, node.outSecond_ ≤ now) :
    (timerSystem ν).run s (List.replicate s.list_.length (.dealTimerOrder now)) =
      some { s with list_ := [], returned := s.returned ++ s.list_.map (now, ·) } := by
  obtain ⟨list_, inserted, returned⟩ := s
  induction list_ generalizing returned with
  | nil => simp [Sys.run]
  | cons iter rest ih =>
    have hd : iter.due now := Or.inr (hlate iter List.mem_cons_self)
    have hnext : (timerSystem ν).next ⟨iter :: rest, inserted, returned⟩ (.dealTimerOrder now) =
        some ⟨rest, inserted, returned ++ [(now, iter)]⟩ := by
      simp [timerSystem, TimerState.next, dealTimerOrder, hd]
    have hrest := ih (returned ++ [(now, iter)]) fun node hn => hlate node (List.mem_cons_of_mem _ hn)
    rw [List.length_cons, List.replicate_succ, Sys.run, hnext, Option.bind_some, hrest]
    simp

/-- In every state of the queue: the list is sorted; a call returns a node iff one is due, and then
an earliest one; no node came out before its time; what went in came out or is stored, each node
once. At a time that is late enough for all of it, null means that everything came out once, and
calls get there. -/
theorem timerOrder_reach {s : TimerState ν} (h : (timerSystem ν).Reach s) :
    TimerSorted s.list_ ∧
    (∀ now, (∃ node, (dealTimerOrder now s.list_).1 = some node) ↔
      ∃ node ∈ s.list_, node.outSecond_ = 0 ∨ node.outSecond_ ≤ now) ∧
    (∀ now node, (dealTimerOrder now s.list_).1 = some node →
      node ∈ s.list_ ∧ ∀ other ∈ s.list_, node.outSecond_ ≤ other.outSecond_) ∧
    (∀ r ∈ s.returned, r.2.outSecond_ = 0 ∨ r.2.outSecond_ ≤ r.1) ∧
    s.inserted.Perm (s.returned.map (·.2) ++ s.list_) ∧
    ∀ now, (∀ node ∈ s.list_, node.outSecond_ ≤ now) →
      ((dealTimerOrder now s.list_).1 = none → s.inserted.Perm (s.returned.map (·.2))) ∧
      ∃ s', (timerSystem ν).run s (List.replicate s.list_.length (.dealTimerOrder now)) = some s' ∧
        (dealTimerOrder now s'.list_).1 = none ∧ s.inserted.Perm (s'.returned.map (·.2)) := by
  have hi := timerInv_reach h
  refine ⟨hi.sorted, hi.sorted.deal_iff, fun now node hd => ?_, hi.due, hi.once, fun now hl => ?_⟩
  · exact ⟨(dealTimerOrder_due hd).1, fun other ho => hi.sorted.deal_least hd ho⟩
  · refine ⟨fun hn => ?_, _, timerSystem_drain now s hl, rfl, ?_⟩
    · have hnil := hi.sorted.eq_nil_of_deal hl hn
      have ho := hi.once
      rwa [hnil, List.append_nil] at ho
    have hmap : (s.list_.map (now, ·)).map Prod.snd = s.list_ := by simp
    rw [List.map_append, hmap]
    exact hi.once

/-- Three nodes, and a call before the time of the other two. -/
theorem timerOrder_reach_three :
    ∃ s : TimerState Nat, (timerSystem Nat).Reach s ∧
      s.list_ = [⟨3, 2⟩, ⟨5, 0⟩] ∧ s.returned = [(1, ⟨0, 1⟩)] ∧
      TimerSorted s.list_ ∧ s.inserted.Perm (s.returned.map (·.2) ++ s.list_) := by
  have hr : (timerSystem Nat).Reach ⟨[⟨3, 2⟩, ⟨5, 0⟩], [⟨5, 0⟩, ⟨0, 1⟩, ⟨3, 2⟩], [(1, ⟨0, 1⟩)]⟩ :=
    Sys.Reach.init.run [.insertTimerOrder ⟨5, 0⟩, .insertTimerOrder ⟨0, 1⟩,
      .insertTimerOrder ⟨3, 2⟩, .dealTimerOrder 1, .dealTimerOrder 2] (by decide)
  obtain ⟨hsorted, -, -, -, honce, -⟩ := timerOrder_reach hr
  exact ⟨_, hr, rfl, rfl, hsorted, honce⟩

end RedisAsyn
end CmakeFrame
