import CmakeFrame.RedisCluster.SlotMap

/-!
# The pool of one node

`getRedisClient`, `releaseRedisClient` and `removeRedisClient` of a `RedisClusterNode`, called in any
order, with any client. Each holds the mutex from its start to its end.

* `Pool`: the node, the clients that exist, and who has which of them.
* `poolSystem`: any sequence of calls after `init` returned true.
* `Kept`: what every call keeps; `Owned`: what is kept if nobody gives back what others have, and no
  client in use is removed.
* `pool_sound`: the pool over whole runs.
-/

namespace CmakeFrame
namespace RedisCluster

open Lib

/-! ## Calls -/

/-- `made` are the client objects that were created and not deleted, `held` what the users got from
`getRedisClient` and did not give back. -/
structure Pool where
  node : RedisClusterNode
  created : Nat
  made : List Nat
  held : List (Nat × Nat)
  deriving DecidableEq, Repr

/-- A call of a user; `none` is a null pointer. -/
inductive PoolAct where
  | get (user : Nat) (connect : Connect)
  | release (user : Nat) (client : Option Nat)
  | remove (user : Nat) (client : Option Nat)

namespace Pool

/-- A client that fails to connect is deleted. -/
def get (user : Nat) (connect : Connect) (s : Pool) : Pool :=
  let (client, node, created) := s.node.getRedisClient connect s.created
  { node := node
    created := created
    made := if client = some s.created then s.made ++ [s.created] else s.made
    held := s.held ++ (client.map fun c => (user, c)).toList }

def release (user : Nat) (client : Option Nat) (s : Pool) : Pool :=
  match client with
  | none => s
  | some c => { s with node := s.node.releaseRedisClient c, held := s.held.erase (user, c) }

/-- `removeRedisClient` does not delete the client. -/
def remove (user : Nat) (client : Option Nat) (s : Pool) : Pool :=
  match client with
  | none => s
  | some c => { s with node := s.node.removeRedisClient c, held := s.held.erase (user, c) }

def next (s : Pool) : PoolAct → Pool
  | .get user connect => s.get user connect
  | .release user client => s.release user client
  | .remove user client => s.remove user client

end Pool

/-- The calls after an `init` that made the clients from `first` on. -/
def poolSystem (node : RedisClusterNode) (first created : Nat) : Sys Pool PoolAct where
  init := ⟨node, created, List.range' first (created - first), []⟩
  next s a := some (s.next a)

namespace Pool

/-! ## The property -/

/-- No client is twice in the pool, there are no more than `maxSize_`, and a node that is up has
one. -/
structure Sound (s : Pool) : Prop where
  idle : s.node.idleList_.Nodup
  disjoint : ∀ c ∈ s.node.idleList_, c ∉ s.node.useMap_
  size : ((s.node.idleList_.length + s.node.useMap_.length : Nat) : Int) ≤ s.node.maxSize_.toInt
  maxSize : s.node.maxSize_.toInt ≤ 64
  status : s.node.bStatus_ = true → s.node.idleList_ ≠ [] ∨ s.node.useMap_ ≠ []

/-- No two users have one client. -/
def OneUser (s : Pool) : Prop := (s.held.map Prod.snd).Nodup

/-- Every client object is in the pool. -/
def NoneLost (s : Pool) : Prop := ∀ c ∈ s.made, c ∈ s.node.idleList_ ∨ c ∈ s.node.useMap_

/-- A client in use is given back by the user that has it, and none is removed. -/
def Fair (s : Pool) : PoolAct → Prop
  | .get _ _ => True
  | .release user client => ∀ c ∈ client, c ∈ s.node.useMap_ → (user, c) ∈ s.held
  | .remove _ client => ∀ c ∈ client, c ∉ s.node.useMap_

instance (s : Pool) (a : PoolAct) : Decidable (s.Fair a) := by
  cases a <;> unfold Fair <;> infer_instance

end Pool

/-! ## What a call does -/

namespace RedisClusterNode

variable {connect : Connect} {node : RedisClusterNode} {created : Nat}

/-- What `getRedisClient` can do: give an idle client, a new one, or none. -/
theorem getRedisClient_cases (hmax : 0 < node.maxSize_.toInt) (connect : Connect) (created : Nat) :
    (∃ c idle, node.idleList_ = c :: idle ∧ node.getRedisClient connect created =
        (some c, { node with idleList_ := idle, useMap_ := node.useMap_ ++ [c] }, created)) ∨
      (node.idleList_ = [] ∧ (node.useMap_.length : Int) < node.maxSize_.toInt ∧
        node.getRedisClient connect created =
          (some created, { node with useMap_ := node.useMap_ ++ [created] }, created + 1)) ∨
      ∃ bStatus_ created', created ≤ created' ∧ node.getRedisClient connect created =
        (none, { node with bStatus_ := bStatus_ }, created') ∧
          (bStatus_ = true → node.useMap_ ≠ []) := by
  unfold getRedisClient
  cases hidle : node.idleList_ with
  | cons c idle => exact .inl ⟨c, idle, rfl, rfl⟩
  | nil =>
    right
    simp only
    split_ifs with hroom hconnect huse
    · exact .inl ⟨trivial, hroom, by rw [← hidle]⟩
    · exact .inr ⟨false, created + 1, by omega, by rw [← hidle], by simp⟩
    · exact .inr ⟨node.bStatus_, created + 1, by omega, by rw [← hidle], fun _ => huse⟩
    · refine .inr ⟨node.bStatus_, created, le_rfl, by rw [← hidle], fun _ huse => hroom ?_⟩
      rw [huse]
      exact hmax

/-- A release keeps the clients of the node. -/
theorem releaseRedisClient_clients (client : Nat) (node : RedisClusterNode) :
    (node.releaseRedisClient client).clients.Perm node.clients := by
  unfold releaseRedisClient
  split_ifs with huse
  · simp only [clients, List.append_assoc, List.singleton_append]
    exact (List.perm_cons_erase huse).symm.append_left _
  · exact .refl _

theorem removeRedisClient_eq (client : Nat) (node : RedisClusterNode) :
    ∃ bStatus_, node.removeRedisClient client =
        { node with useMap_ := node.useMap_.erase client, bStatus_ := bStatus_ } ∧
      (bStatus_ = true → node.bStatus_ = true ∧
        (client ∈ node.useMap_ → node.useMap_.erase client ≠ [] ∨ node.idleList_ ≠ [])) := by
  unfold removeRedisClient
  simp only
  split_ifs with huse hempty
  · exact ⟨false, rfl, by simp⟩
  · exact ⟨node.bStatus_, rfl, fun h => ⟨h, fun _ => not_and_or.mp hempty⟩⟩
  · exact ⟨node.bStatus_, by rw [List.erase_of_not_mem huse], fun h => ⟨h, fun h' => absurd h' huse⟩⟩

theorem initLoop_range {n : Nat} {node' : RedisClusterNode} {created' : Nat}
    (h : initLoop connect n node created = (true, node', created')) :
    created' = created + n ∧
      node' = { node with idleList_ := node.idleList_ ++ List.range' created n } := by
  induction n generalizing node created with
  | zero =>
    cases h
    exact ⟨rfl, by rw [List.range'_zero, List.append_nil]⟩
  | succ n ih =>
    rw [initLoop] at h
    split_ifs at h with hc
    · obtain ⟨rfl, rfl⟩ := ih h
      refine ⟨by omega, ?_⟩
      simp only [List.append_assoc, List.singleton_append, List.range'_succ]
    · cases h

/-- What `init` leaves when it returns true. -/
theorem init_true_range {info : NodeInfo} {minSize maxSize timeout : Int32} {password : Bytes}
    {node' : RedisClusterNode} {created' : Nat}
    (h : init connect info minSize maxSize timeout password created = (true, node', created')) :
    node'.idleList_ = List.range' created (created' - created) ∧ node'.useMap_ = [] ∧
      node'.idleList_ ≠ [] ∧ (node'.idleList_.length : Int) ≤ node'.maxSize_.toInt ∧
      node'.maxSize_.toInt ≤ 64 := by
  obtain ⟨hsizes, hfresh, -⟩ := init_true h
  have hidle := hfresh.idle
  unfold init at h
  simp only at h
  rw [if_neg hsizes] at h
  obtain ⟨rfl, rfl⟩ := initLoop_range h
  have hpos := minSize_pos minSize
  have hle : (if minSize < kMinSize then kMinSize else minSize).toInt ≤
      (if maxSize > kMaxSize then kMaxSize else maxSize).toInt := by
    rw [SizesOk, gt_iff_lt, Int32.lt_iff_toInt_lt, Int.not_lt] at hsizes
    exact hsizes
  refine ⟨by simp, rfl, hidle, ?_, ?_⟩
  · simp only [List.nil_append, List.length_range']
    omega
  · show (if maxSize > kMaxSize then kMaxSize else maxSize).toInt ≤ 64
    split_ifs with hmax
    · decide
    · rw [gt_iff_lt, Int32.lt_iff_toInt_lt, Int.not_lt] at hmax
      exact hmax

end RedisClusterNode

namespace Pool

/-! ## Every call -/

/-- The clients of the node are different ones that were made, at most `maxSize_`, and there are some
if it is up. -/
structure Kept (s : Pool) : Prop where
  nodup : s.node.clients.Nodup
  made : ∀ c ∈ s.node.clients, c < s.created
  size : (s.node.clients.length : Int) ≤ s.node.maxSize_.toInt
  minSize : 0 < s.node.maxSize_.toInt
  maxSize : s.node.maxSize_.toInt ≤ 64
  status : s.node.bStatus_ = true → s.node.clients ≠ []

variable {s : Pool}

theorem Kept.sound (h : s.Kept) : s.Sound where
  idle := (List.nodup_append.mp h.nodup).1
  disjoint c hc hc' := (List.nodup_append.mp h.nodup).2.2 c hc c hc' rfl
  size := by
    rw [← List.length_append]
    exact h.size
  maxSize := h.maxSize
  status hb := by
    have hne := h.status hb
    rw [RedisClusterNode.clients, ne_eq, List.append_eq_nil_iff, not_and_or] at hne
    exact hne

/-- A client that is handed out was not in use. -/
theorem Kept.handed (h : s.Kept) {connect : Connect} {c created' : Nat} {node' : RedisClusterNode}
    (hget : s.node.getRedisClient connect s.created = (some c, node', created')) :
    c ∉ s.node.useMap_ := by
  intro huse
  rcases RedisClusterNode.getRedisClient_cases h.minSize connect s.created with
    ⟨d, idle, hidle, hd⟩ | ⟨-, -, hd⟩ | ⟨b, n, -, hd, -⟩
  · rw [hd] at hget
    obtain rfl := Option.some.inj (Prod.mk.inj hget).1
    exact h.sound.disjoint d (by rw [hidle]; exact List.mem_cons_self) huse
  · rw [hd] at hget
    obtain rfl := Option.some.inj (Prod.mk.inj hget).1
    exact absurd (h.made _ (List.mem_append_right _ huse)) (lt_irrefl _)
  · rw [hd] at hget
    cases (Prod.mk.inj hget).1

theorem Kept.get (h : s.Kept) (user : Nat) (connect : Connect) : (s.get user connect).Kept := by
  unfold Pool.get
  rcases RedisClusterNode.getRedisClient_cases h.minSize connect s.created with
    ⟨c, idle, hidle, hget⟩ | ⟨hidle, hroom, hget⟩ | ⟨b, created', hle, hget, hb⟩
  · -- the client goes from one list to the other
    have hperm : (idle ++ (s.node.useMap_ ++ [c])).Perm s.node.clients := by
      rw [RedisClusterNode.clients, hidle, ← List.append_assoc]
      exact (List.perm_append_singleton c _)
    rw [hget]
    exact ⟨hperm.nodup_iff.mpr h.nodup, fun d hd => h.made d (hperm.mem_iff.mp hd),
      by rw [RedisClusterNode.clients, hperm.length_eq]; exact h.size, h.minSize, h.maxSize,
      fun _ => by simp [RedisClusterNode.clients]⟩
  · have hclients : s.node.clients = s.node.useMap_ := by
      rw [RedisClusterNode.clients, hidle, List.nil_append]
    have hnodup := h.nodup
    have hmade := h.made
    rw [hclients] at hnodup hmade
    rw [hget]
    refine ⟨?_, ?_, ?_, h.minSize, h.maxSize, fun _ => by simp [RedisClusterNode.clients]⟩
    · simp only [RedisClusterNode.clients, hidle, List.nil_append]
      refine List.Nodup.append hnodup (List.nodup_singleton _) ?_
      intro d hd hd'
      obtain rfl := List.mem_singleton.mp hd'
      exact absurd (hmade _ hd) (lt_irrefl _)
    · simp only [RedisClusterNode.clients, hidle, List.nil_append, List.mem_append,
        List.mem_singleton]
      rintro d (hd | rfl)
      · exact Nat.lt_succ_of_lt (hmade d hd)
      · exact Nat.lt_succ_self _
    · simp only [RedisClusterNode.clients, hidle, List.nil_append, List.length_append,
        List.length_singleton]
      omega
  · rw [hget]
    refine ⟨h.nodup, fun c hc => Nat.lt_of_lt_of_le (h.made c hc) hle, h.size, h.minSize, h.maxSize,
      fun hb' hnil => ?_⟩
    exact hb hb' (List.append_eq_nil_iff.mp hnil).2

theorem Kept.release (h : s.Kept) (user : Nat) (client : Option Nat) :
    (s.release user client).Kept := by
  cases client with
  | none => exact h
  | some c =>
    have hperm := RedisClusterNode.releaseRedisClient_clients c s.node
    have hsame : (s.node.releaseRedisClient c).maxSize_ = s.node.maxSize_ ∧
        (s.node.releaseRedisClient c).bStatus_ = s.node.bStatus_ := by
      unfold RedisClusterNode.releaseRedisClient
      split_ifs <;> exact ⟨rfl, rfl⟩
    refine ⟨hperm.nodup_iff.mpr h.nodup, fun d hd => h.made d (hperm.mem_iff.mp hd), ?_, ?_, ?_,
      fun hb hnil => ?_⟩
    · show ((s.node.releaseRedisClient c).clients.length : Int) ≤ _
      rw [hperm.length_eq, Pool.release, hsame.1]
      exact h.size
    · exact hsame.1 ▸ h.minSize
    · exact hsame.1 ▸ h.maxSize
    · refine h.status (hsame.2 ▸ hb) (List.Perm.eq_nil ?_)
      rw [← show (s.node.releaseRedisClient c).clients = [] from hnil]
      exact hperm.symm

theorem Kept.remove (h : s.Kept) (user : Nat) (client : Option Nat) :
    (s.remove user client).Kept := by
  cases client with
  | none => exact h
  | some c =>
    obtain ⟨b, heq, hb⟩ := RedisClusterNode.removeRedisClient_eq c s.node
    have hsub : (s.node.idleList_ ++ s.node.useMap_.erase c).Sublist s.node.clients :=
      List.Sublist.append_left (List.erase_sublist) _
    unfold Pool.remove
    simp only [heq]
    refine ⟨hsub.nodup h.nodup, fun d hd => h.made d (hsub.subset hd), ?_, h.minSize, h.maxSize,
      fun hb' hnil => ?_⟩
    · exact le_trans (Int.ofNat_le.mpr hsub.length_le) h.size
    · obtain ⟨hstatus, hleft⟩ := hb hb'
      obtain ⟨hidle, huse⟩ := List.append_eq_nil_iff.mp hnil
      by_cases hc : c ∈ s.node.useMap_
      · exact (hleft hc).elim (fun hne => hne huse) fun hne => hne hidle
      · rw [List.erase_of_not_mem hc] at huse
        exact h.status hstatus (List.append_eq_nil_iff.mpr ⟨hidle, huse⟩)

theorem Kept.next (h : s.Kept) (a : PoolAct) : (s.next a).Kept := by
  cases a with
  | get user connect => exact h.get user connect
  | release user client => exact h.release user client
  | remove user client => exact h.remove user client

/-! ## Fair calls -/

/-- The pair of a client that one user has. -/
theorem map_snd_erase {l : List (Nat × Nat)} {user c : Nat} (hl : (l.map Prod.snd).Nodup)
    (h : (user, c) ∈ l) : (l.erase (user, c)).map Prod.snd = (l.map Prod.snd).erase c := by
  induction l with
  | nil => cases h
  | cons p l ih =>
    obtain ⟨hp, hl⟩ := List.nodup_cons.mp hl
    by_cases hpc : p = (user, c)
    · subst hpc
      rw [List.erase_cons_head, List.map_cons, List.erase_cons_head]
    · have hmem : (user, c) ∈ l := (List.mem_cons.mp h).resolve_left fun he => hpc he.symm
      have hne : p.2 ≠ c := fun he => hp (he ▸ List.mem_map_of_mem hmem)
      rw [List.erase_cons_tail (by simpa using hpc), List.map_cons, List.map_cons,
        List.erase_cons_tail (by simpa using hne), ih hl hmem]

/-- Who has what is what is in use, and every client object is in the pool. -/
structure Owned (s : Pool) : Prop where
  held : s.held.map Prod.snd = s.node.useMap_
  lost : s.NoneLost

theorem Owned.oneUser (h : s.Owned) (hk : s.Kept) : s.OneUser := by
  rw [OneUser, h.held]
  exact (List.nodup_append.mp hk.nodup).2.1

theorem Owned.get (h : s.Owned) (hk : s.Kept) (user : Nat) (connect : Connect) :
    (s.get user connect).Owned := by
  have hheld := h.held
  have hlost := h.lost
  unfold Pool.get
  rcases RedisClusterNode.getRedisClient_cases hk.minSize connect s.created with
    ⟨c, idle, hidle, hget⟩ | ⟨hidle, -, hget⟩ | ⟨b, created', -, hget, -⟩
  · have hold : c ≠ s.created := by
      have := hk.made c (List.mem_append_left _ (by rw [hidle]; exact List.mem_cons_self))
      omega
    rw [hget]
    refine ⟨?_, fun d hd => ?_⟩
    · simp [hheld]
    · simp only [Option.some.injEq, hold, if_false] at hd
      have hd := hlost d hd
      rw [hidle] at hd
      simp only [List.mem_append, List.mem_cons, List.not_mem_nil, or_false] at hd ⊢
      tauto
  · rw [hget]
    refine ⟨?_, fun d hd => ?_⟩
    · simp [hheld]
    · simp only [if_true, List.mem_append, List.mem_singleton] at hd ⊢
      rcases hd with hd | rfl
      · exact (hlost d hd).imp_right .inl
      · exact .inr (.inr rfl)
  · rw [hget]
    refine ⟨?_, fun d hd => ?_⟩
    · simp [hheld]
    · simp only [reduceCtorEq, if_false] at hd
      exact hlost d hd

/-- What is not in use is not had by anybody. -/
theorem Owned.erase_held (h : s.Owned) {c : Nat} (hc : c ∉ s.node.useMap_) (user : Nat) :
    s.held.erase (user, c) = s.held := by
  refine List.erase_of_not_mem fun hmem => hc ?_
  rw [← h.held]
  exact List.mem_map_of_mem hmem

theorem Owned.release (h : s.Owned) (hk : s.Kept) (user : Nat) (client : Option Nat)
    (hf : s.Fair (.release user client)) : (s.release user client).Owned := by
  cases client with
  | none => exact h
  | some c =>
    have hheld := h.held
    have hlost := h.lost
    unfold Pool.release
    by_cases hc : c ∈ s.node.useMap_
    · have hmem := hf c rfl hc
      have hnode : s.node.releaseRedisClient c = { s.node with
          idleList_ := s.node.idleList_ ++ [c], useMap_ := s.node.useMap_.erase c } := if_pos hc
      simp only [hnode]
      refine ⟨?_, fun d hd => ?_⟩
      · rw [map_snd_erase (h.oneUser hk) hmem, hheld]
      · simp only [List.mem_append, List.mem_singleton]
        by_cases hdc : d = c
        · exact .inl (.inr hdc)
        · exact (hlost d hd).imp .inl (List.mem_erase_of_ne hdc).mpr
    · have hnode : s.node.releaseRedisClient c = s.node := if_neg hc
      simp only [hnode, h.erase_held hc]
      exact h

theorem Owned.remove (h : s.Owned) (user : Nat) (client : Option Nat)
    (hf : s.Fair (.remove user client)) : (s.remove user client).Owned := by
  cases client with
  | none => exact h
  | some c =>
    have hc : c ∉ s.node.useMap_ := hf c rfl
    have hnode : s.node.removeRedisClient c = s.node := if_neg hc
    unfold Pool.remove
    simp only [hnode, h.erase_held hc]
    exact h

theorem Owned.next (h : s.Owned) (hk : s.Kept) {a : PoolAct} (hf : s.Fair a) : (s.next a).Owned := by
  cases a with
  | get user connect => exact h.get hk user connect
  | release user client => exact h.release hk user client hf
  | remove user client => exact h.remove user client hf

/-! ## Whole runs -/

section Runs

variable {connect : Connect} {info : NodeInfo} {minSize maxSize timeout : Int32} {password : Bytes}
  {first created : Nat} {node : RedisClusterNode}
  (hinit : RedisClusterNode.init connect info minSize maxSize timeout password first =
    (true, node, created))

include hinit

theorem init_kept : (poolSystem node first created).init.Kept := by
  obtain ⟨hidle, huse, hne, hsize, hmax⟩ := RedisClusterNode.init_true_range hinit
  have hclients : node.clients = List.range' first (created - first) := by
    rw [RedisClusterNode.clients, huse, List.append_nil, hidle]
  rw [hidle] at hne
  have hpos : 0 < node.idleList_.length := by
    rw [hidle]
    exact List.length_pos_of_ne_nil hne
  refine ⟨?_, fun c hc => ?_, ?_, ?_, hmax, fun _ => ?_⟩
  · rw [poolSystem]
    simp only [hclients]
    exact List.nodup_range'
  · simp only [poolSystem, hclients, List.mem_range'_1] at hc
    show c < created
    omega
  · show (node.clients.length : Int) ≤ _
    rw [hclients, ← hidle]
    exact hsize
  · show 0 < node.maxSize_.toInt
    omega
  · show node.clients ≠ []
    rwa [hclients]

theorem init_owned : (poolSystem node first created).init.Owned := by
  obtain ⟨hidle, huse, -⟩ := RedisClusterNode.init_true_range hinit
  refine ⟨huse.symm, fun c hc => .inl ?_⟩
  show c ∈ node.idleList_
  rw [hidle]
  exact hc

theorem reach_kept {s : Pool} (h : (poolSystem node first created).Reach s) : s.Kept := by
  refine h.inv (init_kept hinit) ?_
  rintro s a s' hs ⟨⟩
  exact hs.next a

theorem reach_owned {s : Pool} (h : ((poolSystem node first created).only Fair).Reach s) :
    s.Kept ∧ s.Owned := by
  refine Sys.Reach.inv_only (I := fun s => s.Kept ∧ s.Owned) ⟨init_kept hinit, init_owned hinit⟩ ?_ h
  rintro s a s' ⟨hk, ho⟩ hf ⟨⟩
  exact ⟨hk.next a, ho.next hk hf⟩

/-- After an `init` that returned true, in every run of calls: the clients of the pool are different
ones, at most `maxSize_`, and a node that is up has one; a client that is handed out was not in use.
If the calls are fair, moreover, no two users have one client, and every client object is in the
pool. -/
theorem pool_sound :
    (∀ s, (poolSystem node first created).Reach s → s.Sound ∧
      ∀ connect' c node' created', s.node.getRedisClient connect' s.created =
        (some c, node', created') → c ∉ s.node.useMap_) ∧
    ∀ s, ((poolSystem node first created).only Fair).Reach s →
      s.Sound ∧ s.OneUser ∧ s.NoneLost := by
  refine ⟨fun s h => ?_, fun s h => ?_⟩
  · have hk := reach_kept hinit h
    exact ⟨hk.sound, fun _ _ _ _ hget => hk.handed hget⟩
  · obtain ⟨hk, ho⟩ := reach_owned hinit h
    exact ⟨hk.sound, ho.oneUser hk, ho.lost⟩

end Runs

/-- A node with one client, and `init` for it. -/
def oneClient : RedisClusterNode :=
  { bStatus_ := true, info_ := ⟨[97], ⟨[104], 1⟩, []⟩, minSize_ := 1, maxSize_ := 2, timeout_ := 15
    password_ := [], useMap_ := [], idleList_ := [0] }

theorem oneClient_init : RedisClusterNode.init (fun _ _ => true) ⟨[97], ⟨[104], 1⟩, []⟩ 1 2 15 [] 0 =
    (true, oneClient, 1) := by decide

/-- User 0 takes the client and gives it back, and user 1 takes it. -/
def fairRun : List PoolAct :=
  [.get 0 fun _ _ => true, .release 0 (some 0), .get 1 fun _ _ => true]

theorem pool_sound_sample :
    let s : Pool := ⟨{ oneClient with useMap_ := [0], idleList_ := [] }, 1, [0], [(1, 0)]⟩
    s.Sound ∧ s.OneUser ∧ s.NoneLost := by
  intro s
  have hrun : ((poolSystem oneClient 0 1).only Fair).run (poolSystem oneClient 0 1).init fairRun =
      some s := by decide
  exact (pool_sound oneClient_init).2 s (Sys.Reach.init.run fairRun hrun)

/-- User 0 takes the client and has it removed. -/
def removeRun : List PoolAct := [.get 0 fun _ _ => true, .remove 0 (some 0)]

/-- User 0 gives the client back a second time, when user 1 has it, and user 2 takes it. -/
def twiceRun : List PoolAct := fairRun ++ [.release 0 (some 0), .get 2 fun _ _ => true]

/-- The removed client is not deleted, and not in the pool either; after the second release two users
have the client. -/
theorem pool_fails :
    (∃ s, (poolSystem oneClient 0 1).Reach s ∧ s.made = [0] ∧ s.node.clients = [] ∧
      ¬ s.NoneLost) ∧
    ∃ s, (poolSystem oneClient 0 1).Reach s ∧ s.held = [(1, 0), (2, 0)] ∧ ¬ s.OneUser := by
  refine ⟨⟨⟨{ oneClient with bStatus_ := false, idleList_ := [] }, 1, [0], []⟩, ?_, rfl, rfl, ?_⟩,
    ⟨⟨{ oneClient with useMap_ := [0], idleList_ := [] }, 1, [0], [(1, 0), (2, 0)]⟩, ?_, rfl, ?_⟩⟩
  · exact Sys.Reach.init.run removeRun (by decide)
  · intro h
    rcases h 0 List.mem_cons_self with h | h <;> cases h
  · exact Sys.Reach.init.run twiceRun (by decide)
  · unfold OneUser
    decide

end Pool

end RedisCluster
end CmakeFrame
