import CmakeFrame.RedisAsyn.ClusterNodes
import CmakeFrame.RedisAsyn.RedisMgr

/-!
# What `analysisClusterNodes` counts, for any text

* `Extends`: the analysis has made new clients; `getOrNew_extends`, `slaveLoop_counts`.
* `Analysed`: the clients of the new nodes are known ones or new ones, and the counts are those of
  the connected ones; `masterLine_analysed`, `nodesLoop_analysed`: each line keeps it;
  `analysisClusterNodes_analysed`: it holds of the new topology, whatever the text.
-/

namespace CmakeFrame
namespace RedisAsyn

open Lib

/-- All masters of the cluster. -/
def RedisClusterInfo.masters (info : RedisClusterInfo) : List RedisCli :=
  info.clusterVectInfo_.flatMap (·.clusterNode_.masters)

def RedisClusterInfo.slaves (info : RedisClusterInfo) : List RedisCli :=
  info.clusterVectInfo_.flatMap (·.clusterNode_.slave_)

theorem masters_snoc (map : SlotCliInfoMap) (info : RedisClusterInfo) (node : RedisClusterNode) :
    RedisClusterInfo.masters ⟨map, info.clusterVectInfo_ ++ [node]⟩ =
      info.masters ++ node.clusterNode_.masters := by
  simp [RedisClusterInfo.masters]

theorem slaves_snoc (map : SlotCliInfoMap) (info : RedisClusterInfo) (node : RedisClusterNode) :
    RedisClusterInfo.slaves ⟨map, info.clusterVectInfo_ ++ [node]⟩ =
      info.slaves ++ node.clusterNode_.slave_ := by
  simp [RedisClusterInfo.slaves]

/-- The clients among these that are connected, by their own word. -/
def connected (clis : List RedisCli) : Nat := clis.countP (·.state_ = .conn)

theorem connected_append (clis clis' : List RedisCli) :
    connected (clis ++ clis') = connected clis + connected clis' := List.countP_append

theorem connected_singleton (c : RedisCli) :
    connected [c] = if c.state_ = .conn then 1 else 0 := by
  by_cases h : c.state_ = .conn <;> simp [connected, h]

section

variable {mgr : RedisClientMgr} {ioThreadNum : Nat}

variable (mgr) in
/-- The manager has the client for some address. -/
def Known (c : RedisCli) : Prop := ∃ svr, mgr.knownCli svr = some c

theorem RedisMasterSlave.mem_of_getRedisClient {ms : RedisMasterSlave} {svr : RedisSvrInfo}
    {c : RedisCli} (h : ms.getRedisClient svr = some c) : c ∈ ms.masters ++ ms.slave_ := by
  unfold RedisMasterSlave.getRedisClient at h
  split at h
  · rename_i m hm
    split at h
    · cases h
      simp [RedisMasterSlave.masters, hm]
    · exact List.mem_append_right _ (List.mem_of_find?_eq_some h)
  · exact List.mem_append_right _ (List.mem_of_find?_eq_some h)

theorem RedisClusterInfo.mem_of_getRedisClient {info : RedisClusterInfo} {svr : RedisSvrInfo}
    {c : RedisCli} (h : info.getRedisClient svr = some c) : c ∈ info.masters ++ info.slaves := by
  obtain ⟨node, hnode, hc⟩ := List.exists_of_findSome?_eq_some h
  rcases List.mem_append.mp (RedisMasterSlave.mem_of_getRedisClient hc) with hc | hc
  · exact List.mem_append_left _ (List.mem_flatMap.mpr ⟨node, hnode, hc⟩)
  · exact List.mem_append_right _ (List.mem_flatMap.mpr ⟨node, hnode, hc⟩)

theorem Known.mem {c : RedisCli} (h : Known mgr c) :
    (∃ info, mgr.cluterCli_ = some info ∧ c ∈ info.masters ++ info.slaves) ∨ mgr.nodeCli_ = some c := by
  obtain ⟨svr, h⟩ := h
  unfold RedisClientMgr.knownCli at h
  split at h
  · rename_i info hinfo
    exact .inl ⟨info, hinfo, RedisClusterInfo.mem_of_getRedisClient h⟩
  · exact .inr (Option.filter_eq_some_iff.mp h).1

/-- New clients have been made, and no node was added. -/
structure Extends (s s' : Analysis) : Prop where
  sub : s.addRedisCli ⊆ s'.addRedisCli
  created : s.created ≤ s'.created
  new : ∀ c ∈ s'.addRedisCli, c ∈ s.addRedisCli ∨
    c.state_ = .init ∧ s.created ≤ c.id ∧ c.id < s'.created
  info : s'.tmpClusterInfo = s.tmpClusterInfo

theorem Extends.refl (s : Analysis) : Extends s s := ⟨fun _ h => h, Nat.le_refl _, fun _ h => .inl h, rfl⟩

theorem Extends.trans {s s' s'' : Analysis} (h : Extends s s') (h' : Extends s' s'') :
    Extends s s'' where
  sub := fun _ hc => h'.sub (h.sub hc)
  created := h.created.trans h'.created
  new c hc := by
    have hle := h.created
    have hle' := h'.created
    rcases h'.new c hc with hc | ⟨hinit, hlo, hhi⟩
    · exact (h.new c hc).imp_right fun ⟨hinit, hlo, hhi⟩ => ⟨hinit, hlo, by omega⟩
    · exact .inr ⟨hinit, by omega, hhi⟩
  info := h'.info.trans h.info

variable (mgr ioThreadNum) in
theorem getOrNew_extends (svr : RedisSvrInfo) (s : Analysis) :
    Extends s (getOrNew mgr ioThreadNum svr s).2 ∧
      (getOrNew mgr ioThreadNum svr s).2.masterConn = s.masterConn ∧
      (getOrNew mgr ioThreadNum svr s).2.slaveConn = s.slaveConn ∧
      (Known mgr (getOrNew mgr ioThreadNum svr s).1 ∨
        (getOrNew mgr ioThreadNum svr s).1 ∈ (getOrNew mgr ioThreadNum svr s).2.addRedisCli) := by
  unfold getOrNew
  cases hk : mgr.knownCli svr with
  | some c => exact ⟨Extends.refl s, rfl, rfl, .inl ⟨svr, hk⟩⟩
  | none =>
    refine ⟨⟨fun _ h => List.mem_append_left _ h, Nat.le_succ _, fun c hc => ?_, rfl⟩, rfl, rfl, ?_⟩
    · rcases List.mem_append.mp hc with hc | hc
      · exact .inl hc
      · rw [List.mem_singleton.mp hc]
        exact .inr ⟨rfl, Nat.le_refl _, Nat.lt_succ_self _⟩
    · exact .inr (List.mem_append_right _ (by simp))

/-- A count that goes with the clients does not matter for the rest. -/
theorem Extends.congr {s s' s'' : Analysis} (h : Extends s s')
    (ha : s''.addRedisCli = s'.addRedisCli) (hc : s''.created = s'.created)
    (hi : s''.tmpClusterInfo = s'.tmpClusterInfo) : Extends s s'' :=
  ⟨ha ▸ h.sub, hc ▸ h.created, by rw [ha, hc]; exact h.new, hi.trans h.info⟩

/-- A client that is taken as a master counts if it is connected. -/
theorem getOrNew_master {svr : RedisSvrInfo} {s s' : Analysis} {cli : RedisCli}
    (h : getOrNew mgr ioThreadNum svr s = (cli, s')) {s₁ : Analysis}
    (h₁ : (if cli.state_ = .conn then { s' with masterConn := s'.masterConn + 1 } else s') = s₁) :
    Extends s s₁ ∧ s₁.masterConn = s.masterConn + connected [cli] ∧ s₁.slaveConn = s.slaveConn ∧
      (Known mgr cli ∨ cli ∈ s₁.addRedisCli) := by
  obtain ⟨hext, hmc, hsc, hfrom⟩ := getOrNew_extends mgr ioThreadNum svr s
  rw [h] at hext hmc hsc hfrom
  rw [connected_singleton, ← h₁, ← hmc, ← hsc]
  split
  · exact ⟨hext.congr rfl rfl rfl, rfl, rfl, hfrom⟩
  · exact ⟨hext, rfl, rfl, hfrom⟩

/-- And one that is taken as a replica. -/
theorem getOrNew_slave {svr : RedisSvrInfo} {s s' : Analysis} {cli : RedisCli}
    (h : getOrNew mgr ioThreadNum svr s = (cli, s')) {s₁ : Analysis}
    (h₁ : (if cli.state_ = .conn then { s' with slaveConn := s'.slaveConn + 1 } else s') = s₁) :
    Extends s s₁ ∧ s₁.masterConn = s.masterConn ∧ s₁.slaveConn = s.slaveConn + connected [cli] ∧
      (Known mgr cli ∨ cli ∈ s₁.addRedisCli) := by
  obtain ⟨hext, hmc, hsc, hfrom⟩ := getOrNew_extends mgr ioThreadNum svr s
  rw [h] at hext hmc hsc hfrom
  rw [connected_singleton, ← h₁, ← hmc, ← hsc]
  split
  · exact ⟨hext.congr rfl rfl rfl, rfl, rfl, hfrom⟩
  · exact ⟨hext, rfl, rfl, hfrom⟩

/-- The loop over all lines counts the replicas that it takes, whatever the lines are. -/
theorem slaveLoop_counts {nodeId : Bytes} {lines : List Bytes} {slave_ slave' : List RedisCli}
    {s s' : Analysis} {ret : Int}
    (h : slaveLoop mgr ioThreadNum nodeId lines slave_ s = (ret, slave', s')) :
    Extends s s' ∧ s'.masterConn = s.masterConn ∧
      s'.slaveConn + connected slave_ = s.slaveConn + connected slave' ∧
      ∀ c ∈ slave', c ∈ slave_ ∨ Known mgr c ∨ c ∈ s'.addRedisCli := by
  induction lines generalizing slave_ s with
  | nil =>
    cases h
    exact ⟨Extends.refl _, rfl, rfl, fun c hc => .inl hc⟩
  | cons line lines ih =>
    simp only [slaveLoop] at h
    split at h
    · cases h
      exact ⟨Extends.refl _, rfl, rfl, fun c hc => .inl hc⟩
    split at h
    · split at h
      · cases h
        exact ⟨Extends.refl _, rfl, rfl, fun c hc => .inl hc⟩
      · rename_i svr _
        cases hr : getOrNew mgr ioThreadNum svr s with
        | mk cli s₀ =>
        rw [hr] at h
        simp only at h
        generalize hs₁ : (if cli.state_ = .conn then { s₀ with slaveConn := s₀.slaveConn + 1 } else s₀)
          = s₁ at h
        obtain ⟨hext, hmc, hsc, hfrom⟩ := getOrNew_slave hr hs₁
        obtain ⟨hext', hmc', hsc', hfrom'⟩ := ih h
        rw [connected_append] at hsc'
        refine ⟨hext.trans hext', by omega, by omega, fun c hc => ?_⟩
        rcases hfrom' c hc with hc | hc
        · rcases List.mem_append.mp hc with hc | hc
          · exact .inl hc
          · rw [List.mem_singleton.mp hc]
            exact .inr (hfrom.imp_right fun hin => hext'.sub hin)
        · exact .inr hc
    · exact ih h

variable (mgr) in
/-- What has been built goes with what has been counted. -/
structure Analysed (lo : Nat) (s : Analysis) : Prop where
  created : lo ≤ s.created
  new : ∀ c ∈ s.addRedisCli, c.state_ = .init ∧ lo ≤ c.id ∧ c.id < s.created
  origin : ∀ c ∈ s.info.masters ++ s.info.slaves, Known mgr c ∨ c ∈ s.addRedisCli
  masters : s.masterConn = connected s.info.masters
  slaves : s.slaveConn = connected s.info.slaves

theorem Extends.new_mono {lo : Nat} {s s' : Analysis} (h : Extends s s') (hlo : lo ≤ s.created)
    (hnew : ∀ c ∈ s.addRedisCli, c.state_ = .init ∧ lo ≤ c.id ∧ c.id < s.created) :
    ∀ c ∈ s'.addRedisCli, c.state_ = .init ∧ lo ≤ c.id ∧ c.id < s'.created := by
  intro c hc
  have hle := h.created
  rcases h.new c hc with hc | ⟨hinit, h1, h2⟩
  · obtain ⟨hinit, h1, h2⟩ := hnew c hc
    exact ⟨hinit, h1, by omega⟩
  · exact ⟨hinit, by omega, h2⟩

theorem masterLine_analysed {vLines nodeInfo : List Bytes} {lo : Nat} {s s' : Analysis} {ret : Int}
    (ha : Analysed mgr lo s) (h : masterLine mgr ioThreadNum vLines nodeInfo s = some (ret, s')) :
    Analysed mgr lo s' := by
  unfold masterLine at h
  split at h
  · cases h
    exact ha
  split at h
  · cases h
    exact ha
  rename_i svr _
  cases hr : getOrNew mgr ioThreadNum svr s with
  | mk cli s₀ =>
  rw [hr] at h
  simp only at h
  generalize hs₁ : (if cli.state_ = .conn then { s₀ with masterConn := s₀.masterConn + 1 } else s₀) = s₁
    at h
  obtain ⟨hext, hmc, hsc, hfrom⟩ := getOrNew_master hr hs₁
  have h0 : s₁.tmpClusterInfo.getD ⟨fun _ => none, []⟩ = s.info := by
    rw [Analysis.info, hext.info]
  rw [h0] at h
  split at h
  · cases h
  rename_i slotMap _
  generalize hloop : slaveLoop mgr ioThreadNum (nodeInfo.getD 0 []) vLines [] s₁ = q at h
  obtain ⟨ret₂, slave_, s₂⟩ := q
  obtain ⟨hext₂, hmc₂, hsc₂, hfrom₂⟩ := slaveLoop_counts hloop
  cases h
  have hall := hext.trans hext₂
  have hm := ha.masters
  have hs := ha.slaves
  have hnil : connected [] = 0 := rfl
  refine ⟨ha.created.trans hall.created, hall.new_mono ha.created ha.new, fun c hc => ?_, ?_, ?_⟩
  · change c ∈ RedisClusterInfo.masters ⟨slotMap, s.info.clusterVectInfo_ ++ [_]⟩ ++
      RedisClusterInfo.slaves ⟨slotMap, s.info.clusterVectInfo_ ++ [_]⟩ at hc
    rw [masters_snoc, slaves_snoc] at hc
    have hold : c ∈ s.info.masters ++ s.info.slaves → Known mgr c ∨ c ∈ s₂.addRedisCli := fun hc =>
      (ha.origin c hc).imp_right fun hin => hall.sub hin
    simp only [List.mem_append] at hc hold
    rcases hc with (hc | hc) | (hc | hc)
    · exact hold (.inl hc)
    · rw [List.mem_singleton.mp hc]
      exact hfrom.imp_right fun hin => hext₂.sub hin
    · exact hold (.inr hc)
    · exact (hfrom₂ c hc).resolve_left (by simp)
  · change s₂.masterConn = connected (RedisClusterInfo.masters ⟨slotMap, s.info.clusterVectInfo_ ++ [_]⟩)
    rw [masters_snoc, connected_append]
    simp only [RedisMasterSlave.masters, Option.toList_some]
    omega
  · change s₂.slaveConn = connected (RedisClusterInfo.slaves ⟨slotMap, s.info.clusterVectInfo_ ++ [_]⟩)
    rw [slaves_snoc, connected_append]
    simp only
    omega

theorem nodesLoop_analysed {vLines lines : List Bytes} {lo : Nat} {s s' : Analysis} {ret : Int}
    (ha : Analysed mgr lo s) (h : nodesLoop mgr ioThreadNum vLines lines s = some (ret, s')) :
    Analysed mgr lo s' := by
  induction lines generalizing s with
  | nil =>
    cases h
    exact ha
  | cons line lines ih =>
    simp only [nodesLoop] at h
    split at h
    · cases h
      exact ha
    split at h
    · split at h
      · cases h
      · rename_i ret₁ s₁ hline
        split at h
        · exact ih (masterLine_analysed ha hline) h
        · cases h
          exact masterLine_analysed ha hline
    · exact ih ha h

/-- A new topology is made of known and of new clients, and its counts are those of the connected
ones. -/
theorem analysisClusterNodes_analysed {clusterNodes : Bytes} {ioIndex : UInt32} {created : Nat}
    {mgr' : RedisClientMgr} {out : Analysis}
    (h : analysisClusterNodes mgr ioThreadNum clusterNodes ioIndex created = some (0, mgr', out)) :
    Analysed mgr created out ∧ mgr' = { mgr with
      cluterCli_ := out.tmpClusterInfo, masterConn_ := out.masterConn, slaveConn_ := out.slaveConn } := by
  unfold analysisClusterNodes at h
  simp only at h
  split at h
  · cases h
  split at h
  · cases h
  · rename_i ret s hloop
    split at h
    · cases h
      refine ⟨nodesLoop_analysed ?_ hloop, rfl⟩
      exact ⟨Nat.le_refl _, by simp, by simp [Analysis.info, RedisClusterInfo.masters,
        RedisClusterInfo.slaves], rfl, rfl⟩
    · rename_i hret
      cases h
      exact absurd rfl hret

end

end RedisAsyn
end CmakeFrame
