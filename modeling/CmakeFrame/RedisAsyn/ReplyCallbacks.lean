import CmakeFrame.RedisAsyn.Endless
import CmakeFrame.RedisAsyn.InfoLines

/-!
# The library's own callbacks, for any result

`clusterInfoCallBack`, `clusterNodesCallBack`, `clusterInitCallBack` and `infoReplicationCb` get the
results of the library's own commands. A result without a reply has no element, a failed command may
have one.

* `OwnCallback`, `OwnCallback.run`: the four callbacks.
* `Handles`: a callback ends and uses what is there only, and a failed command leaves the topology
  alone and is followed by another one.
* `Handleable`, `handles_iff`: the results and managers for which it does.
-/

namespace CmakeFrame
namespace RedisAsyn

open Lib

inductive OwnCallback where
  | clusterInfoCallBack
  | clusterNodesCallBack
  | clusterInitCallBack
  | infoReplicationCb
  deriving DecidableEq, Repr

/-- The callback with `ret` and `resultMsg`, for the manager of its `priv`. -/
def OwnCallback.run (cb : OwnCallback) (ioThreadNum : Nat) (mgr : RedisMgr) (ioIndex : UInt32)
    (created : Nat) (ret : Int) (resultMsg : List Bytes) : Option Replied :=
  match cb with
  | .clusterInfoCallBack =>
    (RedisAsyn.clusterInfoCallBack mgr ret resultMsg).map fun r => ⟨r.1, r.2, ioIndex, created, none⟩
  | .clusterNodesCallBack =>
    RedisAsyn.clusterNodesCallBack ioThreadNum mgr ioIndex created ret resultMsg
  | .clusterInitCallBack =>
    RedisAsyn.clusterInitCallBack ioThreadNum mgr ioIndex created ret resultMsg
  | .infoReplicationCb => RedisAsyn.infoReplicationCb ioThreadNum mgr ioIndex created resultMsg

/-- No new topology was installed, and the counts are as before. -/
structure Unchanged (mgr : RedisMgr) (r : Replied) : Prop where
  added : r.added = none
  mSlaveCli : r.mgr.mSlaveCli_ = mgr.mSlaveCli_
  cluterCli : r.mgr.cluterCli_ = mgr.cluterCli_
  masterConn : r.mgr.masterConn_ = mgr.masterConn_
  slaveConn : r.mgr.slaveConn_ = mgr.slaveConn_

/-- Another round is scheduled. -/
def Refreshes (r : Replied) : Prop :=
  (∃ isDelay isInit, Effect.clusterNodesUpdate isDelay isInit ∈ r.effects) ∨
    ∃ isDelay, Effect.infoReplicNodesUpdate isDelay ∈ r.effects

/-- The callback comes to its end, and all that it uses is there. A failed command (other than
`CLUSTER INFO`) leaves the topology and the counts alone, and has another round scheduled, unless the
manager was given up. -/
def Handles (cb : OwnCallback) (ioThreadNum : Nat) (mgr : RedisMgr) (ioIndex : UInt32) (created : Nat)
    (ret : Int) (resultMsg : List Bytes) : Prop :=
  ∃ r, cb.run ioThreadNum mgr ioIndex created ret resultMsg = some r ∧
    (cb ≠ .clusterInfoCallBack → ret ≠ 0 →
      Unchanged mgr r ∧ (mgr.initState_ ≠ .invalid → Refreshes r))

/-- The first client is connected, or there is a place to look for one that is. -/
def CanReplace (mgr : RedisMgr) : Prop :=
  mgr.mSlaveCli_ ≠ none ∨ ∃ node, mgr.nodeCli_ = some node ∧ node.state_ ≠ .init

/-- What a manager that was not given up needs of a result. -/
def Handleable (mgr : RedisMgr) (ret : Int) (resultMsg : List Bytes) : OwnCallback → Prop
  | .clusterInfoCallBack => ret ≠ 0 ∨ ∃ text ∈ resultMsg.head?, ∃ c ∈ text, c ≠ 10
  | .clusterNodesCallBack => ret ≠ 0 ∨ ∃ text ∈ resultMsg.head?,
      (split text [10]).any hasMasterFail = true ∨ ¬ Hangs text
  | .clusterInitCallBack => ret ≠ 0 ∨ ∃ text ∈ resultMsg.head?, ¬ Hangs text
  | .infoReplicationCb => ∃ text ∈ resultMsg.head?,
      (text = [] → CanReplace mgr) ∧
      (text ≠ [] → mgr.nodeCli_ ≠ none ∧ LinesThere (split text [10]) ∧
        (SeparatorsThere (split text [10]) → ret = 0) ∧
        (¬ SeparatorsThere (split text [10]) → CanReplace mgr))

/-! ## The callbacks -/

section

variable {mgr : RedisMgr} {ioThreadNum : Nat} {ioIndex : UInt32} {created : Nat} {ret : Int}
  {resultMsg : List Bytes}

/-- A manager that was given up ignores every result. -/
theorem handles_invalid (cb : OwnCallback) (h : mgr.initState_ = .invalid) :
    Handles cb ioThreadNum mgr ioIndex created ret resultMsg := by
  refine ⟨⟨mgr, [], ioIndex, created, none⟩, ?_,
    fun _ _ => ⟨⟨rfl, rfl, rfl, rfl, rfl⟩, fun hne => absurd h hne⟩⟩
  cases cb with
  | clusterInfoCallBack => simp [OwnCallback.run, clusterInfoCallBack, h]
  | clusterNodesCallBack => simp [OwnCallback.run, clusterNodesCallBack, h]
  | clusterInitCallBack => simp [OwnCallback.run, clusterInitCallBack, h]
  | infoReplicationCb => simp [OwnCallback.run, infoReplicationCb, h]

/-- For a command that succeeded, and for `CLUSTER INFO`, the callback has only to come to its
end. -/
theorem handles_iff_run {cb : OwnCallback} (h : cb = .clusterInfoCallBack ∨ ret = 0) :
    Handles cb ioThreadNum mgr ioIndex created ret resultMsg ↔
      cb.run ioThreadNum mgr ioIndex created ret resultMsg ≠ none := by
  rw [Option.ne_none_iff_exists']
  constructor
  · rintro ⟨r, heq, -⟩
    exact ⟨r, heq⟩
  · rintro ⟨r, heq⟩
    refine ⟨r, heq, fun hcb hret => ?_⟩
    rcases h with h | h
    · exact absurd h hcb
    · exact absurd h hret

theorem handles_clusterInfo (h : mgr.initState_ ≠ .invalid) :
    Handles .clusterInfoCallBack ioThreadNum mgr ioIndex created ret resultMsg ↔
      Handleable mgr ret resultMsg .clusterInfoCallBack := by
  rw [handles_iff_run (.inl rfl), OwnCallback.run, ne_eq, Option.map_eq_none_iff]
  unfold clusterInfoCallBack Handleable
  simp only [if_neg h]
  by_cases hret : ret = 0
  · rw [if_neg (not_not.mpr hret)]
    cases resultMsg with
    | nil => simp [hret]
    | cons text rest =>
      have hlines : (∃ c ∈ text, c ≠ 10) ↔ split text [10] ≠ [] := by
        rw [ne_eq, split_eq_nil_iff (by decide)]
        simp
      simp only [hret, ne_eq, not_true_eq_false, false_or, List.head?_cons, Option.mem_def,
        Option.some_inj, exists_eq_left', hlines]
      cases split text [10] with
      | nil => simp
      | cons line lines =>
        simp only [reduceCtorEq, not_false_eq_true, iff_true]
        split
        · simp
        · split <;> simp
  · rw [if_pos hret]
    exact iff_of_true (Option.some_ne_none _) (.inl hret)

theorem handles_clusterNodes (h : mgr.initState_ ≠ .invalid) :
    Handles .clusterNodesCallBack ioThreadNum mgr ioIndex created ret resultMsg ↔
      Handleable mgr ret resultMsg .clusterNodesCallBack := by
  by_cases hret : ret = 0
  · rw [handles_iff_run (.inr hret), OwnCallback.run]
    unfold clusterNodesCallBack Handleable
    simp only [if_neg h, hret, ne_eq, not_true_eq_false, if_false, false_or]
    cases resultMsg with
    | nil => simp
    | cons text rest =>
      simp only [List.head?_cons, Option.mem_def, Option.some_inj, exists_eq_left']
      by_cases hfail : (split text [10]).any hasMasterFail = true
      · simp [hfail]
      · simp only [hfail, if_false, false_or, Bool.false_eq_true,
          ← analysisClusterNodes_eq_none_iff mgr.toRedisClientMgr ioThreadNum text ioIndex created]
        cases analysisClusterNodes mgr.toRedisClientMgr ioThreadNum text ioIndex created with
        | none => simp
        | some r => by_cases h0 : r.1 = 0 <;> simp [h0]
  · refine iff_of_true ⟨nodesAgain mgr ioIndex created, ?_, fun _ _ => ⟨?_, fun _ => ?_⟩⟩ (.inl hret)
    · simp [OwnCallback.run, clusterNodesCallBack, h, hret]
    · have hnode : ∃ nodeCli_, mgr.replaceNode = { mgr with nodeCli_ := nodeCli_ } := by
        unfold RedisMgr.replaceNode
        split
        · split
          · exact ⟨_, rfl⟩
          · exact ⟨_, rfl⟩
        · exact ⟨_, rfl⟩
      obtain ⟨nodeCli_, hnode⟩ := hnode
      refine ⟨rfl, ?_, ?_, ?_, ?_⟩ <;> simp only [nodesAgain, hnode]
    · exact .inl ⟨true, false, List.mem_cons_self⟩

theorem handles_clusterInit (h : mgr.initState_ ≠ .invalid) :
    Handles .clusterInitCallBack ioThreadNum mgr ioIndex created ret resultMsg ↔
      Handleable mgr ret resultMsg .clusterInitCallBack := by
  by_cases hret : ret = 0
  · rw [handles_iff_run (.inr hret), OwnCallback.run]
    unfold clusterInitCallBack Handleable
    simp only [if_neg h, hret, ne_eq, not_true_eq_false, if_false, false_or]
    cases resultMsg with
    | nil => simp
    | cons text rest =>
      simp only [List.head?_cons, Option.mem_def, Option.some_inj, exists_eq_left',
        ← analysisClusterNodes_eq_none_iff mgr.toRedisClientMgr ioThreadNum text ioIndex created]
      cases analysisClusterNodes mgr.toRedisClientMgr ioThreadNum text ioIndex created with
      | none => simp
      | some r => by_cases h0 : r.1 = 0 <;> simp [h0]
  · refine iff_of_true ⟨⟨mgr, [.clusterNodesUpdate true true], ioIndex, created, none⟩, ?_,
      fun _ _ => ⟨⟨rfl, rfl, rfl, rfl, rfl⟩, fun _ => ?_⟩⟩ (.inl hret)
    · simp [OwnCallback.run, clusterInitCallBack, h, hret]
    · exact .inl ⟨true, true, List.mem_cons_self⟩

/-! ## `infoReplicationCb` -/

/-- The search for a connected client needs the master and the slaves of the last answer, and is made
for a first client that is not connected. -/
theorem replaceNodeCli_eq_none_iff : mgr.replaceNodeCli = none ↔ ¬ CanReplace mgr := by
  unfold RedisMgr.replaceNodeCli CanReplace
  cases hnode : mgr.nodeCli_ with
  | none => simp [Option.map_eq_none_iff]
  | some node =>
    by_cases hstate : node.state_ = .init
    · simp [hstate, Option.map_eq_none_iff]
    · simp [hstate]

/-- What the search changes. -/
theorem unchanged_of_replaceNodeCli {mgr' : RedisMgr} (h : mgr.replaceNodeCli = some mgr')
    (effects : List Effect) : Unchanged mgr ⟨mgr', effects, ioIndex, created, none⟩ := by
  have hnode : ∃ nodeCli_, mgr' = { mgr with nodeCli_ := nodeCli_ } := by
    unfold RedisMgr.replaceNodeCli at h
    split at h
    · obtain ⟨ms, -, rfl⟩ := Option.map_eq_some_iff.mp h
      exact ⟨_, rfl⟩
    · cases h
      exact ⟨_, rfl⟩
  obtain ⟨nodeCli_, rfl⟩ := hnode
  exact ⟨rfl, rfl, rfl, rfl, rfl⟩

theorem afterReplic_mSlaveCli (mgr : RedisMgr) :
    (afterReplic mgr).1.mSlaveCli_ = mgr.mSlaveCli_ := by
  unfold afterReplic goRuning
  split
  · rfl
  · split <;> rfl

variable (mgr ioThreadNum ioIndex created ret) in
/-- A text that is refused: the callback goes on to the search. -/
theorem handles_refused (h : mgr.initState_ ≠ .invalid) {text : Bytes} {rest : List Bytes}
    {out : Analysis} (heq : analysisSlaveNodes mgr ioThreadNum text ioIndex created =
      some (ANALYSIS_STRING_FORMATE_ERROR, mgr, out)) :
    Handles .infoReplicationCb ioThreadNum mgr ioIndex created ret (text :: rest) ↔
      CanReplace mgr := by
  have hneg : ANALYSIS_STRING_FORMATE_ERROR < 0 := by decide
  unfold Handles OwnCallback.run infoReplicationCb
  simp only [if_neg h, heq, if_pos hneg, if_neg hneg.ne, Option.map_eq_some_iff]
  constructor
  · rintro ⟨r, ⟨mgr', hmgr, -⟩, -⟩
    by_contra hcan
    rw [replaceNodeCli_eq_none_iff.mpr hcan] at hmgr
    exact Option.some_ne_none mgr' hmgr.symm
  · intro hcan
    obtain ⟨mgr', hmgr⟩ := Option.ne_none_iff_exists'.mp fun hnone =>
      replaceNodeCli_eq_none_iff.mp hnone hcan
    refine ⟨_, ⟨mgr', hmgr, rfl⟩, fun _ _ => ⟨unchanged_of_replaceNodeCli hmgr _, fun _ => ?_⟩⟩
    exact .inr ⟨_, List.mem_append_right _ (List.mem_singleton_self _)⟩

variable (ioThreadNum ioIndex created ret) in
/-- A text that is read: the callback comes to its end, and takes the text for an answer whatever
`ret` says. -/
theorem handles_read (h : mgr.initState_ ≠ .invalid) {text : Bytes} {rest : List Bytes}
    {node : RedisCli} {r : SlaveResult} (hread : IsRead (split text [10]) node r)
    (heq : analysisSlaveNodes mgr ioThreadNum text ioIndex created = some (r.ret, { mgr with
      mSlaveCli_ := some r.mSlaveCli_, nodeCli_ := some r.nodeCli_
      masterConn_ := r.out.masterConn, slaveConn_ := r.out.slaveConn }, r.out)) :
    Handles .infoReplicationCb ioThreadNum mgr ioIndex created ret (text :: rest) ↔ ret = 0 := by
  have hret : ¬ r.ret < 0 := by
    rw [hread.ret]
    split <;> decide
  have hrun : ∃ replied, OwnCallback.run .infoReplicationCb ioThreadNum mgr ioIndex created ret
      (text :: rest) = some replied ∧ replied.added ≠ none := by
    unfold OwnCallback.run infoReplicationCb
    simp only [if_neg h, heq, if_neg hret]
    split
    · exact ⟨_, rfl, Option.some_ne_none _⟩
    · generalize hafter : afterReplic _ = after
      have hms : after.1.mSlaveCli_ = some r.mSlaveCli_ := by
        rw [← hafter, afterReplic_mSlaveCli]
      obtain ⟨mgr', hmgr⟩ := Option.ne_none_iff_exists'.mp fun hnone =>
        replaceNodeCli_eq_none_iff.mp hnone (.inl (hms ▸ Option.some_ne_none _))
      rw [hmgr]
      exact ⟨_, rfl, Option.some_ne_none _⟩
  obtain ⟨replied, hrun, hadded⟩ := hrun
  constructor
  · rintro ⟨replied', hrun', himp⟩
    by_contra hne
    rw [hrun] at hrun'
    cases hrun'
    exact hadded (himp (by decide) hne).1.added
  · intro hzero
    rw [handles_iff_run (.inr hzero), hrun]
    exact Option.some_ne_none replied

theorem handles_infoReplication (h : mgr.initState_ ≠ .invalid) :
    Handles .infoReplicationCb ioThreadNum mgr ioIndex created ret resultMsg ↔
      Handleable mgr ret resultMsg .infoReplicationCb := by
  cases resultMsg with
  | nil => simp [Handles, Handleable, OwnCallback.run, infoReplicationCb, h]
  | cons text rest =>
    simp only [Handleable, List.head?_cons, Option.mem_def, Option.some_inj, exists_eq_left']
    by_cases hne : text = []
    · have heq : analysisSlaveNodes mgr ioThreadNum text ioIndex created =
          some (ANALYSIS_STRING_FORMATE_ERROR, mgr, ⟨ioIndex, created, [], 0, 0, none⟩) := by
        rw [analysisSlaveNodes, if_pos hne]
      rw [handles_refused mgr ioThreadNum ioIndex created ret h heq]
      simp [hne]
    have hnone : analysisSlaveNodes mgr ioThreadNum text ioIndex created = none →
        ¬ Handles .infoReplicationCb ioThreadNum mgr ioIndex created ret (text :: rest) := by
      rintro heq ⟨r, hrun, -⟩
      simp [OwnCallback.run, infoReplicationCb, h, heq] at hrun
    cases hnode : mgr.nodeCli_ with
    | none =>
      exact iff_of_false (hnone (analysisSlaveNodes_null hne hnode ioIndex created)) (by simp [hne])
    | some node =>
      rcases analysisSlaveNodes_cases mgr ioThreadNum hne hnode ioIndex created with
        ⟨hlines, heq⟩ | ⟨hlines, hsep, out, heq⟩ | ⟨hlines, hsep, r, hread, heq⟩
      · exact iff_of_false (hnone heq) (by simp [hne, hlines])
      · rw [handles_refused mgr ioThreadNum ioIndex created ret h heq]
        simp [hne, hlines, hsep]
      · rw [handles_read ioThreadNum ioIndex created ret h hread heq]
        simp [hne, hlines, hsep]

/-- For any result and any manager: the callback uses only what is there, and takes a failed command
for one, exactly if the manager was given up or can handle the result. -/
theorem handles_iff (cb : OwnCallback) (ioThreadNum : Nat) (mgr : RedisMgr) (ioIndex : UInt32)
    (created : Nat) (ret : Int) (resultMsg : List Bytes) :
    Handles cb ioThreadNum mgr ioIndex created ret resultMsg ↔
      mgr.initState_ = .invalid ∨ Handleable mgr ret resultMsg cb := by
  by_cases h : mgr.initState_ = .invalid
  · exact iff_of_true (handles_invalid cb h) (.inl h)
  · rw [or_iff_right h]
    cases cb with
    | clusterInfoCallBack => exact handles_clusterInfo h
    | clusterNodesCallBack => exact handles_clusterNodes h
    | clusterInitCallBack => exact handles_clusterInit h
    | infoReplicationCb => exact handles_infoReplication h

end

/-- The element of a nil reply is used, and there is none. -/
theorem nil_past_end :
    ¬ ∀ (cb : OwnCallback) (mgr : RedisMgr) (reply : RedisReply),
      Handles cb 1 mgr 0 0 reply.result.1 reply.result.2 := by
  intro h
  obtain ⟨r, hrun, -⟩ := h .infoReplicationCb firstMgr ⟨⟨.nil, 0, []⟩, []⟩
  exact Option.some_ne_none r hrun.symm

end RedisAsyn
end CmakeFrame
