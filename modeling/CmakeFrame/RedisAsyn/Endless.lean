import CmakeFrame.RedisAsyn.ClusterNodes

/-!
# When `analysisClusterNodes` ends, for any text

The counter of the loop over a slot range has 16 bits, and so has its inclusive bound: a range up to
65535 never ends. Every other loop runs over the lines or the fields of the text.

* `insertSlots_eq_none_iff`, `slaveLoop_ret`, `masterLine_eq_none_iff`, `masterLine_ret`: what one
  line comes to.
* `Hangs`: the first line that does not let the analysis go on is a master's with such a range.
* `analysisClusterNodes_total_iff`: everywhere else the analysis ends, and what it refuses leaves
  the manager as it was.
-/

namespace CmakeFrame
namespace RedisAsyn

open Lib

/-! ## The slots of a line -/

theorem insertSlots_eq_none_iff (cli : RedisCli) (rs : List SlotsInfo) (m : SlotCliInfoMap) :
    insertSlots cli rs m = none ↔ ∃ r ∈ rs, r.slotEnd_ = 65535 := by
  induction rs generalizing m with
  | nil => simp [insertSlots]
  | cons r rs ih =>
    by_cases hr : r.slotEnd_ = 65535
    · rw [insertSlots, slotLoop_eq_fillLoop, hr, fillLoop_last]
      simp [hr]
    · have hlt : r.slotEnd_.toNat < 65535 := by
        have hle := r.slotEnd_.toNat_lt
        have hne : r.slotEnd_.toNat ≠ 65535 := fun h => hr (UInt16.toNat_inj.mp h)
        omega
      rw [insertSlots, slotLoop_eq cli hlt _ _ (by omega)]
      simp [ih, hr]

/-! ## Lines -/

/-- Every line has its first eight fields, and where it names `nodeId` as its master, an address. -/
def ReplicasRead (vLines : List Bytes) (nodeId : Bytes) : Prop :=
  ∀ line ∈ vLines, 8 ≤ (split line [32]).length ∧
    (nodeId = (split line [32]).getD 3 [] → analysisSvrInfo ((split line [32]).getD 1 []) ≠ none)

/-- A master line has nine fields and an address. -/
def MasterRead (nodeInfo : List Bytes) : Prop :=
  9 ≤ nodeInfo.length ∧ analysisSvrInfo (nodeInfo.getD 1 []) ≠ none

/-- One of its slot tokens ends at 65535. -/
def EndlessSlots (nodeInfo : List Bytes) : Prop :=
  ∃ token ∈ nodeInfo.drop 8, (slotsInfo token).slotEnd_ = 65535

/-- The analysis goes on to the next line. -/
def LineRead (vLines : List Bytes) (line : Bytes) : Prop :=
  8 ≤ (split line [32]).length ∧
    (isMasterFlags ((split line [32]).getD 2 []) = true →
      MasterRead (split line [32]) ∧ ¬ EndlessSlots (split line [32]) ∧
        ReplicasRead vLines ((split line [32]).getD 0 []))

/-- The analysis gets to a master line with an endless range. -/
def LineHangs (line : Bytes) : Prop :=
  isMasterFlags ((split line [32]).getD 2 []) = true ∧
    MasterRead (split line [32]) ∧ EndlessSlots (split line [32])

def Hangs (clusterNodes : Bytes) : Prop :=
  ∃ pre line post, split clusterNodes [10] = pre ++ line :: post ∧
    (∀ l ∈ pre, LineRead (split clusterNodes [10]) l) ∧ LineHangs line

section

variable {mgr : RedisClientMgr} {ioThreadNum : Nat}

theorem slaveLoop_ret (nodeId : Bytes) (vLines : List Bytes) (slave_ : List RedisCli) (s : Analysis) :
    (slaveLoop mgr ioThreadNum nodeId vLines slave_ s).1 = 0 ↔ ReplicasRead vLines nodeId := by
  have herr : ANALYSIS_STRING_FORMATE_ERROR ≠ 0 := by decide
  induction vLines generalizing slave_ s with
  | nil => simp [slaveLoop, ReplicasRead]
  | cons line vLines ih =>
    rw [ReplicasRead, List.forall_mem_cons]
    unfold slaveLoop
    simp only
    split
    · rename_i hlen
      exact iff_of_false herr fun h => Nat.not_le.mpr hlen h.1.1
    rename_i hlen
    have hlen := Nat.not_lt.mp hlen
    split
    · rename_i hid
      cases ha : analysisSvrInfo ((split line [32]).getD 1 []) with
      | none => exact iff_of_false herr fun h => h.1.2 hid rfl
      | some svr =>
        exact (ih _ _).trans ⟨fun h => ⟨⟨hlen, fun _ => Option.some_ne_none svr⟩, h⟩, fun h => h.2⟩
    · rename_i hid
      exact (ih _ _).trans ⟨fun h => ⟨⟨hlen, fun h => absurd h hid⟩, h⟩, fun h => h.2⟩

variable (mgr ioThreadNum) in
/-- A master line that is not refused: its slots are inserted, then its replicas are looked for. -/
theorem masterLine_cases (vLines nodeInfo : List Bytes) (s : Analysis) :
    (¬ MasterRead nodeInfo ∧
      masterLine mgr ioThreadNum vLines nodeInfo s = some (ANALYSIS_STRING_FORMATE_ERROR, s)) ∨
    (MasterRead nodeInfo ∧ EndlessSlots nodeInfo ∧
      masterLine mgr ioThreadNum vLines nodeInfo s = none) ∨
    (MasterRead nodeInfo ∧ ¬ EndlessSlots nodeInfo ∧
      ∃ ret s', masterLine mgr ioThreadNum vLines nodeInfo s = some (ret, s') ∧
        (ret = 0 ↔ ReplicasRead vLines (nodeInfo.getD 0 []))) := by
  unfold masterLine
  split
  · rename_i hlen
    exact .inl ⟨fun h => Nat.not_le.mpr hlen h.1, rfl⟩
  rename_i hlen
  have hlen := Nat.not_lt.mp hlen
  cases ha : analysisSvrInfo (nodeInfo.getD 1 []) with
  | none => exact .inl ⟨fun h => h.2 ha, rfl⟩
  | some svr =>
    have hread : MasterRead nodeInfo := ⟨hlen, by rw [ha]; exact Option.some_ne_none svr⟩
    right
    simp only
    split
    · rename_i hins
      obtain ⟨r, hr, hend⟩ := (insertSlots_eq_none_iff _ _ _).mp hins
      obtain ⟨token, ht, rfl⟩ := List.mem_map.mp hr
      exact .inl ⟨hread, ⟨token, ht, hend⟩, rfl⟩
    · rename_i hins
      have hfin := mt (insertSlots_eq_none_iff _ _ _).mpr (ne_of_eq_of_ne hins (Option.some_ne_none _))
      exact .inr ⟨hread, fun ⟨token, ht, hend⟩ => hfin ⟨_, List.mem_map_of_mem ht, hend⟩, _, _, rfl,
        slaveLoop_ret _ _ _ _⟩

/-- The first element that `P` does not let by is one with `Q`. -/
theorem exists_first_cons {α : Type} (P Q : α → Prop) (a : α) (as : List α) :
    (∃ pre x post, a :: as = pre ++ x :: post ∧ (∀ y ∈ pre, P y) ∧ Q x) ↔
      Q a ∨ P a ∧ ∃ pre x post, as = pre ++ x :: post ∧ (∀ y ∈ pre, P y) ∧ Q x := by
  constructor
  · rintro ⟨pre, x, post, heq, hpre, hx⟩
    cases pre with
    | nil =>
      cases heq
      exact .inl hx
    | cons b pre =>
      cases heq
      exact .inr ⟨hpre a (by simp), pre, x, post, rfl, fun y hy => hpre y (by simp [hy]), hx⟩
  · rintro (ha | ⟨ha, pre, x, post, rfl, hpre, hx⟩)
    · exact ⟨[], a, as, rfl, by simp, ha⟩
    · exact ⟨a :: pre, x, post, rfl, List.forall_mem_cons.mpr ⟨ha, hpre⟩, hx⟩

variable (mgr ioThreadNum) in
/-- The loop over the lines does not end exactly if it gets to an endless range. -/
theorem nodesLoop_eq_none_iff (vLines lines : List Bytes) (s : Analysis) :
    nodesLoop mgr ioThreadNum vLines lines s = none ↔
      ∃ pre line post, lines = pre ++ line :: post ∧ (∀ l ∈ pre, LineRead vLines l) ∧
        LineHangs line := by
  induction lines generalizing s with
  | nil => simp [nodesLoop]
  | cons line lines ih =>
    rw [exists_first_cons]
    unfold nodesLoop
    simp only
    split
    · rename_i hlen
      have hhangs : ¬ LineHangs line := fun h => by
        have h9 := h.2.1.1
        omega
      exact iff_of_false (by simp) fun h => h.elim hhangs fun h => Nat.not_le.mpr hlen h.1.1
    rename_i hlen
    have hlen := Nat.not_lt.mp hlen
    split
    · rename_i hmaster
      rcases masterLine_cases mgr ioThreadNum vLines (split line [32]) s
        with ⟨hread, heq⟩ | ⟨hread, hend, heq⟩ | ⟨hread, hend, ret, s', heq, hret⟩
      · rw [heq]
        exact iff_of_false (by simp [ANALYSIS_STRING_FORMATE_ERROR]) fun h =>
          h.elim (fun h => hread h.2.1) fun h => hread (h.1.2 hmaster).1
      · rw [heq]
        exact iff_of_true rfl (.inl ⟨hmaster, hread, hend⟩)
      · rw [heq]
        simp only
        have hhangs : ¬ LineHangs line := fun h => hend h.2.2
        split
        · rename_i h0
          have hline : LineRead vLines line := ⟨hlen, fun _ => ⟨hread, hend, hret.mp h0⟩⟩
          exact (ih s').trans ⟨fun h => .inr ⟨hline, h⟩, fun h => (h.resolve_left hhangs).2⟩
        · rename_i h0
          exact iff_of_false (by simp) fun h =>
            h.elim hhangs fun h => h0 (hret.mpr (h.1.2 hmaster).2.2)
    · rename_i hmaster
      have hhangs : ¬ LineHangs line := fun h => hmaster h.1
      have hline : LineRead vLines line := ⟨hlen, fun h => absurd h hmaster⟩
      exact (ih s).trans ⟨fun h => .inr ⟨hline, h⟩, fun h => (h.resolve_left hhangs).2⟩

variable (mgr ioThreadNum) in
theorem analysisClusterNodes_eq_none_iff (clusterNodes : Bytes) (ioIndex : UInt32) (created : Nat) :
    analysisClusterNodes mgr ioThreadNum clusterNodes ioIndex created = none ↔ Hangs clusterNodes := by
  unfold analysisClusterNodes
  simp only
  split
  · rename_i hempty
    refine iff_of_false (by simp) ?_
    rintro ⟨pre, line, post, heq, -⟩
    simp [hempty, split] at heq
  · rw [Hangs, ← nodesLoop_eq_none_iff mgr ioThreadNum]
    split
    · rename_i hnone
      exact iff_of_true rfl hnone
    · rename_i hsome
      rw [hsome]
      split <;> simp

/-- What is refused leaves the manager as it was. -/
theorem analysisClusterNodes_refused {clusterNodes : Bytes} {ioIndex : UInt32} {created : Nat}
    {ret : Int} {mgr' : RedisClientMgr} {out : Analysis}
    (h : analysisClusterNodes mgr ioThreadNum clusterNodes ioIndex created = some (ret, mgr', out))
    (hret : ret ≠ 0) : mgr' = mgr := by
  unfold analysisClusterNodes at h
  simp only at h
  split at h
  · cases h
    rfl
  · split at h
    · cases h
    · split at h
      · cases h
        exact absurd rfl hret
      · cases h
        rfl

end

/-- For any text, `analysisClusterNodes` ends and what it refuses leaves the topology and its counts
as they were, exactly if it does not get to a master line with a range up to 65535. -/
theorem analysisClusterNodes_total_iff (mgr : RedisClientMgr) (ioThreadNum : Nat)
    (clusterNodes : Bytes) (ioIndex : UInt32) (created : Nat) :
    (∃ ret mgr' out,
        analysisClusterNodes mgr ioThreadNum clusterNodes ioIndex created = some (ret, mgr', out) ∧
        (ret ≠ 0 → mgr'.cluterCli_ = mgr.cluterCli_ ∧ mgr'.masterConn_ = mgr.masterConn_ ∧
          mgr'.slaveConn_ = mgr.slaveConn_)) ↔
      ¬ Hangs clusterNodes := by
  rw [← analysisClusterNodes_eq_none_iff mgr ioThreadNum clusterNodes ioIndex created]
  constructor
  · rintro ⟨ret, mgr', out, heq, -⟩ hnone
    rw [hnone] at heq
    cases heq
  · intro hne
    obtain ⟨⟨ret, mgr', out⟩, heq⟩ := Option.ne_none_iff_exists'.mp hne
    refine ⟨ret, mgr', out, heq, fun hret => ?_⟩
    rw [analysisClusterNodes_refused heq hret]
    exact ⟨rfl, rfl, rfl⟩

/-- `a 1:1 master - 0 0 0 connected 0-65535` -/
def endlessText : Bytes :=
  [97, 32, 49, 58, 49, 32, 109, 97, 115, 116, 101, 114, 32, 45, 32, 48, 32, 48, 32, 48, 32, 99, 111,
    110, 110, 101, 99, 116, 101, 100, 32, 48, 45, 54, 53, 53, 51, 53]

/-- It is never analysed to the end. -/
theorem endlessText_hangs : ¬ ∀ (mgr : RedisClientMgr) (ioThreadNum : Nat) (clusterNodes : Bytes)
    (ioIndex : UInt32) (created : Nat),
    analysisClusterNodes mgr ioThreadNum clusterNodes ioIndex created ≠ none := by
  intro h
  refine h ⟨0, 0, none, none⟩ 1 endlessText 0 0 ((analysisClusterNodes_eq_none_iff _ _ _ _ _).mpr ?_)
  have hsplit : split endlessText [10] = [endlessText] :=
    split_piece (by decide) (by decide) (by decide)
  refine ⟨[], endlessText, [], hsplit, by simp, by decide, ⟨by decide, by decide⟩, ?_⟩
  exact ⟨[48, 45, 54, 53, 53, 51, 53], by decide, by decide⟩

end RedisAsyn
end CmakeFrame
