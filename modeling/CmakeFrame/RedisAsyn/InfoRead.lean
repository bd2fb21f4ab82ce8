import CmakeFrame.RedisAsyn.InfoLines

/-!
# What is read from replies with lines that end in CR LF

The lines of a reply are split at LF, so that a CR stays at the end of each. Behind a number it does
no harm, and in the line of a slave the values stand between separators; but the host of a master and
the state of a cluster are all that stands behind a colon.

* `InfoReply`: a server's answer to `INFO REPLICATION`, or to `CLUSTER INFO`.
* `ReadRight`: the addresses, or the state, are read as the reply says.
* `readRight_iff`: which replies are read right.
-/

namespace CmakeFrame
namespace RedisAsyn

open Lib

/-- `cluster_state` -/
def clusterStateText : Bytes := [99, 108, 117, 115, 116, 101, 114, 95, 115, 116, 97, 116, 101]

/-- `ok` -/
def okText : Bytes := [111, 107]

/-- `tail` are the lines that follow. -/
inductive InfoReply where
  /-- `INFO REPLICATION`, from a slave of `master`. -/
  | ofSlave (master : SvrAddr) (tail : Bytes)
  /-- `INFO REPLICATION`, from a master with the slaves `entries`. -/
  | ofMaster (entries : List SlaveEntry) (tail : Bytes)
  /-- `CLUSTER INFO`. -/
  | clusterInfo (state : Bytes) (tail : Bytes)
  deriving DecidableEq, Repr

namespace InfoReply

def Wf : InfoReply → Prop
  | .ofSlave master _ => Solid master.host
  | .ofMaster entries _ => ∀ e ∈ entries, Solid e.addr.host ∧ 44 ∉ e.addr.host ∧ 10 ∉ e.rest
  | .clusterInfo state _ => 10 ∉ state

/-- The text, with CR LF behind each line. -/
def text : InfoReply → Bytes
  | .ofSlave master tail => Deployment.slaveText ⟨master, [], true⟩ tail
  | .ofMaster entries tail => Deployment.masterText ⟨⟨[], 0⟩, entries.map (·.addr), true⟩ entries tail
  | .clusterInfo state tail => clusterStateText ++ 58 :: (state ++ [13]) ++ 10 :: tail

/-- From a slave's reply the address of its master, whose known client is used again; from a master's
reply the addresses of its slaves, in order; from `CLUSTER INFO` whether the state is `ok`. -/
def ReadRight (mgr : RedisMgr) (ioThreadNum : Nat) (ioIndex : UInt32) (created : Nat)
    (reply : InfoReply) : Prop :=
  match reply with
  | .ofSlave master _ => ∃ mgr' out ms cli,
    analysisSlaveNodes mgr ioThreadNum reply.text ioIndex created = some (1, mgr', out) ∧
      mgr'.mSlaveCli_ = some ms ∧ ms.master_ = some cli ∧ cli.svrInfo_ = master.svrInfo ∧
      ∀ known, mgr.mSlaveCli_.bind (·.getRedisClient master.svrInfo) = some known → cli = known
  | .ofMaster entries _ => ∃ mgr' out ms,
    analysisSlaveNodes mgr ioThreadNum reply.text ioIndex created = some (0, mgr', out) ∧
      mgr'.mSlaveCli_ = some ms ∧ ms.slave_.map (·.svrInfo_) = entries.map (·.addr.svrInfo)
  | .clusterInfo state _ => ∃ mgr' effects,
    clusterInfoCallBack mgr 0 [reply.text] = some (mgr', effects) ∧
      (mgr'.initState_ ≠ .error ↔ state = okText)

/-- The replies that are read right. -/
def Readable : InfoReply → Prop
  | .ofSlave _ _ => False
  | .ofMaster entries _ => entries.length < 2 ^ 31
  | .clusterInfo state _ => state ≠ okText

end InfoReply

section

variable {mgr : RedisMgr} {ioThreadNum : Nat} {ioIndex : UInt32} {created : Nat}

/-- An analysis that returns 0 or 1 has read its lines. -/
theorem isRead_of_analysis {text : Bytes} {ret : Int} {mgr' : RedisMgr} {out : Analysis}
    (h : analysisSlaveNodes mgr ioThreadNum text ioIndex created = some (ret, mgr', out))
    (hret : 0 ≤ ret) :
    ∃ node r, IsRead (split text [10]) node r ∧ ret = r.ret ∧
      mgr'.mSlaveCli_ = some r.mSlaveCli_ := by
  have herr : ¬ 0 ≤ ANALYSIS_STRING_FORMATE_ERROR := by decide
  by_cases hne : text = []
  · rw [analysisSlaveNodes, if_pos hne] at h
    cases h
    exact absurd hret herr
  cases hnode : mgr.nodeCli_ with
  | none =>
    rw [analysisSlaveNodes_null hne hnode] at h
    cases h
  | some node =>
    rcases analysisSlaveNodes_cases mgr ioThreadNum hne hnode ioIndex created with
      ⟨-, heq⟩ | ⟨-, -, out', heq⟩ | ⟨-, -, r, hread, heq⟩
    · rw [heq] at h
      cases h
    · rw [heq] at h
      cases h
      exact absurd hret herr
    · rw [heq] at h
      cases h
      exact ⟨node, r, hread, rfl, rfl⟩

/-! ## Slaves -/

/-- A slave's reply names its master by a host with the CR at its end. -/
theorem namedMaster_slaveText {master : SvrAddr} (hhost : Solid master.host) (tail : Bytes) :
    namedMaster (split (Deployment.slaveText ⟨master, [], true⟩ tail) [10]) =
      some ⟨master.host ++ [13], Int32.ofNat master.port.toNat⟩ := by
  have hport : master.port.toNat < 2 ^ 31 := master.port.toNat_lt.trans (by decide)
  rw [split_slaveText hhost]
  simp only [namedMaster, Deployment.slaveRows, List.map_cons, List.map_nil, List.cons_append,
    List.nil_append, List.getD_cons_succ, List.getD_cons_zero,
    afterColon_row (by decide : 58 ∉ masterHostText),
    afterColon_row (by decide : 58 ∉ masterPortText), Option.bind_some, Option.map_some,
    atoi_row hport]
  rfl

theorem not_readRight_slave {master : SvrAddr} (hhost : Solid master.host) (tail : Bytes) :
    ¬ InfoReply.ReadRight mgr ioThreadNum ioIndex created (.ofSlave master tail) := by
  rintro ⟨mgr', out, ms, cli, hana, hms, hmaster, hsvr, -⟩
  obtain ⟨node, r, hread, hret, hr⟩ := isRead_of_analysis hana (by decide)
  have hrole : ¬ isMasterRole (split (InfoReply.ofSlave master tail).text [10]) = true := by
    intro hrole
    rw [hread.ret, if_pos hrole] at hret
    exact absurd hret (by decide)
  have hnamed := (hread.slave hrole).2
  cases hms.symm.trans hr
  rw [hmaster, InfoReply.text, namedMaster_slaveText hhost, Option.map_some, Option.some_inj,
    hsvr] at hnamed
  have hlen := congrArg (fun svr => svr.ipAddr_.length) hnamed
  simp [SvrAddr.svrInfo] at hlen

/-! ## Masters -/

/-- The rows that name the slaves give their addresses. -/
theorem entryRows_slaveAddr {D : Deployment} {entries : List SlaveEntry}
    (he : ∀ e ∈ entries, 44 ∉ e.addr.host) :
    (D.entryRows entries).map slaveAddr = entries.map fun e => some e.addr.svrInfo := by
  refine List.ext_getElem (by simp [Deployment.entryRows]) fun i h _ => ?_
  have hi : i < entries.length := by simpa [Deployment.entryRows] using h
  simp only [Deployment.entryRows, List.getElem_map, List.getElem_mapIdx]
  exact slaveAddr_line (he _ (List.getElem_mem hi)) i

/-- The lines of a master's reply: its role, the number of its slaves, and a line for each. -/
theorem split_ofMaster {entries : List SlaveEntry}
    (he : ∀ e ∈ entries, Solid e.addr.host ∧ 44 ∉ e.addr.host ∧ 10 ∉ e.rest) (tail : Bytes) :
    let vLines := split (InfoReply.ofMaster entries tail).text [10]
    isMasterRole vLines = true ∧
      slaveNum vLines = some (atoi (natDec entries.length ++ [13])).toInt.toNat ∧
      ∃ rows, vLines.drop 3 = rows ++ split tail [10] ∧ rows.length = entries.length ∧
        rows.map slaveAddr = entries.map fun e => some e.addr.svrInfo := by
  let D : Deployment := ⟨⟨[], 0⟩, entries.map (·.addr), true⟩
  have hsplit : split (InfoReply.ofMaster entries tail).text [10] =
      D.row replicationText :: D.row roleMasterText ::
        D.row (connectedSlavesText ++ 58 :: natDec entries.length) ::
          (D.entryRows entries ++ split tail [10]) :=
    split_masterText (D := D) (fun e h => ⟨(he e h).1, (he e h).2.2⟩) tail
  have hnum : afterColon (D.row (connectedSlavesText ++ 58 :: natDec entries.length)) =
      some (natDec entries.length ++ [13]) := afterColon_row (by decide) _
  simp only [hsplit]
  refine ⟨(by decide : (findSub roleMasterText (roleMasterText ++ [13])).isSome = true), ?_,
    D.entryRows entries, rfl, by simp [Deployment.entryRows],
    entryRows_slaveAddr fun e h => (he e h).2.1⟩
  rw [slaveNum, List.getD_cons_succ, List.getD_cons_succ, List.getD_cons_zero, hnum, Option.map_some]

/-- A master's reply is read right as long as the number of its slaves is an `int`. -/
theorem readRight_master {entries : List SlaveEntry}
    (he : ∀ e ∈ entries, Solid e.addr.host ∧ 44 ∉ e.addr.host ∧ 10 ∉ e.rest) (tail : Bytes)
    (hnode : mgr.nodeCli_ ≠ none) :
    InfoReply.ReadRight mgr ioThreadNum ioIndex created (.ofMaster entries tail) ↔
      entries.length < 2 ^ 31 := by
  obtain ⟨node, hnode⟩ := Option.ne_none_iff_exists'.mp hnode
  obtain ⟨hrole, hnum, rows, hrows, hlen, haddr⟩ := split_ofMaster he tail
  constructor
  · rintro ⟨mgr', out, ms, hana, hms, hslaves⟩
    obtain ⟨node', r, hread, -, hr⟩ := isRead_of_analysis hana (by decide)
    cases hms.symm.trans hr
    -- no more slaves are read than an `int` can count
    have hmap := congrArg List.length ((hread.master hrole).2 _ hnum)
    have hcount := congrArg List.length hslaves
    simp only [List.length_map, List.length_take] at hmap hcount
    have hint := (atoi (natDec entries.length ++ [13])).toInt_lt
    omega
  · intro hlt
    have hatoi : (atoi (natDec entries.length ++ [13])).toInt.toNat = entries.length := by
      rw [atoi_natDec hlt (by simp [EndsNumber, isDigit]), Int32.toInt_ofNat_of_lt hlt,
        Int.toNat_natCast]
    rw [hatoi] at hnum
    have htake : ((split (InfoReply.ofMaster entries tail).text [10]).drop 3).take entries.length =
        rows := by
      rw [hrows, ← hlen, List.take_left]
    have hsep : SeparatorsThere (split (InfoReply.ofMaster entries tail).text [10]) := by
      rw [SeparatorsThere, if_pos hrole]
      refine ⟨_, hnum, by rw [hrows, List.length_append]; omega, fun line hline => ?_⟩
      rw [htake] at hline
      have hmem := List.mem_map_of_mem (f := slaveAddr) hline
      rw [haddr] at hmem
      obtain ⟨e, -, hsome⟩ := List.mem_map.mp hmem
      exact hsome ▸ Option.some_ne_none _
    have hne : (InfoReply.ofMaster entries tail).text ≠ [] := by
      simp [InfoReply.text, Deployment.masterText, Deployment.masterRows]
    rcases analysisSlaveNodes_cases mgr ioThreadNum hne hnode ioIndex created with
      ⟨hlines, -⟩ | ⟨-, hno, -⟩ | ⟨-, -, r, hread, heq⟩
    · exact absurd hsep.lines hlines
    · exact absurd hsep hno
    · have hret : r.ret = 0 := by rw [hread.ret, if_pos hrole]
      refine ⟨_, _, _, hret ▸ heq, rfl, ?_⟩
      have hmap := (hread.master hrole).2 _ hnum
      rw [htake, haddr] at hmap
      refine List.map_injective_iff.mpr (Option.some_injective RedisSvrInfo) ?_
      simpa [List.map_map, Function.comp_def] using hmap

/-! ## Clusters -/

/-- The state that is read ends in the CR, so it is never `ok`. -/
theorem clusterInfoCallBack_bad {state : Bytes} (hstate : 10 ∉ state) (tail : Bytes)
    (hvalid : mgr.initState_ ≠ .invalid) :
    ∃ mgr' effects, clusterInfoCallBack mgr 0 [(InfoReply.clusterInfo state tail).text] =
      some (mgr', effects) ∧ mgr'.initState_ = .error := by
  have hsplit : split (InfoReply.clusterInfo state tail).text [10] =
      (clusterStateText ++ 58 :: (state ++ [13])) :: split tail [10] :=
    split_append (by decide) (by simp) (by simp [clusterStateText, hstate]) tail
  have hfind :
      findByte 58 (clusterStateText ++ 58 :: (state ++ [13])) = some clusterStateText.length :=
    findByte_append (by decide) _
  have hdrop : (clusterStateText ++ 58 :: (state ++ [13])).drop (clusterStateText.length + 1) =
      state ++ [13] := by
    rw [← List.drop_drop, List.drop_left]
    rfl
  have hok : state ++ [13] ≠ [111, 107] := by
    intro h
    have hlast := congrArg List.getLast? h
    simp at hlast
  unfold clusterInfoCallBack
  simp only [if_neg hvalid, ne_eq, not_true_eq_false, if_false, hsplit, hfind, hdrop, if_neg hok]
  split
  · rename_i herr
    exact ⟨_, _, rfl, herr⟩
  · exact ⟨_, _, rfl, rfl⟩

end

/-- With CR LF behind the lines, a manager that has a first client and is not given up reads these
replies right: a master's, and `CLUSTER INFO` of a state that is not `ok`. -/
theorem readRight_iff {mgr : RedisMgr} (hnode : mgr.nodeCli_ ≠ none)
    (hvalid : mgr.initState_ ≠ .invalid) (ioThreadNum : Nat) (ioIndex : UInt32) (created : Nat)
    {reply : InfoReply} (hw : reply.Wf) :
    reply.ReadRight mgr ioThreadNum ioIndex created ↔ reply.Readable := by
  cases reply with
  | ofSlave master tail => exact iff_of_false (not_readRight_slave hw tail) id
  | ofMaster entries tail => exact readRight_master hw tail hnode
  | clusterInfo state tail =>
    obtain ⟨mgr₁, effects₁, hcb, herr⟩ := clusterInfoCallBack_bad hw tail hvalid
    constructor
    · rintro ⟨mgr', effects, heq, hiff⟩ hok
      cases hcb.symm.trans heq
      exact hiff.mpr hok herr
    · intro hne
      exact ⟨mgr₁, effects₁, hcb, iff_of_false (fun h => h herr) hne⟩

/-- `slave0:ip=a,port=1,` and `slave1:ip=b,port=2,` -/
theorem readRight_iff_two :
    (InfoReply.ofMaster [⟨⟨[97], 1⟩, []⟩, ⟨⟨[98], 2⟩, []⟩] []).ReadRight firstMgr 1 0 0 := by
  have hw : (InfoReply.ofMaster [⟨⟨[97], 1⟩, []⟩, ⟨⟨[98], 2⟩, []⟩] []).Wf := by
    intro e he
    simp only [List.mem_cons, List.not_mem_nil, or_false] at he
    rcases he with rfl | rfl <;> simp [Solid]
  exact (readRight_iff (Option.some_ne_none _) (by decide) 1 0 0 hw).mpr (by simp [InfoReply.Readable])

/-- The master `a` of a slave is read as `a` with a CR behind it. -/
theorem slave_reply_misread : ¬ ∀ (mgr : RedisMgr) (reply : InfoReply), mgr.nodeCli_ ≠ none →
    mgr.initState_ ≠ .invalid → reply.Wf → reply.ReadRight mgr 1 0 0 := by
  intro h
  have hhost : Solid (⟨[97], 1⟩ : SvrAddr).host := by simp [Solid]
  exact not_readRight_slave hhost []
    (h firstMgr (.ofSlave ⟨[97], 1⟩ []) (Option.some_ne_none _) (by decide) hhost)

end RedisAsyn
end CmakeFrame
