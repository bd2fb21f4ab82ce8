import CmakeFrame.RedisAsyn.MasterSlave

/-!
# Which lines `analysisSlaveNodes` uses, for any text

The analysis uses fixed lines and, for a master, as many more as the text announces, and does not
ask how many there are.

* `LinesThere`: every line that the analysis gets to is there. `SeparatorsThere`: so is every
  separator that it looks for.
* `slaveLines_cases`, `analysisSlaveNodes_cases`: a line that is not there, a text that is refused,
  a text that is accepted.
* `InfoText`: what a server answers to `INFO REPLICATION`.
* `refusesMalformed_iff`: when the analysis uses the lines of its text only, and refuses what is no
  answer of a server.
-/

namespace CmakeFrame
namespace RedisAsyn

open Lib

/-! ## Lines and separators -/

/-- The second line says `role:master`. -/
def isMasterRole (vLines : List Bytes) : Bool := (findSub roleMasterText (vLines.getD 1 [])).isSome

/-- The number of slaves that the third line announces: none for a negative one. -/
def slaveNum (vLines : List Bytes) : Option Nat :=
  (afterColon (vLines.getD 2 [])).map fun slaveNumStr => (atoi slaveNumStr).toInt.toNat

/-- Every line that the analysis gets to is there: the first three; for a master, a line for each
announced slave, or one that cannot be read before they run out; for a slave, the fourth if the third
has a colon. -/
def LinesThere (vLines : List Bytes) : Prop :=
  2 < vLines.length ∧
    if isMasterRole vLines then
      ∀ n, slaveNum vLines = some n →
        n ≤ (vLines.drop 3).length ∨ ∃ line ∈ vLines.drop 3, slaveAddr line = none
    else afterColon (vLines.getD 2 []) ≠ none → 3 < vLines.length

/-- Every separator that the analysis looks for is there. -/
def SeparatorsThere (vLines : List Bytes) : Prop :=
  if isMasterRole vLines then
    ∃ n, slaveNum vLines = some n ∧ n ≤ (vLines.drop 3).length ∧
      ∀ line ∈ (vLines.drop 3).take n, slaveAddr line ≠ none
  else afterColon (vLines.getD 2 []) ≠ none ∧ afterColon (vLines.getD 3 []) ≠ none

/-- A colon is found in a line that is there. -/
theorem lt_of_afterColon {vLines : List Bytes} {i : Nat} (h : afterColon (vLines.getD i []) ≠ none) :
    i < vLines.length := by
  by_contra hi
  have hnone : vLines[i]? = none := List.getElem?_eq_none_iff.mpr (Nat.not_lt.mp hi)
  rw [List.getD_eq_getElem?_getD, hnone] at h
  exact h rfl

theorem SeparatorsThere.lines {vLines : List Bytes} (h : SeparatorsThere vLines) :
    LinesThere vLines := by
  unfold SeparatorsThere at h
  unfold LinesThere
  split at h
  · rename_i hrole
    obtain ⟨n, hn, hlen, -⟩ := h
    obtain ⟨str, hstr, -⟩ := Option.map_eq_some_iff.mp hn
    refine ⟨lt_of_afterColon (hstr ▸ Option.some_ne_none str), ?_⟩
    rw [if_pos hrole]
    intro n' hn'
    rw [hn] at hn'
    cases hn'
    exact .inl hlen
  · rename_i hrole
    rw [if_neg hrole]
    exact ⟨lt_of_afterColon h.1, fun _ => lt_of_afterColon h.2⟩

section

variable {mgr : RedisMgr} {ioThreadNum : Nat}

theorem getOrNewSlave_svrInfo (svr : RedisSvrInfo) (s : Analysis) :
    (getOrNewSlave mgr ioThreadNum svr s).1.svrInfo_ = svr := by
  unfold getOrNewSlave
  split
  · rename_i cli hcli
    obtain ⟨ms, -, hms⟩ := Option.bind_eq_some_iff.mp hcli
    exact RedisMasterSlave.svrInfo_of_getRedisClient hms
  · rfl

variable (mgr ioThreadNum) in
/-- The loop over the slaves runs out of lines, gets to one that it cannot read, or reads them all. -/
theorem slaveLines_cases (n : Nat) (lines : List Bytes) (slave_ : List RedisCli) (s : Analysis) :
    (lines.length < n ∧ (∀ line ∈ lines, slaveAddr line ≠ none) ∧
      slaveLines mgr ioThreadNum n lines slave_ s = none) ∨
    ((∃ line ∈ lines.take n, slaveAddr line = none) ∧ ∃ slave' s',
      slaveLines mgr ioThreadNum n lines slave_ s =
        some (ANALYSIS_STRING_FORMATE_ERROR, slave', s')) ∨
    (n ≤ lines.length ∧ (∀ line ∈ lines.take n, slaveAddr line ≠ none) ∧ ∃ slave' s',
      slaveLines mgr ioThreadNum n lines slave_ s = some (0, slave', s') ∧
        slave'.map (fun c => some c.svrInfo_) =
          slave_.map (fun c => some c.svrInfo_) ++ (lines.take n).map slaveAddr) := by
  induction n generalizing lines slave_ s with
  | zero => exact .inr (.inr ⟨Nat.zero_le _, by simp, slave_, s, rfl, by simp⟩)
  | succ n ih =>
    cases lines with
    | nil => exact .inl ⟨Nat.succ_pos n, by simp, rfl⟩
    | cons line lines =>
      rw [slaveLines, List.take_succ_cons, List.length_cons]
      cases ha : slaveAddr line with
      | none => exact .inr (.inl ⟨⟨line, List.mem_cons_self, ha⟩, slave_, s, rfl⟩)
      | some svr =>
        have hne : slaveAddr line ≠ none := ha ▸ Option.some_ne_none svr
        simp only
        rcases ih lines (slave_ ++ [(getOrNewSlave mgr ioThreadNum svr s).1]) _ with
          ⟨hlen, hread, heq⟩ | ⟨⟨l, hl, hbad⟩, slave', s', heq⟩ | ⟨hlen, hread, slave', s', heq, haddr⟩
        · exact .inl ⟨by omega, List.forall_mem_cons.mpr ⟨hne, hread⟩, heq⟩
        · exact .inr (.inl ⟨⟨l, List.mem_cons_of_mem _ hl, hbad⟩, slave', s', heq⟩)
        · refine .inr (.inr ⟨by omega, List.forall_mem_cons.mpr ⟨hne, hread⟩, slave', s', heq, ?_⟩)
          rw [haddr]
          simp [getOrNewSlave_svrInfo, ha]

end

/-- The master that the third and the fourth line of a slave name. -/
def namedMaster (vLines : List Bytes) : Option RedisSvrInfo :=
  (afterColon (vLines.getD 2 [])).bind fun ipaddr =>
    (afterColon (vLines.getD 3 [])).map fun portStr => ⟨ipaddr, atoi portStr⟩

/-- What is read from a text with all its separators: a master with the slaves that it announces, or
a slave with the master that it names. -/
structure IsRead (vLines : List Bytes) (node : RedisCli) (r : SlaveResult) : Prop where
  ret : r.ret = if isMasterRole vLines then 0 else 1
  master : isMasterRole vLines = true → r.mSlaveCli_.master_ = some node ∧
    ∀ n, slaveNum vLines = some n →
      r.mSlaveCli_.slave_.map (fun c => some c.svrInfo_) = ((vLines.drop 3).take n).map slaveAddr
  slave : ¬ isMasterRole vLines = true → r.mSlaveCli_.slave_ = [node] ∧
    r.mSlaveCli_.master_.map (·.svrInfo_) = namedMaster vLines

/-- The analysis of the lines runs out of them, does not find a separator, or reads them. -/
def Outcome (vLines : List Bytes) (node : RedisCli) (result : Option SlaveResult) : Prop :=
  (¬ LinesThere vLines ∧ result = none) ∨
  (LinesThere vLines ∧ ¬ SeparatorsThere vLines ∧ ∃ r, result = some r ∧
    r.ret = ANALYSIS_STRING_FORMATE_ERROR) ∨
  (LinesThere vLines ∧ SeparatorsThere vLines ∧ ∃ r, result = some r ∧ IsRead vLines node r)

section

variable {mgr : RedisMgr} {ioThreadNum : Nat}

theorem getD_eq_of_getElem? {lines : List Bytes} {i : Nat} {line : Bytes} (h : lines[i]? = some line) :
    lines.getD i [] = line := by
  rw [List.getD_eq_getElem?_getD, h, Option.getD_some]

variable (mgr ioThreadNum) in
theorem roleMaster_outcome (node : RedisCli) {vLines : List Bytes} (hrole : isMasterRole vLines = true)
    (s : Analysis) : Outcome vLines node (roleMaster mgr ioThreadNum node vLines s) := by
  unfold roleMaster
  simp only
  cases h2 : vLines[2]? with
  | none =>
    have hlen : vLines.length ≤ 2 := List.getElem?_eq_none_iff.mp h2
    exact .inl ⟨fun h => Nat.not_lt.mpr hlen h.1, rfl⟩
  | some line =>
    have hlen : 2 < vLines.length := (List.getElem?_eq_some_iff.mp h2).1
    have hline := getD_eq_of_getElem? h2
    simp only
    cases hn : afterColon line with
    | none =>
      have hnum : slaveNum vLines = none := by rw [slaveNum, hline, hn, Option.map_none]
      refine .inr (.inl ⟨⟨hlen, ?_⟩, ?_, _, rfl, rfl⟩)
      · rw [if_pos hrole, hnum]
        exact fun n hn => absurd hn.symm (Option.some_ne_none n)
      · rw [SeparatorsThere, if_pos hrole, hnum]
        exact fun ⟨n, hn, _⟩ => Option.some_ne_none n hn.symm
    | some slaveNumStr =>
      have hnum : slaveNum vLines = some (atoi slaveNumStr).toInt.toNat := by
        rw [slaveNum, hline, hn, Option.map_some]
      simp only
      generalize (atoi slaveNumStr).toInt.toNat = num at hnum
      have hthere : LinesThere vLines ↔ num ≤ (vLines.drop 3).length ∨
          ∃ line ∈ vLines.drop 3, slaveAddr line = none := by
        rw [LinesThere, if_pos hrole, hnum]
        exact ⟨fun h => h.2 num rfl, fun h => ⟨hlen, fun n hn => by cases hn; exact h⟩⟩
      have hsep : SeparatorsThere vLines ↔ num ≤ (vLines.drop 3).length ∧
          ∀ line ∈ (vLines.drop 3).take num, slaveAddr line ≠ none := by
        rw [SeparatorsThere, if_pos hrole, hnum]
        exact ⟨fun ⟨n, hn, h⟩ => by cases hn; exact h, fun h => ⟨num, rfl, h⟩⟩
      rcases slaveLines_cases mgr ioThreadNum num (vLines.drop 3) []
        (if node.state_ = .conn then { s with masterConn := s.masterConn + 1 } else s) with
        ⟨hshort, hread, heq⟩ | ⟨⟨l, hl, hbad⟩, slave', s', heq⟩ |
        ⟨hlong, hread, slave', s', heq, haddr⟩
      · refine .inl ⟨fun h => ?_, by rw [heq, Option.map_none]⟩
        rcases hthere.mp h with h | ⟨l, hl, hbad⟩
        · omega
        · exact hread l hl hbad
      · refine .inr (.inl ⟨hthere.mpr (.inr ⟨l, List.mem_of_mem_take hl, hbad⟩),
          fun h => (hsep.mp h).2 l hl hbad, _, by rw [heq, Option.map_some], rfl⟩)
      · refine .inr (.inr ⟨hthere.mpr (.inl hlong), hsep.mpr ⟨hlong, hread⟩, _,
          by rw [heq, Option.map_some], ?_⟩)
        refine ⟨by rw [if_pos hrole], fun _ => ⟨rfl, fun n hn => ?_⟩, fun h => absurd hrole h⟩
        rw [hnum] at hn
        cases hn
        exact haddr

variable (mgr ioThreadNum) in
theorem roleSlave_outcome (node : RedisCli) {vLines : List Bytes}
    (hrole : ¬ isMasterRole vLines = true) (s : Analysis) :
    Outcome vLines node (roleSlave mgr ioThreadNum node vLines s) := by
  have hthere : LinesThere vLines ↔ 2 < vLines.length ∧
      (afterColon (vLines.getD 2 []) ≠ none → 3 < vLines.length) := by
    rw [LinesThere, if_neg hrole]
  have hsep : SeparatorsThere vLines ↔
      afterColon (vLines.getD 2 []) ≠ none ∧ afterColon (vLines.getD 3 []) ≠ none := by
    rw [SeparatorsThere, if_neg hrole]
  unfold roleSlave
  simp only
  generalize (if node.state_ = .conn then { s with slaveConn := s.slaveConn + 1 } else s) = s₁
  cases h2 : vLines[2]? with
  | none =>
    have hlen : vLines.length ≤ 2 := List.getElem?_eq_none_iff.mp h2
    exact .inl ⟨fun h => Nat.not_lt.mpr hlen h.1, rfl⟩
  | some line =>
    have hlen : 2 < vLines.length := (List.getElem?_eq_some_iff.mp h2).1
    rw [getD_eq_of_getElem? h2] at hthere hsep
    simp only
    cases hip : afterColon line with
    | none =>
      exact .inr (.inl ⟨hthere.mpr ⟨hlen, fun h => absurd hip h⟩, fun h => (hsep.mp h).1 hip, _,
        rfl, rfl⟩)
    | some ipaddr =>
      have hsome : afterColon line ≠ none := hip ▸ Option.some_ne_none ipaddr
      simp only
      cases h3 : vLines[3]? with
      | none =>
        have hlen3 : vLines.length ≤ 3 := List.getElem?_eq_none_iff.mp h3
        exact .inl ⟨fun h => Nat.not_lt.mpr hlen3 ((hthere.mp h).2 hsome), rfl⟩
      | some line' =>
        have hlen3 : 3 < vLines.length := (List.getElem?_eq_some_iff.mp h3).1
        rw [getD_eq_of_getElem? h3] at hsep
        have hlines := hthere.mpr ⟨hlen, fun _ => hlen3⟩
        simp only
        cases hport : afterColon line' with
        | none => exact .inr (.inl ⟨hlines, fun h => (hsep.mp h).2 hport, _, rfl, rfl⟩)
        | some portStr =>
          have hnamed : namedMaster vLines = some ⟨ipaddr, atoi portStr⟩ := by
            rw [namedMaster, getD_eq_of_getElem? h2, getD_eq_of_getElem? h3, hip, hport]
            rfl
          refine .inr (.inr ⟨hlines, hsep.mpr ⟨hsome, hport ▸ Option.some_ne_none portStr⟩, ?_⟩)
          simp only
          split <;>
          · refine ⟨_, rfl, by rw [if_neg hrole], fun h => absurd h hrole, fun _ => ⟨rfl, ?_⟩⟩
            rw [hnamed, Option.map_some, getOrNewSlave_svrInfo]

variable (mgr ioThreadNum) in
/-- The outcomes of the whole analysis; what it refuses leaves the manager as it was. -/
theorem analysisSlaveNodes_cases {text : Bytes} (hne : text ≠ []) {node : RedisCli}
    (hnode : mgr.nodeCli_ = some node) (ioIndex : UInt32) (created : Nat) :
    (¬ LinesThere (split text [10]) ∧
      analysisSlaveNodes mgr ioThreadNum text ioIndex created = none) ∨
    (LinesThere (split text [10]) ∧ ¬ SeparatorsThere (split text [10]) ∧ ∃ out,
      analysisSlaveNodes mgr ioThreadNum text ioIndex created =
        some (ANALYSIS_STRING_FORMATE_ERROR, mgr, out)) ∨
    (LinesThere (split text [10]) ∧ SeparatorsThere (split text [10]) ∧ ∃ r,
      IsRead (split text [10]) node r ∧
      analysisSlaveNodes mgr ioThreadNum text ioIndex created = some (r.ret, { mgr with
        mSlaveCli_ := some r.mSlaveCli_, nodeCli_ := some r.nodeCli_
        masterConn_ := r.out.masterConn, slaveConn_ := r.out.slaveConn }, r.out)) := by
  unfold analysisSlaveNodes
  simp only [if_neg hne, hnode]
  generalize split text [10] = vLines
  cases h1 : vLines[1]? with
  | none =>
    have hlen : vLines.length ≤ 1 := List.getElem?_eq_none_iff.mp h1
    exact .inl ⟨fun h => Nat.not_lt.mpr (Nat.le_succ_of_le hlen) h.1, rfl⟩
  | some line =>
    have hrole : isMasterRole vLines = (findSub roleMasterText line).isSome := by
      rw [isMasterRole, getD_eq_of_getElem? h1]
    have hout : Outcome vLines node
        (if (findSub roleMasterText line).isSome then
          roleMaster mgr ioThreadNum node vLines ⟨ioIndex, created, [], 0, 0, none⟩
        else roleSlave mgr ioThreadNum node vLines ⟨ioIndex, created, [], 0, 0, none⟩) := by
      rw [← hrole]
      split
      · rename_i h
        exact roleMaster_outcome mgr ioThreadNum node h _
      · rename_i h
        exact roleSlave_outcome mgr ioThreadNum node h _
    simp only
    rcases hout with ⟨hlines, heq⟩ | ⟨hlines, hsep, r, heq, hret⟩ | ⟨hlines, hsep, r, heq, hread⟩
    · exact .inl ⟨hlines, by rw [heq, Option.map_none]⟩
    · refine .inr (.inl ⟨hlines, hsep, r.out, ?_⟩)
      rw [heq, Option.map_some, if_pos (by rw [hret]; decide), hret]
    · refine .inr (.inr ⟨hlines, hsep, r, hread, ?_⟩)
      have hret : ¬ r.ret < 0 := by
        rw [hread.ret]
        split <;> decide
      rw [heq, Option.map_some, if_neg hret]

/-- Without a first client, the analysis of a text uses a null pointer, or a line that is not
there. -/
theorem analysisSlaveNodes_null {text : Bytes} (hne : text ≠ []) (hnode : mgr.nodeCli_ = none)
    (ioIndex : UInt32) (created : Nat) :
    analysisSlaveNodes mgr ioThreadNum text ioIndex created = none := by
  unfold analysisSlaveNodes
  simp only [if_neg hne, hnode]
  cases (split text [10])[1]? <;> rfl

end

/-! ## Malformed texts -/

/-- What a server answers to `INFO REPLICATION`, with lines that end in LF or in CR LF: a master with
its slaves, or a slave. -/
inductive InfoText : Bytes → Prop
  | master (D : Deployment) (entries : List SlaveEntry) (tail : Bytes) :
      (∀ e ∈ entries, Solid e.addr.host ∧ 44 ∉ e.addr.host ∧ 10 ∉ e.rest) →
      entries.length < 2 ^ 31 → InfoText (D.masterText entries tail)
  | slave (D : Deployment) (tail : Bytes) : Solid D.master.host → InfoText (D.slaveText tail)

/-- For any manager and any text: the analysis uses existing lines only, and refuses what is no
answer of a server with the manager left alone, exactly if the text is empty, or the lines that it
gets to are there and a text with all separators is such an answer. -/
theorem refusesMalformed_iff (mgr : RedisMgr) (ioThreadNum : Nat) (text : Bytes) (ioIndex : UInt32)
    (created : Nat) :
    (∃ ret mgr' out, analysisSlaveNodes mgr ioThreadNum text ioIndex created = some (ret, mgr', out) ∧
      (¬ InfoText text → ret = ANALYSIS_STRING_FORMATE_ERROR ∧ mgr'.mSlaveCli_ = mgr.mSlaveCli_ ∧
        mgr'.nodeCli_ = mgr.nodeCli_ ∧ mgr'.masterConn_ = mgr.masterConn_ ∧
        mgr'.slaveConn_ = mgr.slaveConn_)) ↔
      text = [] ∨ mgr.nodeCli_ ≠ none ∧ LinesThere (split text [10]) ∧
        (SeparatorsThere (split text [10]) → InfoText text) := by
  by_cases hne : text = []
  · refine iff_of_true ⟨ANALYSIS_STRING_FORMATE_ERROR, mgr, ⟨ioIndex, created, [], 0, 0, none⟩, ?_,
      fun _ => ⟨rfl, rfl, rfl, rfl, rfl⟩⟩ (.inl hne)
    rw [analysisSlaveNodes, if_pos hne]
  cases hnode : mgr.nodeCli_ with
  | none =>
    rw [analysisSlaveNodes_null hne hnode]
    exact iff_of_false (by simp) (by simp [hne])
  | some node =>
    rcases analysisSlaveNodes_cases mgr ioThreadNum hne hnode ioIndex created with
      ⟨hlines, heq⟩ | ⟨hlines, hsep, out, heq⟩ | ⟨hlines, hsep, r, hread, heq⟩
    · rw [heq]
      exact iff_of_false (by simp) (by simp [hne, hlines])
    · rw [heq]
      refine iff_of_true ⟨_, _, _, rfl, fun _ => ⟨rfl, rfl, hnode, rfl, rfl⟩⟩ (.inr ⟨?_, hlines, ?_⟩)
      · exact Option.some_ne_none node
      · exact fun h => absurd h hsep
    · rw [heq]
      constructor
      · rintro ⟨ret, mgr', out, hsame, hbad⟩
        cases hsame
        refine .inr ⟨Option.some_ne_none node, hlines, fun _ => ?_⟩
        by_contra htext
        have hret := (hbad htext).1
        rw [hread.ret] at hret
        revert hret
        split <;> decide
      · rintro (h | ⟨-, -, htext⟩)
        · exact absurd h hne
        · exact ⟨_, _, _, rfl, fun h => absurd (htext hsep) h⟩

/-- A manager with its first client connected, and without an answer to `INFO REPLICATION`. -/
def firstMgr : RedisMgr :=
  ⟨⟨0, 0, some ⟨0, ⟨[97], 1⟩, 0, .conn⟩, none⟩, .masterSlave, .init, [], none⟩

/-- `# Replication`, `role:master` and `connected_slaves:1`, and no more. -/
def truncatedText : Bytes :=
  [35, 32, 82, 101, 112, 108, 105, 99, 97, 116, 105, 111, 110, 10, 114, 111, 108, 101, 58, 109, 97,
    115, 116, 101, 114, 10, 99, 111, 110, 110, 101, 99, 116, 101, 100, 95, 115, 108, 97, 118, 101,
    115, 58, 49]

/-- The line of the slave is used, and it is not there. -/
theorem truncatedText_past_end :
    ¬ ∀ (mgr : RedisMgr) (text : Bytes), mgr.nodeCli_ ≠ none →
      analysisSlaveNodes mgr 1 text 0 0 ≠ none := by
  intro h
  refine h firstMgr truncatedText (Option.some_ne_none _) (Option.isNone_iff_eq_none.mp ?_)
  decide +kernel

end RedisAsyn
end CmakeFrame
