import CmakeFrame.RedisAsyn.Reconnect

/-!
# The commands of a master with slaves

The servers of a deployment keep their roles, and answer `INFO REPLICATION` with the truth.

* `Deployment`, `masterText`, `slaveText`: the servers and their answers.
* `slaveAddr_line`, `analysis_masterText`, `analysis_slaveText`: what `analysisSlaveNodes` makes of
  them.
* `replSystem`: a manager that is started on one of the servers, with its notifications and its
  `INFO` rounds.
* `WritesToMaster`: while the manager runs, commands go to the master; `writesToMaster_iff`: in every
  run exactly if it was started on the master.
-/

namespace CmakeFrame
namespace RedisAsyn

open Lib

/-! ## Servers and their answers -/

structure SvrAddr where
  host : Bytes
  port : UInt16
  deriving DecidableEq, Repr

def SvrAddr.svrInfo (a : SvrAddr) : RedisSvrInfo := ⟨a.host, Int32.ofNat a.port.toNat⟩

/-- A master and its slaves. `cr` is whether the lines of an answer end in CR LF. -/
structure Deployment where
  master : SvrAddr
  slaves : List SvrAddr
  cr : Bool
  deriving DecidableEq, Repr

namespace Deployment

/-- Hosts are names, and the master is none of its slaves. -/
structure Wf (D : Deployment) : Prop where
  hosts : ∀ a ∈ D.master :: D.slaves, Solid a.host ∧ 44 ∉ a.host
  apart : D.master ∉ D.slaves

/-- What stands before the LF of a line. -/
def row (D : Deployment) (line : Bytes) : Bytes := line ++ if D.cr then [13] else []

/-- The address of a client: as it was given, or as it was read from the line of an answer. -/
def isAddr (svr : RedisSvrInfo) (a : SvrAddr) : Bool :=
  svr = a.svrInfo ∨ svr = ⟨a.host ++ [13], Int32.ofNat a.port.toNat⟩

end Deployment

/-- A slave in the answer of the master; `rest` is what follows its port. -/
structure SlaveEntry where
  addr : SvrAddr
  rest : Bytes
  deriving DecidableEq, Repr

/-- `slave0:ip=…,port=…,…` -/
def SlaveEntry.line (i : Nat) (e : SlaveEntry) : Bytes :=
  [115, 108, 97, 118, 101] ++ natDec i ++ [58, 105, 112] ++ 61 :: (e.addr.host ++ 44 ::
    ([112, 111, 114, 116] ++ 61 :: (natDec e.addr.port.toNat ++ 44 :: e.rest)))

/-- `# Replication` -/
def replicationText : Bytes := [35, 32, 82, 101, 112, 108, 105, 99, 97, 116, 105, 111, 110]

/-- `role:slave` -/
def roleSlaveText : Bytes := [114, 111, 108, 101, 58, 115, 108, 97, 118, 101]

/-- `connected_slaves` -/
def connectedSlavesText : Bytes :=
  [99, 111, 110, 110, 101, 99, 116, 101, 100, 95, 115, 108, 97, 118, 101, 115]

/-- `master_host` -/
def masterHostText : Bytes := [109, 97, 115, 116, 101, 114, 95, 104, 111, 115, 116]

/-- `master_port` -/
def masterPortText : Bytes := [109, 97, 115, 116, 101, 114, 95, 112, 111, 114, 116]

namespace Deployment

/-- The lines that name the slaves. -/
def entryRows (D : Deployment) (entries : List SlaveEntry) : List Bytes :=
  (entries.mapIdx SlaveEntry.line).map D.row

/-- The lines of the master's answer. -/
def masterRows (D : Deployment) (entries : List SlaveEntry) : List Bytes :=
  [replicationText, roleMasterText, connectedSlavesText ++ 58 :: natDec entries.length].map D.row ++
    D.entryRows entries

/-- The answer of the master; `tail` are the lines that follow. -/
def masterText (D : Deployment) (entries : List SlaveEntry) (tail : Bytes) : Bytes :=
  (D.masterRows entries).flatMap (· ++ [10]) ++ tail

def slaveRows (D : Deployment) : List Bytes :=
  [replicationText, roleSlaveText, masterHostText ++ 58 :: D.master.host,
    masterPortText ++ 58 :: natDec D.master.port.toNat].map D.row

/-- The answer of a slave. -/
def slaveText (D : Deployment) (tail : Bytes) : Bytes := D.slaveRows.flatMap (· ++ [10]) ++ tail

end Deployment

/-- The entry is one of the slaves, and its line is one line. -/
def SlaveEntry.ok (D : Deployment) (e : SlaveEntry) : Bool := e.addr ∈ D.slaves ∧ 10 ∉ e.rest

/-! ## What is read -/

section

variable {D : Deployment}

theorem row_ne_nil {line : Bytes} (h : line ≠ []) : D.row line ≠ [] := by
  simp [Deployment.row, h]

theorem row_notMem {line : Bytes} (h : 10 ∉ line) : 10 ∉ D.row line := by
  unfold Deployment.row
  cases D.cr <;> simp [h]

/-- The line of an entry is one line. -/
theorem SlaveEntry.ok_line (hw : D.Wf) {e : SlaveEntry} (he : e.ok D = true) :
    Solid e.addr.host ∧ 10 ∉ e.rest := by
  simp only [SlaveEntry.ok, decide_eq_true_eq] at he
  exact ⟨(hw.hosts _ (List.mem_cons_of_mem _ he.1)).1, he.2⟩

theorem split_masterText {entries : List SlaveEntry}
    (he : ∀ e ∈ entries, Solid e.addr.host ∧ 10 ∉ e.rest) (tail : Bytes) :
    split (D.masterText entries tail) [10] = D.masterRows entries ++ split tail [10] := by
  refine split_flatMap_append (by decide) (fun p hp => ?_) tail
  rw [Deployment.masterRows, Deployment.entryRows, ← List.map_append] at hp
  obtain ⟨line, hline, rfl⟩ := List.mem_map.mp hp
  suffices h : line ≠ [] ∧ 10 ∉ line from ⟨row_ne_nil h.1, row_notMem h.2⟩
  have hdec := fun n => notMem_natDec (c := 10) (by decide) n
  simp only [List.cons_append, List.nil_append, List.mem_cons, List.mem_mapIdx] at hline
  rcases hline with rfl | rfl | rfl | ⟨i, hi, rfl⟩
  · decide
  · decide
  · exact ⟨by simp, by simp [connectedSlavesText, hdec]⟩
  · have hok := he _ (List.getElem_mem hi)
    have hhost := hok.1.notMem (by decide : (10 : UInt8) ≤ 32)
    exact ⟨by simp [SlaveEntry.line], by simp [SlaveEntry.line, hdec, hok.2, hhost]⟩

theorem split_slaveText (hmaster : Solid D.master.host) (tail : Bytes) :
    split (D.slaveText tail) [10] = D.slaveRows ++ split tail [10] := by
  refine split_flatMap_append (by decide) (fun p hp => ?_) tail
  obtain ⟨line, hline, rfl⟩ := List.mem_map.mp hp
  suffices h : line ≠ [] ∧ 10 ∉ line from ⟨row_ne_nil h.1, row_notMem h.2⟩
  have hdec := fun n => notMem_natDec (c := 10) (by decide) n
  have hhost := hmaster.notMem (by decide : (10 : UInt8) ≤ 32)
  simp only [List.mem_cons, List.not_mem_nil, or_false] at hline
  rcases hline with rfl | rfl | rfl | rfl
  · decide
  · decide
  · exact ⟨by simp, by simp [masterHostText, hhost]⟩
  · exact ⟨by simp, by simp [masterPortText, hdec]⟩

/-- What stands behind the colon of a line `key:value`. -/
theorem afterColon_row {key : Bytes} (hkey : 58 ∉ key) (value : Bytes) :
    afterColon (D.row (key ++ 58 :: value)) = some (D.row value) := by
  have hrow : D.row (key ++ 58 :: value) = key ++ 58 :: D.row value := by simp [Deployment.row]
  have hdrop : (key ++ 58 :: D.row value).drop (key.length + 1) = D.row value := by
    rw [List.drop_append]
    simp
  rw [afterColon, hrow, findByte_append hkey]
  simp only [Option.map_some, hdrop]

theorem row_endsNumber : EndsNumber (if D.cr then [13] else []) := by
  cases D.cr <;> simp [EndsNumber, isDigit]

theorem atoi_row {n : Nat} (hn : n < 2 ^ 31) : atoi (D.row (natDec n)) = Int32.ofNat n :=
  atoi_natDec hn row_endsNumber

theorem findByteFrom_append {c : UInt8} {l m : Bytes} (hm : c ∉ m) (r : Bytes) :
    findByteFrom c (l ++ (m ++ c :: r)) l.length = some (l.length + m.length) := by
  rw [findByteFrom, List.drop_left, findByte_append hm]
  rfl

theorem between_append (l m r : Bytes) (c : UInt8) :
    between (l ++ c :: (m ++ r)) l.length (l.length + 1 + m.length) = m := by
  have hdrop : (l ++ c :: (m ++ r)).drop (l.length + 1) = m ++ r := by
    rw [← List.drop_drop, List.drop_left]
    rfl
  rw [between, if_pos (by omega), hdrop, show l.length + 1 + m.length - l.length - 1 = m.length by omega]
  exact List.take_left

/-- The address between the first `=` and `,`, the port between the next ones. -/
theorem slaveAddr_fields {pre host key port : Bytes} (hpre : 61 ∉ pre ∧ 44 ∉ pre) (hhost : 44 ∉ host)
    (hkey : 61 ∉ key) (hport : 44 ∉ port) (rest : Bytes) :
    slaveAddr (pre ++ 61 :: (host ++ 44 :: (key ++ 61 :: (port ++ 44 :: rest)))) =
      some ⟨host, atoi port⟩ := by
  generalize hline : pre ++ 61 :: (host ++ 44 :: (key ++ 61 :: (port ++ 44 :: rest))) = line
  -- the line, cut at each of its separators
  have h1 : line = pre ++ 61 :: (host ++ (44 :: (key ++ 61 :: (port ++ 44 :: rest)))) := hline.symm
  have h2 : line = (pre ++ 61 :: host) ++ 44 :: (key ++ 61 :: (port ++ 44 :: rest)) := by simp [h1]
  have h2' : line = (pre ++ 61 :: host) ++ ((44 :: key) ++ 61 :: (port ++ 44 :: rest)) := by simp [h1]
  have h3 : line = (pre ++ 61 :: host ++ 44 :: key) ++ 61 :: (port ++ (44 :: rest)) := by simp [h1]
  have h3' : line = (pre ++ 61 :: host ++ 44 :: key) ++ ((61 :: port) ++ 44 :: rest) := by simp [h1]
  have hlen : (pre ++ 61 :: host).length = pre.length + 1 + host.length := by simp; omega
  have hlen' : (pre ++ 61 :: host ++ 44 :: key).length = (pre ++ 61 :: host).length + (44 :: key).length :=
    List.length_append
  have f1 : findByte 61 line = some pre.length := h1 ▸ findByte_append hpre.1 _
  have f2 : findByte 44 line = some (pre ++ 61 :: host).length :=
    h2 ▸ findByte_append (by simp [hpre.2, hhost]) _
  have f3 : findByteFrom 61 line (pre ++ 61 :: host).length =
      some (pre ++ 61 :: host ++ 44 :: key).length := by
    rw [h2', findByteFrom_append (by simp [hkey]), hlen']
  have f4 : findByteFrom 44 line (pre ++ 61 :: host ++ 44 :: key).length =
      some ((pre ++ 61 :: host ++ 44 :: key).length + 1 + port.length) := by
    rw [h3', findByteFrom_append (by simp [hport]), List.length_cons]
    congr 1
    omega
  have b1 : between line pre.length (pre ++ 61 :: host).length = host := by
    rw [hlen, h1, between_append]
  have b2 := h3 ▸ between_append (pre ++ 61 :: host ++ 44 :: key) port (44 :: rest) 61
  simp only [slaveAddr, f1, f2, f3, f4, b1, b2]

/-- The address in the line of a slave. -/
theorem slaveAddr_line {e : SlaveEntry} (hhost : 44 ∉ e.addr.host) (i : Nat) :
    slaveAddr (D.row (e.line i)) = some e.addr.svrInfo := by
  have hport : e.addr.port.toNat < 2 ^ 31 := e.addr.port.toNat_lt.trans (by decide)
  have hline : D.row (e.line i) = ([115, 108, 97, 118, 101] ++ natDec i ++ [58, 105, 112]) ++ 61 ::
      (e.addr.host ++ 44 :: ([112, 111, 114, 116] ++ 61 :: (natDec e.addr.port.toNat ++ 44 ::
        D.row e.rest))) := by
    simp [SlaveEntry.line, Deployment.row]
  have hatoi : atoi (natDec e.addr.port.toNat) = Int32.ofNat e.addr.port.toNat := by
    simpa using atoi_natDec hport (t := []) (by simp [EndsNumber])
  have h61 : 61 ∉ natDec i := notMem_natDec (by decide) i
  have h44 : 44 ∉ natDec i := notMem_natDec (by decide) i
  rw [hline, slaveAddr_fields (by simp [h61, h44]) hhost (by decide) (notMem_natDec (by decide) _), hatoi]
  rfl

theorem svrInfo_inj {a b : SvrAddr} (h : a.svrInfo = b.svrInfo) : a = b := by
  obtain ⟨hhost, hport⟩ := RedisSvrInfo.mk.injEq .. ▸ h
  have hlt : ∀ p : UInt16, p.toNat < 2 ^ 31 := fun p => p.toNat_lt.trans (by decide)
  have hnat := congrArg Int32.toInt hport
  rw [Int32.toInt_ofNat_of_lt (hlt _), Int32.toInt_ofNat_of_lt (hlt _)] at hnat
  have hport : a.port = b.port := UInt16.toNat_inj.mp (by omega)
  cases a
  cases b
  exact SvrAddr.mk.injEq .. ▸ ⟨hhost, hport⟩

end

/-! ## The system -/

/-- The effect is a task for a new `INFO` round. -/
def Effect.isInfo : Effect → Bool
  | .infoReplicNodesUpdate _ => true
  | .asyncStateCallBack _ _ => false
  | .asyncExceCallBack _ _ => false
  | .redisSvrMgrInvalid => false
  | .clusterNodesUpdate _ _ => false
  | .insertTimerOrder _ _ => false
  | .libeventIoOrder _ => false
  | .clusterInfo _ => false

/-- `pending` are the notifications of clients that have changed their state, `rounds` the tasks
`infoReplicNodesUpdate`, `asked` the clients with an `INFO REPLICATION`. -/
structure ReplState where
  mgr : RedisMgr
  states : ConnStates
  addrs : Nat → RedisSvrInfo
  pending : List Notice
  rounds : Nat
  asked : List RedisCli
  ioIndex : UInt32
  created : Nat

inductive ReplAct where
  /-- A client changes its state; its notification is under way. -/
  | change (n : Notice)
  /-- The notification of the client gets the lock. -/
  | notify (id : Nat)
  /-- `infoReplicNodesUpdate`. -/
  | ask
  /-- The server of the client answers; the master with the slaves `entries`. -/
  | reply (cli : RedisCli) (entries : List SlaveEntry) (tail : Bytes)
  deriving DecidableEq, Repr

/-- What the server at the address answers. -/
def Deployment.answer (D : Deployment) (svr : RedisSvrInfo) (entries : List SlaveEntry) (tail : Bytes) :
    Bytes :=
  if Deployment.isAddr svr D.master then D.masterText entries tail else D.slaveText tail

namespace ReplState

def replied (s : ReplState) (cli : RedisCli) (r : Replied) : ReplState :=
  { s with
    mgr := r.mgr, ioIndex := r.ioIndex, created := r.created
    addrs := fun id => (((r.added.getD []).find? (·.id = id)).map (·.svrInfo_)).getD (s.addrs id)
    rounds := s.rounds + r.effects.countP Effect.isInfo
    asked := s.asked.erase cli }

/-- A round that fails has no step: its callback uses a line that is not there. -/
def next (D : Deployment) (ioThreadNum : Nat) (s : ReplState) : ReplAct → Option ReplState
  | .change n =>
    if n.id < s.created ∧ ∀ n' ∈ s.pending, n'.id ≠ n.id then
      (n.state.change n.id s.states).map fun states =>
        { s with states := states, pending := s.pending ++ [n] }
    else none
  | .notify id =>
    match s.pending.find? (·.id = id) with
    | none => none
    | some n =>
      (redisSvrOnConnect s.mgr (s.addrs id) n.errMsg n.state).map fun r =>
        { s with
          mgr := r.1, pending := s.pending.filter (·.id ≠ id)
          rounds := s.rounds + r.2.countP Effect.isInfo }
  | .ask =>
    match s.rounds, s.mgr.nodeCli_ with
    | rounds + 1, some cli => some { s with rounds := rounds, asked := s.asked ++ [cli] }
    | 0, _ => none
    | _ + 1, none => none
  | .reply cli entries tail =>
    if cli ∈ s.asked ∧ (∀ e ∈ entries, e.ok D = true) ∧ entries.length < 2 ^ 31 then
      (infoReplicationCb ioThreadNum (s.mgr.load s.states) s.ioIndex s.created
        [D.answer cli.svrInfo_ entries tail]).map (s.replied cli)
    else none

end ReplState

/-- A new manager with its first client, for the address that the service was started on. -/
def replSystem (D : Deployment) (start : SvrAddr) (ioThreadNum : Nat) : Sys ReplState ReplAct where
  init :=
    { mgr := ⟨⟨0, 0, some ⟨0, start.svrInfo, 0, .init⟩, none⟩, .masterSlave, .init, [], none⟩
      states := fun _ => .init
      addrs := fun _ => start.svrInfo
      pending := []
      rounds := 0
      asked := []
      ioIndex := 0
      created := 1 }
  next := ReplState.next D ioThreadNum

/-- While the manager runs and its master is connected, each command that is accepted goes to that
master, which is none of the slaves. -/
def WritesToMaster (s : ReplState) : Prop :=
  s.mgr.initState_ = .runing → ∀ ms m, s.mgr.mSlaveCli_ = some ms → ms.master_ = some m →
    s.states m.id = .conn → ∀ slot outSecond key cmdStr cli,
    redisAsyncCommand (s.mgr.load s.states) slot outSecond key cmdStr = .ok cli →
      cli.id = m.id ∧ ∀ c ∈ ms.slave_, c.id ≠ cli.id

/-! ## Started on the master -/

section Master

variable {D : Deployment} {s s' : ReplState} {ioThreadNum : Nat}

/-- The first client is the one of the master, and commands go to it; the slaves are others. -/
structure MasterFirst (D : Deployment) (s : ReplState) : Prop where
  svrType : s.mgr.svrType_ = .masterSlave
  created : 0 < s.created
  node : ∃ c, s.mgr.nodeCli_ = some c ∧ c.id = 0 ∧ c.svrInfo_ = D.master.svrInfo
  places : ∀ ms, s.mgr.mSlaveCli_ = some ms →
    (∃ m, ms.master_ = some m ∧ m.id = 0 ∧ m.svrInfo_ = D.master.svrInfo) ∧ ∀ c ∈ ms.slave_, c.id ≠ 0
  asked : ∀ c ∈ s.asked, c.svrInfo_ = D.master.svrInfo

theorem onConnectMasterSlave_svrType (mgr : RedisMgr) (svr : RedisSvrInfo) (errMsg : Bytes)
    (state : ConnEvent) : (onConnectMasterSlave mgr svr errMsg state).1.svrType_ = mgr.svrType_ := by
  have hcount : (infoReplicConnsUpdate mgr svr true).2.svrType_ = mgr.svrType_ := by
    unfold infoReplicConnsUpdate
    split
    · rfl
    · rename_i ms _
      cases ms.addrInfo svr <;> rfl
  cases hst : mgr.initState_ with
  | init =>
    cases state with
    | success =>
      simp only [onConnectMasterSlave, hst]
      split
      · rfl
      · split
        · exact hcount
        · exact hcount
    | reset => simp only [onConnectMasterSlave, hst]
    | disconn => simpa only [onConnectMasterSlave, hst] using hcount
  | runing =>
    cases state with
    | success => simpa only [onConnectMasterSlave, hst] using hcount
    | reset => simp only [onConnectMasterSlave, hst]
    | disconn => simpa only [onConnectMasterSlave, hst] using hcount
  | exception => simp only [onConnectMasterSlave, hst]
  | error => simp only [onConnectMasterSlave, hst]
  | invalid => simp only [onConnectMasterSlave, hst]

theorem MasterFirst.notify (hi : MasterFirst D s) {id : Nat}
    (h : s.next D ioThreadNum (.notify id) = some s') : MasterFirst D s' := by
  simp only [ReplState.next] at h
  split at h
  · cases h
  obtain ⟨r, hr, rfl⟩ := Option.map_eq_some_iff.mp h
  obtain ⟨hrefs, -⟩ := redisSvrOnConnect_orders _ _ hr
  have htype : r.1.svrType_ = s.mgr.svrType_ := by
    simp only [redisSvrOnConnect, hi.svrType, Option.some.injEq] at hr
    rw [← hr]
    exact onConnectMasterSlave_svrType _ _ _ _
  refine { hi with svrType := htype.trans hi.svrType, node := ?_, places := ?_ }
  · rw [hrefs.nodeCli]
    exact hi.node
  · rw [hrefs.mSlaveCli]
    exact hi.places

variable (ioThreadNum) in
/-- A line of a slave gets a client that is not the first one. -/
theorem slaveLines_ids {mgr : RedisMgr} {lines : List Bytes}
    (hline : ∀ line ∈ lines, ∃ svr, slaveAddr line = some svr ∧
      ∀ c, mgr.mSlaveCli_.bind (·.getRedisClient svr) = some c → c.id ≠ 0)
    (rest : List Bytes) (slave_ : List RedisCli) {a : Analysis} (hcreated : 0 < a.created)
    (hslave : ∀ c ∈ slave_, c.id ≠ 0) :
    ∃ slave' a', slaveLines mgr ioThreadNum lines.length (lines ++ rest) slave_ a =
      some (0, slave', a') ∧ (∀ c ∈ slave', c.id ≠ 0) ∧ 0 < a'.created := by
  induction lines generalizing slave_ a with
  | nil => exact ⟨slave_, a, rfl, hslave, hcreated⟩
  | cons line lines ih =>
    obtain ⟨svr, hsvr, hids⟩ := hline line (by simp)
    have hget : (getOrNewSlave mgr ioThreadNum svr a).1.id ≠ 0 ∧
        0 < (getOrNewSlave mgr ioThreadNum svr a).2.created := by
      unfold getOrNewSlave
      split
      · rename_i c hc
        exact ⟨hids c hc, hcreated⟩
      · exact ⟨hcreated.ne', Nat.succ_pos _⟩
    simp only [List.length_cons, List.cons_append, slaveLines, hsvr]
    generalize getOrNewSlave mgr ioThreadNum svr a = r at hget ⊢
    refine ih (fun l hl => hline l (List.mem_cons_of_mem _ hl)) _ ?_ fun c hc => ?_
    · split
      · exact hget.2
      · exact hget.2
    · rcases List.mem_append.mp hc with hc | hc
      · exact hslave c hc
      · rw [List.mem_singleton.mp hc]
        exact hget.1

/-- The client of a slave's address is none of the master. -/
theorem slaveLines_addr {mgr : RedisMgr} {entries : List SlaveEntry} (hw : D.Wf)
    (he : ∀ e ∈ entries, e.ok D = true)
    (hplaces : ∀ ms, mgr.mSlaveCli_ = some ms →
      (∃ m, ms.master_ = some m ∧ m.svrInfo_ = D.master.svrInfo) ∧ ∀ c ∈ ms.slave_, c.id ≠ 0) :
    ∀ line ∈ D.entryRows entries, ∃ svr, slaveAddr line = some svr ∧
      ∀ c, mgr.mSlaveCli_.bind (·.getRedisClient svr) = some c → c.id ≠ 0 := by
  intro line hline
  obtain ⟨l, hl, rfl⟩ := List.mem_map.mp hline
  obtain ⟨i, hi, rfl⟩ := List.mem_mapIdx.mp hl
  have hok := he _ (List.getElem_mem hi)
  simp only [SlaveEntry.ok, decide_eq_true_eq] at hok
  have hhost := (hw.hosts _ (List.mem_cons_of_mem _ hok.1)).2
  refine ⟨_, slaveAddr_line hhost i, fun c hc => ?_⟩
  obtain ⟨ms, hms, hget⟩ := Option.bind_eq_some_iff.mp hc
  obtain ⟨⟨m, hm, hmsvr⟩, hslaves⟩ := hplaces ms hms
  have hsvr := RedisMasterSlave.svrInfo_of_getRedisClient hget
  rcases List.mem_append.mp (RedisMasterSlave.mem_of_getRedisClient hget) with hmem | hmem
  · have hcm : c = m := by simpa [RedisMasterSlave.masters, hm] using hmem
    have haddr : D.master = entries[i].addr := svrInfo_inj (hmsvr.symm.trans (hcm ▸ hsvr))
    exact absurd (haddr ▸ hok.1) hw.apart
  · exact hslaves c hmem

variable (ioThreadNum) in
/-- What the analysis makes of the answer of the master: the node is the master, the slaves are
others. -/
theorem analysis_masterText {mgr : RedisMgr} {node : RedisCli} {entries : List SlaveEntry} {created : Nat}
    (hw : D.Wf) (he : ∀ e ∈ entries, e.ok D = true) (hlen : entries.length < 2 ^ 31)
    (hnode : mgr.nodeCli_ = some node) (hcreated : 0 < created)
    (hplaces : ∀ ms, mgr.mSlaveCli_ = some ms →
      (∃ m, ms.master_ = some m ∧ m.svrInfo_ = D.master.svrInfo) ∧ ∀ c ∈ ms.slave_, c.id ≠ 0)
    (tail : Bytes) (ioIndex : UInt32) :
    ∃ slave_ masterConn slaveConn out,
      analysisSlaveNodes mgr ioThreadNum (D.masterText entries tail) ioIndex created =
        some (0, { mgr with
          mSlaveCli_ := some ⟨some node, slave_⟩, nodeCli_ := some node
          masterConn_ := masterConn, slaveConn_ := slaveConn }, out) ∧
      (∀ c ∈ slave_, c.id ≠ 0) ∧ 0 < out.created := by
  have hne : D.masterText entries tail ≠ [] := by simp [Deployment.masterText, Deployment.masterRows]
  have hlines : split (D.masterText entries tail) [10] = D.row replicationText :: D.row roleMasterText ::
      D.row (connectedSlavesText ++ 58 :: natDec entries.length) ::
        (D.entryRows entries ++ split tail [10]) := by
    rw [split_masterText fun e h => SlaveEntry.ok_line hw (he e h)]
    simp [Deployment.masterRows, Deployment.entryRows]
  have hrole : (findSub roleMasterText (D.row roleMasterText)).isSome = true := by
    unfold Deployment.row
    cases D.cr <;> decide
  have hnum : (atoi (D.row (natDec entries.length))).toInt.toNat = (D.entryRows entries).length := by
    rw [atoi_row hlen, Int32.toInt_ofNat_of_lt hlen]
    simp [Deployment.entryRows]
  generalize ha : (if node.state_ = .conn then
    { (⟨ioIndex, created, [], 0, 0, none⟩ : Analysis) with masterConn := 0 + 1 }
    else ⟨ioIndex, created, [], 0, 0, none⟩) = a
  have hac : 0 < a.created := by
    rw [← ha]
    split <;> exact hcreated
  obtain ⟨slave', a', hslaves, hids, hcreated'⟩ := slaveLines_ids ioThreadNum
    (slaveLines_addr hw he hplaces) (split tail [10]) [] hac (by simp)
  refine ⟨slave', a'.masterConn, a'.slaveConn, a', ?_, hids, hcreated'⟩
  simp only [analysisSlaveNodes, if_neg hne, hlines, List.getElem?_cons_succ, List.getElem?_cons_zero,
    hnode, hrole, if_true, roleMaster, afterColon_row (by decide : 58 ∉ connectedSlavesText), hnum,
    List.drop_succ_cons, List.drop_zero, ha, hslaves, Option.map_some]
  rfl

theorem MasterFirst.reply (hw : D.Wf) (hi : MasterFirst D s) {cli : RedisCli} {entries : List SlaveEntry}
    {tail : Bytes} (h : s.next D ioThreadNum (.reply cli entries tail) = some s') : MasterFirst D s' := by
  simp only [ReplState.next] at h
  split at h
  · rename_i hguard
    obtain ⟨hasked, he, hlen⟩ := hguard
    obtain ⟨r, hr, rfl⟩ := Option.map_eq_some_iff.mp h
    obtain ⟨node, hnode, hid, hsvr⟩ := hi.node
    -- the client that was asked is the one of the master
    have hanswer : D.answer cli.svrInfo_ entries tail = D.masterText entries tail := by
      rw [Deployment.answer, if_pos (by simp [Deployment.isAddr, hi.asked cli hasked])]
    have hnodeLoad : (s.mgr.load s.states).nodeCli_ = some (node.load s.states) := by
      simp [RedisMgr.load, hnode]
    have hplaces : ∀ ms, (s.mgr.load s.states).mSlaveCli_ = some ms →
        (∃ m, ms.master_ = some m ∧ m.svrInfo_ = D.master.svrInfo) ∧ ∀ c ∈ ms.slave_, c.id ≠ 0 := by
      intro ms hms
      obtain ⟨ms₀, hms₀, rfl⟩ := Option.map_eq_some_iff.mp hms
      obtain ⟨⟨m, hm, -, hmsvr⟩, hslaves⟩ := hi.places ms₀ hms₀
      refine ⟨⟨m.load s.states, by simp [RedisMasterSlave.load, hm], hmsvr⟩, fun c hc => ?_⟩
      obtain ⟨c₀, hc₀, rfl⟩ := List.mem_map.mp hc
      exact hslaves c₀ hc₀
    have hasked' : ∀ c ∈ s.asked.erase cli, c.svrInfo_ = D.master.svrInfo := fun c hc =>
      hi.asked c (List.mem_of_mem_erase hc)
    obtain ⟨slave_, mc, sc, out, hana, hids, hcreated⟩ := analysis_masterText ioThreadNum hw he hlen
      hnodeLoad hi.created hplaces tail s.ioIndex
    unfold infoReplicationCb at hr
    split at hr
    · cases hr
      refine ⟨hi.svrType, hi.created, ⟨_, hnodeLoad, hid, hsvr⟩, fun ms hms => ?_, hasked'⟩
      obtain ⟨ms₀, hms₀, rfl⟩ := Option.map_eq_some_iff.mp hms
      obtain ⟨⟨m, hm, hmid, hmsvr⟩, -⟩ := hi.places ms₀ hms₀
      exact ⟨⟨m.load s.states, by simp [RedisMasterSlave.load, hm], hmid, hmsvr⟩, (hplaces _ hms).2⟩
    · simp only [hanswer, hana, Int.lt_irrefl, if_false, if_true, Option.some.injEq] at hr
      subst hr
      have hrefs := afterReplic_refs { s.mgr.load s.states with
        mSlaveCli_ := some ⟨some (node.load s.states), slave_⟩, nodeCli_ := some (node.load s.states)
        masterConn_ := mc, slaveConn_ := sc }
      refine ⟨?_, hcreated, ⟨_, hrefs.nodeCli, hid, hsvr⟩, fun ms hms => ?_, hasked'⟩
      · unfold afterReplic ReplState.replied
        split
        · exact hi.svrType
        · split <;> exact hi.svrType
      · cases hrefs.mSlaveCli.symm.trans hms
        exact ⟨⟨_, rfl, hid, hsvr⟩, hids⟩
  · cases h

theorem MasterFirst.next (hw : D.Wf) (hi : MasterFirst D s) {act : ReplAct}
    (h : s.next D ioThreadNum act = some s') : MasterFirst D s' := by
  cases act with
  | change n =>
    simp only [ReplState.next] at h
    split at h
    · obtain ⟨states, -, rfl⟩ := Option.map_eq_some_iff.mp h
      exact { hi with }
    · cases h
  | notify id => exact hi.notify h
  | ask =>
    simp only [ReplState.next] at h
    split at h
    · rename_i rounds cli _ hcli
      cases h
      refine { hi with asked := fun c hc => ?_ }
      rcases List.mem_append.mp hc with hc | hc
      · exact hi.asked c hc
      · obtain ⟨node, hnode, -, hsvr⟩ := hi.node
        cases hcli.symm.trans hnode
        rw [List.mem_singleton.mp hc]
        exact hsvr
    · cases h
    · cases h
  | reply cli entries tail => exact hi.reply hw h

theorem MasterFirst.writesToMaster (hi : MasterFirst D s) : WritesToMaster s := by
  intro hrun ms m hms hm hconn slot outSecond key cmdStr cli hcmd
  obtain ⟨⟨m', hm', hmid, -⟩, hslaves⟩ := hi.places ms hms
  obtain ⟨node, hnode, hid, -⟩ := hi.node
  cases hm.symm.trans hm'
  have hcli : cli.id = 0 := by
    have hcmdClient : (s.mgr.load s.states).cmdClient slot = .ok (some (node.load s.states)) := by
      simp [RedisMgr.cmdClient, RedisMgr.load, hi.svrType, hnode]
    simp only [redisAsyncCommand, hcmdClient] at hcmd
    split at hcmd
    · cases hcmd
    · split at hcmd
      · cases hcmd
      · split at hcmd
        · cases hcmd
        · cases hcmd
          exact hid
  rw [hcli, hmid]
  exact ⟨rfl, hslaves⟩

end Master

/-! ## Started on a slave -/

section Slave

variable {D : Deployment}

/-- The client that the answer of a slave makes for the master. -/
def Deployment.masterCli (D : Deployment) (ioThreadNum : Nat) (ioIndex : UInt32) (created : Nat) : RedisCli :=
  ⟨created, ⟨D.row D.master.host, Int32.ofNat D.master.port.toNat⟩, (ioIndex + 1).toNat % ioThreadNum, .init⟩

variable (ioThreadNum : Nat) in
/-- What the analysis makes of the first answer of a slave: the node stays the one for commands. -/
theorem analysis_slaveText {mgr : RedisMgr} {node : RedisCli} (hw : D.Wf)
    (hnode : mgr.nodeCli_ = some node) (hconn : node.state_ = .conn) (hnone : mgr.mSlaveCli_ = none)
    (tail : Bytes) (ioIndex : UInt32) (created : Nat) :
    analysisSlaveNodes mgr ioThreadNum (D.slaveText tail) ioIndex created =
      some (1, { mgr with
        mSlaveCli_ := some ⟨some (D.masterCli ioThreadNum ioIndex created), [node]⟩
        nodeCli_ := some node, masterConn_ := 0, slaveConn_ := 1 },
        ⟨ioIndex + 1, created + 1, [D.masterCli ioThreadNum ioIndex created], 0, 1, none⟩) := by
  have hport : D.master.port.toNat < 2 ^ 31 := D.master.port.toNat_lt.trans (by decide)
  have hne : D.slaveText tail ≠ [] := by simp [Deployment.slaveText, Deployment.slaveRows]
  have hlines : split (D.slaveText tail) [10] = D.row replicationText :: D.row roleSlaveText ::
      D.row (masterHostText ++ 58 :: D.master.host) ::
        D.row (masterPortText ++ 58 :: natDec D.master.port.toNat) :: split tail [10] := by
    rw [split_slaveText (hw.hosts D.master (by simp)).1]
    rfl
  have hrole : (findSub roleMasterText (D.row roleSlaveText)).isSome = false := by
    unfold Deployment.row
    cases D.cr <;> decide
  simp only [analysisSlaveNodes, if_neg hne, hlines, List.getElem?_cons_succ, List.getElem?_cons_zero,
    hnode, hrole, roleSlave, hconn, afterColon_row (by decide : 58 ∉ masterHostText),
    afterColon_row (by decide : 58 ∉ masterPortText), atoi_row hport, getOrNewSlave, hnone,
    Option.bind_none, if_true, Bool.false_eq_true, if_false, reduceCtorEq, Option.map_some,
    Deployment.masterCli]
  rfl

/-- A slave is not at the address of the master. -/
theorem not_isAddr {start : SvrAddr} (hw : D.Wf) (h : start ∈ D.slaves) :
    Deployment.isAddr start.svrInfo D.master = false := by
  have hne : start.svrInfo ≠ D.master.svrInfo := fun he => hw.apart (svrInfo_inj he ▸ h)
  have hcr : start.host ≠ D.master.host ++ [13] := by
    intro he
    have hsolid := (hw.hosts start (List.mem_cons_of_mem _ h)).1.notMem (by decide : (13 : UInt8) ≤ 32)
    rw [he] at hsolid
    simp at hsolid
  have hcr' : start.svrInfo ≠ ⟨D.master.host ++ [13], Int32.ofNat D.master.port.toNat⟩ := fun he =>
    hcr (congrArg RedisSvrInfo.ipAddr_ he)
  simp [Deployment.isAddr, hne, hcr']

/-- The slave is connected and has been asked. -/
def askedState (start : SvrAddr) : ReplState :=
  { mgr := ⟨⟨0, 0, some ⟨0, start.svrInfo, 0, .init⟩, none⟩, .masterSlave, .init, [], none⟩
    states := Function.update (fun _ => .init) 0 .conn
    addrs := fun _ => start.svrInfo
    pending := []
    rounds := 0
    asked := [⟨0, start.svrInfo, 0, .init⟩]
    ioIndex := 0
    created := 1 }

variable (start : SvrAddr) (ioThreadNum : Nat)

/-- The slave has answered. -/
def answeredMgr (D : Deployment) : RedisMgr :=
  ⟨⟨0, 1, some ⟨0, start.svrInfo, 0, .conn⟩, none⟩, .masterSlave, .init, [],
    some ⟨some (D.masterCli ioThreadNum 0 1), [⟨0, start.svrInfo, 0, .conn⟩]⟩⟩

def answeredState (D : Deployment) : ReplState :=
  { mgr := answeredMgr start ioThreadNum D
    states := Function.update (fun _ => .init) 0 .conn
    addrs := fun id => if id = 1 then (D.masterCli ioThreadNum 0 1).svrInfo_ else start.svrInfo
    pending := []
    rounds := 1
    asked := []
    ioIndex := 1
    created := 2 }

theorem run_asked : (replSystem D start ioThreadNum).run (replSystem D start ioThreadNum).init
    [.change ⟨0, .success, []⟩, .notify 0, .ask] = some (askedState start) := rfl

variable {start} in
theorem next_answered (hw : D.Wf) (h : start ∈ D.slaves) :
    (askedState start).next D ioThreadNum (.reply ⟨0, start.svrInfo, 0, .init⟩ [] []) =
      some (answeredState start ioThreadNum D) := by
  have hana := @analysis_slaveText D ioThreadNum ((askedState start).mgr.load (askedState start).states)
    ⟨0, start.svrInfo, 0, .conn⟩ hw rfl rfl rfl [] 0 1
  have hcb : infoReplicationCb ioThreadNum ((askedState start).mgr.load (askedState start).states) 0 1
      [D.slaveText []] = some ⟨answeredMgr start ioThreadNum D,
        [.libeventIoOrder (D.masterCli ioThreadNum 0 1), .infoReplicNodesUpdate true], 1, 2,
        some [D.masterCli ioThreadNum 0 1]⟩ := by
    simp only [infoReplicationCb, hana]
    rfl
  have hanswer : D.answer start.svrInfo [] [] = D.slaveText [] := by
    rw [Deployment.answer, not_isAddr hw h]
    rfl
  have haddrs : (fun id => ((([D.masterCli ioThreadNum 0 1].find? (·.id = id)).map (·.svrInfo_)).getD
      start.svrInfo)) = fun id => if id = 1 then (D.masterCli ioThreadNum 0 1).svrInfo_ else start.svrInfo := by
    funext id
    by_cases hid : id = 1
    · subst hid
      rfl
    · have hne : decide ((D.masterCli ioThreadNum 0 1).id = id) = false :=
        decide_eq_false fun he => hid he.symm
      rw [List.find?_cons_of_neg (by simp [hne]), if_neg hid]
      rfl
  have hguard : (⟨0, start.svrInfo, 0, .init⟩ : RedisCli) ∈ (askedState start).asked ∧
      (∀ e ∈ ([] : List SlaveEntry), e.ok D = true) ∧ ([] : List SlaveEntry).length < 2 ^ 31 :=
    ⟨by simp [askedState], by simp, by simp⟩
  rw [ReplState.next, if_pos hguard, hanswer]
  change Option.map _ (infoReplicationCb ioThreadNum ((askedState start).mgr.load (askedState start).states)
    0 1 [D.slaveText []]) = _
  rw [hcb]
  simp only [Option.map_some, ReplState.replied, answeredState, Option.some.injEq, ReplState.mk.injEq]
  exact ⟨trivial, rfl, haddrs, rfl, rfl, by simp [askedState], trivial, trivial⟩

/-- The master has connected, and the manager has not been told. -/
def connectedState (D : Deployment) : ReplState :=
  { answeredState start ioThreadNum D with
    states := Function.update (Function.update (fun _ => .init) 0 .conn) 1 .conn
    pending := [⟨1, .success, []⟩] }

def runingState (D : Deployment) : ReplState :=
  { connectedState start ioThreadNum D with
    mgr := { answeredMgr start ioThreadNum D with masterConn_ := 1, initState_ := .runing }
    pending := [] }

variable (D) in
theorem next_runing : (connectedState start ioThreadNum D).next D ioThreadNum (.notify 1) =
    some (runingState start ioThreadNum D) := by
  have hinfo : infoReplicConnsUpdate (answeredMgr start ioThreadNum D)
      (D.masterCli ioThreadNum 0 1).svrInfo_ true =
      (.master, { answeredMgr start ioThreadNum D with masterConn_ := 1 }) := by
    simp [infoReplicConnsUpdate, answeredMgr, RedisMasterSlave.addrInfo, RedisMgr.countConn, stepCount]
  have hconnect : redisSvrOnConnect (answeredMgr start ioThreadNum D)
      (D.masterCli ioThreadNum 0 1).svrInfo_ [] .success =
      some ((runingState start ioThreadNum D).mgr, [.asyncStateCallBack .runing []]) := by
    change some (onConnectMasterSlave _ _ _ _) = _
    simp only [onConnectMasterSlave, hinfo]
    rfl
  have hfind : (connectedState start ioThreadNum D).pending.find? (·.id = 1) =
      some ⟨1, .success, []⟩ := rfl
  have haddr : (connectedState start ioThreadNum D).addrs 1 = (D.masterCli ioThreadNum 0 1).svrInfo_ := rfl
  have hmgr : (connectedState start ioThreadNum D).mgr = answeredMgr start ioThreadNum D := rfl
  simp only [ReplState.next, hfind, haddr, hmgr, hconnect, Option.map_some]
  rfl

/-- The master connects as the second client and the manager runs, but commands go to the first. -/
theorem slave_start_misses (hw : D.Wf) (h : start ∈ D.slaves) :
    ∃ s, (replSystem D start ioThreadNum).Reach s ∧ ¬ WritesToMaster s := by
  have hasked := Sys.Reach.init.run _ (@run_asked D start ioThreadNum)
  have hanswered : (replSystem D start ioThreadNum).Reach (answeredState start ioThreadNum D) :=
    hasked.step (a := .reply ⟨0, start.svrInfo, 0, .init⟩ [] []) (next_answered ioThreadNum hw h)
  have hconnected : (replSystem D start ioThreadNum).Reach (connectedState start ioThreadNum D) :=
    hanswered.step (a := .change ⟨1, .success, []⟩) rfl
  have hruning : (replSystem D start ioThreadNum).Reach (runingState start ioThreadNum D) :=
    hconnected.step (a := .notify 1) (next_runing D start ioThreadNum)
  refine ⟨_, hruning, fun hall => ?_⟩
  have hcmd : redisAsyncCommand ((runingState start ioThreadNum D).mgr.load
      (runingState start ioThreadNum D).states) 0 1 [1] [1] = .ok ⟨0, start.svrInfo, 0, .conn⟩ := rfl
  have hid := (hall rfl _ _ rfl rfl rfl _ _ _ _ _ hcmd).1
  exact absurd hid (by simp [Deployment.masterCli])

end Slave

/-! ## In every run -/

/-- Commands go to the master in every run exactly if the service was started on the master. -/
theorem writesToMaster_iff {D : Deployment} (hw : D.Wf) {start : SvrAddr}
    (hstart : start ∈ D.master :: D.slaves) (ioThreadNum : Nat) :
    (∀ s, (replSystem D start ioThreadNum).Reach s → WritesToMaster s) ↔ start = D.master := by
  constructor
  · intro hall
    refine (List.mem_cons.mp hstart).resolve_right fun hslave => ?_
    obtain ⟨s, hs, hno⟩ := slave_start_misses start ioThreadNum hw hslave
    exact hno (hall s hs)
  · rintro rfl s hs
    have h0 : MasterFirst D (replSystem D D.master ioThreadNum).init :=
      ⟨rfl, Nat.one_pos, ⟨_, rfl, rfl, rfl⟩, fun ms hms => (by cases hms), fun c hc => (by cases hc)⟩
    exact (hs.inv (I := MasterFirst D) h0 fun _ _ _ hi h => hi.next hw h).writesToMaster

/-- A master `m` and a slave `s`. -/
def pairDeployment : Deployment := ⟨⟨[109], 1⟩, [⟨[115], 2⟩], false⟩

theorem pairDeployment_wf : pairDeployment.Wf where
  hosts := by decide
  apart := by decide

theorem writesToMaster_pair : pairDeployment.Wf ∧
    ∀ s, (replSystem pairDeployment ⟨[109], 1⟩ 1).Reach s → WritesToMaster s :=
  ⟨pairDeployment_wf, (writesToMaster_iff pairDeployment_wf (by decide) 1).mpr rfl⟩

theorem slave_start_writes_to_slave : ¬ ∀ (D : Deployment) (start : SvrAddr) (ioThreadNum : Nat), D.Wf →
    start ∈ D.master :: D.slaves → ∀ s, (replSystem D start ioThreadNum).Reach s → WritesToMaster s := by
  intro hall
  obtain ⟨s, hs, hno⟩ := slave_start_misses ⟨[115], 2⟩ 1 pairDeployment_wf (by decide)
  exact hno (hall pairDeployment ⟨[115], 2⟩ 1 pairDeployment_wf (by decide) s hs)

end RedisAsyn
end CmakeFrame
