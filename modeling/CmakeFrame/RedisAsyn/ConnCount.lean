import CmakeFrame.Lib.Sys
import CmakeFrame.RedisAsyn.RedisMgr

/-!
# The counts of a master and its slaves

* `up`: the connected ones among some clients; `up_conn`, `up_init`: what one client changes.
* `onConnectMasterSlave_counts`: what a notification does to the counts, in the states `INIT` and
  `RUNING`.
* `countSystem`: a manager and its clients; each notification goes with the change of the client.
* `Matches`: the counts are right; `Counted`: a step finds the place of its own client and is not
  the loss of a connection; `counted`: as long as all steps are so, the counts are right, and the
  first one that is not makes them wrong.
* `disconn_counts_up`: a lost master is counted a second time.
-/

namespace CmakeFrame
namespace RedisAsyn

open Lib

/-! ## Connected clients -/

/-- The states of all clients, by their ids. -/
abbrev ConnStates := Nat → ConnState

/-- How many of the clients are connected. -/
def up (states : ConnStates) (clis : List RedisCli) : Nat := clis.countP (states ·.id = .conn)

/-- How often the client `id` is among the clients. -/
def times (id : Nat) (clis : List RedisCli) : Nat := clis.countP (·.id = id)

theorem times_eq_zero {id : Nat} {clis : List RedisCli} : times id clis = 0 ↔ ∀ c ∈ clis, c.id ≠ id := by
  simp [times, List.countP_eq_zero]

theorem up_le_length (states : ConnStates) (clis : List RedisCli) : up states clis ≤ clis.length :=
  List.countP_le_length

/-- A client that connects counts as often as it is there. -/
theorem up_conn {states : ConnStates} {id : Nat} (h : states id = .init) (clis : List RedisCli) :
    up (Function.update states id .conn) clis = up states clis + times id clis := by
  induction clis with
  | nil => rfl
  | cons c clis ih =>
    simp only [up, times, List.countP_cons] at ih ⊢
    rw [ih]
    by_cases hc : c.id = id
    · simp [hc, h]
      omega
    · simp [hc]
      omega

theorem up_init {states : ConnStates} {id : Nat} (h : states id = .conn) (clis : List RedisCli) :
    up states clis = up (Function.update states id .init) clis + times id clis := by
  have hup := @up_conn (Function.update states id .init) id (by simp) clis
  have hself : Function.update states id .conn = states := by
    rw [← h]
    exact Function.update_eq_self id states
  rw [Function.update_idem, hself] at hup
  exact hup

/-! ## What a notification does -/

/-- The counts, and all that the counting looks at. -/
structure SameCounts (mgr mgr' : RedisMgr) : Prop where
  masterConn : mgr'.masterConn_ = mgr.masterConn_
  slaveConn : mgr'.slaveConn_ = mgr.slaveConn_
  mSlaveCli : mgr'.mSlaveCli_ = mgr.mSlaveCli_
  svrType : mgr'.svrType_ = mgr.svrType_

theorem SameCounts.refl (mgr : RedisMgr) : SameCounts mgr mgr := ⟨rfl, rfl, rfl, rfl⟩

theorem goRuning_same (mgr : RedisMgr) : SameCounts mgr (goRuning mgr).1 := ⟨rfl, rfl, rfl, rfl⟩

/-- The states in which the manager of a master and its slaves looks after its counts. -/
def RedisMgr.counting (mgr : RedisMgr) : Prop := mgr.initState_ = .init ∨ mgr.initState_ = .runing

theorem countConn_same (mgr : RedisMgr) (onConned : Bool) (info : AddrInfo) :
    (mgr.countConn onConned info).initState_ = mgr.initState_ ∧
      (mgr.countConn onConned info).cluterCli_ = mgr.cluterCli_ ∧
      (mgr.countConn onConned info).svrType_ = mgr.svrType_ := by
  cases info <;> exact ⟨rfl, rfl, rfl⟩

/-- Only a failed attempt leaves the counts; a success and a loss both count up. -/
theorem onConnectMasterSlave_counts {mgr : RedisMgr} (hs : mgr.counting) {ms : RedisMasterSlave}
    (hms : mgr.mSlaveCli_ = some ms) (svr : RedisSvrInfo) (errMsg : Bytes) (state : ConnEvent) :
    (onConnectMasterSlave mgr svr errMsg state).1.counting ∧
      SameCounts (if state = .reset then mgr else mgr.countConn true (ms.addrInfo svr))
        (onConnectMasterSlave mgr svr errMsg state).1 := by
  have hinfo : infoReplicConnsUpdate mgr svr true =
      (ms.addrInfo svr, mgr.countConn true (ms.addrInfo svr)) := by
    rw [infoReplicConnsUpdate, hms]
  have hcount : (mgr.countConn true (ms.addrInfo svr)).counting := by
    rw [RedisMgr.counting, (countConn_same mgr true _).1]
    exact hs
  rcases hs with hs | hs
  · cases state with
    | success =>
      simp only [onConnectMasterSlave, hs, hms, hinfo]
      split
      · exact ⟨.inr rfl, goRuning_same _⟩
      · exact ⟨hcount, SameCounts.refl _⟩
    | reset =>
      simp only [onConnectMasterSlave, hs]
      exact ⟨.inl hs, SameCounts.refl _⟩
    | disconn =>
      simp only [onConnectMasterSlave, hs, hinfo]
      exact ⟨hcount, SameCounts.refl _⟩
  · cases state with
    | success =>
      simp only [onConnectMasterSlave, hs, hinfo]
      exact ⟨hcount, SameCounts.refl _⟩
    | reset =>
      simp only [onConnectMasterSlave, hs]
      exact ⟨.inr hs, SameCounts.refl _⟩
    | disconn =>
      simp only [onConnectMasterSlave, hs, hinfo]
      exact ⟨hcount, SameCounts.refl _⟩

/-! ## A manager and its clients -/

structure CountState where
  mgr : RedisMgr
  states : ConnStates

/-- A notification about the client `id`. -/
structure Notice where
  id : Nat
  state : ConnEvent
  errMsg : Bytes
  deriving DecidableEq, Repr

/-- What a notification means for the client: a connection came about, did not come about, or was
lost. `none` if it does not go with the state of the client. -/
def ConnEvent.change (id : Nat) (states : ConnStates) : ConnEvent → Option ConnStates
  | .success => if states id = .init then some (Function.update states id .conn) else none
  | .reset => if states id = .init then some states else none
  | .disconn => if states id = .conn then some (Function.update states id .init) else none

/-- `svrOf` are the addresses of the clients. -/
def CountState.next (svrOf : Nat → RedisSvrInfo) (s : CountState) (n : Notice) : Option CountState :=
  match n.state.change n.id s.states with
  | none => none
  | some states =>
    (redisSvrOnConnect s.mgr (svrOf n.id) n.errMsg n.state).map fun r => ⟨r.1, states⟩

def countSystem (svrOf : Nat → RedisSvrInfo) (start : CountState) : Sys CountState Notice where
  init := start
  next := CountState.next svrOf

/-- The counts are the numbers of connected clients. -/
def Matches (ms : RedisMasterSlave) (s : CountState) : Prop :=
  s.mgr.masterConn_ = up s.states ms.masters ∧ s.mgr.slaveConn_ = up s.states ms.slave_

/-- A manager of a master and its slaves with right counts. The clients have their addresses, and
the vector is one that fits into the memory. -/
structure CountStart (svrOf : Nat → RedisSvrInfo) (ms : RedisMasterSlave) (s : CountState) : Prop where
  svrType : s.mgr.svrType_ = .masterSlave
  state : s.mgr.counting
  mSlaveCli : s.mgr.mSlaveCli_ = some ms
  addrs : ∀ c ∈ ms.masters ++ ms.slave_, c.svrInfo_ = svrOf c.id
  size : ms.slave_.length < 2 ^ 60
  counts : Matches ms s

/-- The step counts what it should: a success finds the place of its own client by the address, and
no listed address is lost. -/
def Counted (svrOf : Nat → RedisSvrInfo) (ms : RedisMasterSlave) (n : Notice) : Prop :=
  (n.state = .success →
    times n.id ms.masters = (if ms.addrInfo (svrOf n.id) = .master then 1 else 0) ∧
      times n.id ms.slave_ = (if ms.addrInfo (svrOf n.id) = .slave then 1 else 0)) ∧
  (n.state = .disconn → ms.addrInfo (svrOf n.id) = .noIn)

instance (svrOf : Nat → RedisSvrInfo) (ms : RedisMasterSlave) (n : Notice) :
    Decidable (Counted svrOf ms n) :=
  inferInstanceAs (Decidable (_ ∧ _))

section

variable {svrOf : Nat → RedisSvrInfo} {ms : RedisMasterSlave} {s s' : CountState} {n : Notice}

theorem addrInfo_noIn {svr : RedisSvrInfo} (h : ms.addrInfo svr = .noIn) :
    ∀ c ∈ ms.masters ++ ms.slave_, c.svrInfo_ ≠ svr := by
  unfold RedisMasterSlave.addrInfo at h
  split at h
  · cases h
  · rename_i hm
    split at h
    · cases h
    · rename_i hs
      intro c hc
      rcases List.mem_append.mp hc with hc | hc
      · cases hmaster : ms.master_ with
        | none => simp [RedisMasterSlave.masters, hmaster] at hc
        | some m =>
          simp only [RedisMasterSlave.masters, hmaster, Option.toList_some, List.mem_singleton] at hc
          simpa [hmaster, hc] using hm
      · simp only [List.any_eq_true, decide_eq_true_eq, not_exists, not_and] at hs
        exact hs c hc

theorem masters_length (ms : RedisMasterSlave) : ms.masters.length ≤ 1 := by
  unfold RedisMasterSlave.masters
  cases ms.master_ <;> simp

/-- Counts that are small enough are counted up without a wrap. -/
theorem stepCount_up {n : Nat} (h : n < 2 ^ 60) : stepCount true n = n + 1 := by
  unfold stepCount
  rw [if_pos rfl]
  exact Nat.mod_eq_of_lt (by omega)

/-- The counts behind a notification that counts up. -/
theorem countConn_up {mgr : RedisMgr} (hm : mgr.masterConn_ < 2 ^ 60) (hs : mgr.slaveConn_ < 2 ^ 60)
    (info : AddrInfo) :
    (mgr.countConn true info).masterConn_ = mgr.masterConn_ + (if info = .master then 1 else 0) ∧
      (mgr.countConn true info).slaveConn_ = mgr.slaveConn_ + (if info = .slave then 1 else 0) := by
  cases info with
  | noIn => simp [RedisMgr.countConn]
  | master => simp [RedisMgr.countConn, stepCount_up hm]
  | slave => simp [RedisMgr.countConn, stepCount_up hs]

/-- What a step leaves: the client has changed, and unless its attempt failed the place of its address
counts one more. -/
theorem next_same (hi : CountStart svrOf ms s) (h : s.next svrOf n = some s') :
    n.state.change n.id s.states = some s'.states ∧ s'.mgr.counting ∧
      SameCounts (if n.state = .reset then s.mgr else s.mgr.countConn true (ms.addrInfo (svrOf n.id)))
        s'.mgr := by
  obtain ⟨hstate, hsame⟩ := onConnectMasterSlave_counts hi.state hi.mSlaveCli (svrOf n.id) n.errMsg n.state
  unfold CountState.next at h
  rw [redisSvrOnConnect, hi.svrType] at h
  split at h
  · cases h
  · rename_i states hchange
    cases h
    exact ⟨hchange, hstate, hsame⟩

/-- All of the start but the counts stays. -/
theorem CountStart.next (hi : CountStart svrOf ms s) (h : s.next svrOf n = some s')
    (hm : Matches ms s') : CountStart svrOf ms s' := by
  obtain ⟨-, hstate, hsame⟩ := next_same hi h
  have hms : s'.mgr.mSlaveCli_ = some ms ∧ s'.mgr.svrType_ = .masterSlave := by
    rw [hsame.mSlaveCli, hsame.svrType, ← hi.mSlaveCli, ← hi.svrType]
    split
    · exact ⟨rfl, rfl⟩
    · cases ms.addrInfo (svrOf n.id) <;> exact ⟨rfl, rfl⟩
  exact ⟨hms.2, hstate, hms.1, hi.addrs, hi.size, hm⟩

/-- A client whose address is not listed is not. -/
theorem CountStart.times_noIn (hi : CountStart svrOf ms s) {id : Nat}
    (hinfo : ms.addrInfo (svrOf id) = .noIn) : times id ms.masters = 0 ∧ times id ms.slave_ = 0 := by
  have hne : ∀ c ∈ ms.masters ++ ms.slave_, c.id ≠ id := fun c hc hid =>
    addrInfo_noIn hinfo c hc (by rw [hi.addrs c hc, hid])
  exact ⟨times_eq_zero.mpr fun c hc => hne c (List.mem_append_left _ hc),
    times_eq_zero.mpr fun c hc => hne c (List.mem_append_right _ hc)⟩

/-- The counts behind a step that counts up. -/
theorem CountStart.counts_up (hi : CountStart svrOf ms s) (h : s.next svrOf n = some s')
    (hne : n.state ≠ .reset) :
    s'.mgr.masterConn_ =
        up s.states ms.masters + (if ms.addrInfo (svrOf n.id) = .master then 1 else 0) ∧
      s'.mgr.slaveConn_ =
        up s.states ms.slave_ + (if ms.addrInfo (svrOf n.id) = .slave then 1 else 0) := by
  obtain ⟨hm, hs⟩ := hi.counts
  obtain ⟨-, -, hsame⟩ := next_same hi h
  have hmle := (up_le_length s.states ms.masters).trans (masters_length ms)
  have hsle := up_le_length s.states ms.slave_
  have hsize := hi.size
  obtain ⟨hcm, hcs⟩ := @countConn_up s.mgr (by omega) (by omega) (ms.addrInfo (svrOf n.id))
  rw [if_neg hne] at hsame
  rw [hsame.masterConn, hsame.slaveConn, hcm, hcs, hm, hs]
  exact ⟨rfl, rfl⟩

/-- The counts stay right exactly if the step counts what it should. -/
theorem next_matches (hi : CountStart svrOf ms s) (h : s.next svrOf n = some s') :
    Matches ms s' ↔ Counted svrOf ms n := by
  obtain ⟨hchange, -, hsame⟩ := next_same hi h
  have hup := hi.counts_up h
  unfold Matches Counted
  cases hev : n.state with
  | success =>
    obtain ⟨hm, hs⟩ := hup (by simp [hev])
    simp only [hev, ConnEvent.change] at hchange
    split at hchange
    · rename_i hinit
      rw [hm, hs, ← Option.some.inj hchange, up_conn hinit, up_conn hinit]
      simp only [forall_const, reduceCtorEq, false_implies, and_true]
      omega
    · cases hchange
  | reset =>
    rw [hev, if_pos rfl] at hsame
    simp only [hev, ConnEvent.change] at hchange
    split at hchange
    · rw [hsame.masterConn, hsame.slaveConn, ← Option.some.inj hchange]
      simpa [Matches] using hi.counts
    · cases hchange
  | disconn =>
    obtain ⟨hm, hs⟩ := hup (by simp [hev])
    simp only [hev, ConnEvent.change] at hchange
    split at hchange
    · rename_i hconn
      have hmu := up_init hconn ms.masters
      have hsu := up_init hconn ms.slave_
      rw [hm, hs, ← Option.some.inj hchange]
      cases hinfo : ms.addrInfo (svrOf n.id) with
      | noIn =>
        obtain ⟨hm0, hs0⟩ := hi.times_noIn hinfo
        simp only [reduceCtorEq, if_false, false_implies, implies_true, and_true, iff_true]
        omega
      | master =>
        -- a master that was up is counted twice
        simp only [reduceCtorEq, if_true, false_implies, forall_const, and_false, iff_false]
        omega
      | slave =>
        simp only [reduceCtorEq, if_true, false_implies, forall_const, and_false, iff_false]
        omega
    · cases hchange

/-- In every run whose notifications count what they should, the counts are right; and one that does
not makes them wrong. -/
theorem counted {start : CountState} (h0 : CountStart svrOf ms start)
    (h : ((countSystem svrOf start).only fun _ n => Counted svrOf ms n).Reach s) :
    Matches ms s ∧ ∀ n s', s.next svrOf n = some s' → (Matches ms s' ↔ Counted svrOf ms n) := by
  have hi : CountStart svrOf ms s := h.inv_only (I := CountStart svrOf ms) h0
    fun _ _ _ hi hc hs => hi.next hs ((next_matches hi hs).mpr hc)
  exact ⟨hi.counts, fun _ _ hs => next_matches hi hs⟩

end

/-! ## A master that is lost -/

/-- Client 0 is the master, client 1 a slave, and neither is connected. -/
def twoClis : RedisMasterSlave :=
  ⟨some ⟨0, ⟨[109], 1⟩, 0, .init⟩, [⟨1, ⟨[115], 1⟩, 0, .init⟩]⟩

def twoAddrs (id : Nat) : RedisSvrInfo := if id = 0 then ⟨[109], 1⟩ else ⟨[115], 1⟩

def twoStart : CountState :=
  ⟨⟨⟨0, 0, none, none⟩, .masterSlave, .init, [], some twoClis⟩, fun _ => .init⟩

theorem twoStart_start : CountStart twoAddrs twoClis twoStart where
  svrType := rfl
  state := .inl rfl
  mSlaveCli := rfl
  addrs := by decide
  size := by decide
  counts := ⟨rfl, rfl⟩

/-- Both connect: the counts are right. -/
theorem counted_twoStart : ∃ s,
    ((countSystem twoAddrs twoStart).only fun _ n => Counted twoAddrs twoClis n).run twoStart
      [⟨1, .success, []⟩, ⟨0, .success, []⟩] = some s ∧
    s.mgr.initState_ = .runing ∧ s.mgr.masterConn_ = 1 ∧ Matches twoClis s := by
  obtain ⟨s, hs⟩ : ∃ s, ((countSystem twoAddrs twoStart).only fun _ n =>
      Counted twoAddrs twoClis n).run twoStart [⟨1, .success, []⟩, ⟨0, .success, []⟩] = some s := ⟨_, rfl⟩
  have hm := (counted twoStart_start (Sys.Reach.init.run _ hs)).1
  refine ⟨s, hs, ?_, ?_, hm⟩ <;> · cases hs; rfl

/-- A master that is lost counts up. -/
theorem disconn_counts_up : ¬ ∀ svrOf ms start s, CountStart svrOf ms start →
    (countSystem svrOf start).Reach s → Matches ms s := by
  intro h
  obtain ⟨s, hs⟩ : ∃ s, (countSystem twoAddrs twoStart).run twoStart
      [⟨0, .success, []⟩, ⟨0, .disconn, []⟩] = some s := ⟨_, rfl⟩
  have hm := (h _ _ _ s twoStart_start (Sys.Reach.init.run _ hs)).1
  cases hs
  exact absurd hm (by decide)

end RedisAsyn
end CmakeFrame
