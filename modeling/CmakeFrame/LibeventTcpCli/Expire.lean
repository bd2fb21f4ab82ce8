import CmakeFrame.LibeventTcpCli.Moves

/-!
# `libeventcpcli`: who is out of time

`isKeepAlive` and `setRecvSecond` subtract `lastRecvSecond_` from a second that was read earlier. If
another thread has stored a later one in between, the difference passes below zero and counts as a
long time.

* `Tested`: what a test has seen that finds a connection out of time.
* `expired_idle_iff`: it was idle for so long exactly if the second is not the older one.
* `active_expired`: a connection that has sent a second ago is ended.
-/

namespace CmakeFrame
namespace LibeventTcpCli

open Lib

/-- Each connection that was found out of time had passed the test of `TcpClient::outOfTime`. -/
def Tested (s : TcpState) : Prop :=
  ∀ id second last, .expired second last ∈ (s.conn id).log →
    last ≠ 0 ∧ (s.conn id).cli.dataOutSecond_.toInt64.toUInt64 < second - last

section

variable {s s' : TcpState} {n : Nat}

namespace Tested

/-- Only the clients and their histories matter. -/
theorem congr (hi : Tested s) (h : s'.conn = s.conn) : Tested s' := by
  intro id second last he
  rw [h] at he ⊢
  exact hi id second last he

theorem setCli (hi : Tested s) (id : Nat) {c : TcpClient}
    (hc : c.dataOutSecond_ = (s.conn id).cli.dataOutSecond_) : Tested (s.setCli id c) := by
  intro j second last he
  by_cases hj : j = id
  · subst hj
    simp only [TcpState.setCli, Function.update_self] at he ⊢
    rw [hc]
    exact hi j second last he
  · simp only [TcpState.setCli, Function.update_of_ne hj] at he ⊢
    exact hi j second last he

theorem note (hi : Tested s) (id : Nat) {e : Ev}
    (he : ∀ second last, e = .expired second last →
      last ≠ 0 ∧ (s.conn id).cli.dataOutSecond_.toInt64.toUInt64 < second - last) :
    Tested (s.note id e) := by
  intro j second last hmem
  by_cases hj : j = id
  · subst hj
    simp only [TcpState.note, Function.update_self] at hmem ⊢
    rcases List.mem_append.mp hmem with hold | hnew
    · exact hi j second last hold
    · exact he second last (List.mem_singleton.mp hnew).symm
  · simp only [TcpState.note, Function.update_of_ne hj] at hmem ⊢
    exact hi j second last hmem

/-- A connection is found out of time. -/
theorem note_expired (hi : Tested s) {id : Nat} {second : UInt64}
    (hout : (s.conn id).cli.outOfTime second = true) :
    Tested (s.note id (.expired second (s.conn id).cli.lastRecvSecond_)) := by
  refine hi.note id fun second' last heq => ?_
  cases heq
  simpa [TcpClient.outOfTime] using hout

/-- The other events. -/
theorem note_other (hi : Tested s) (id : Nat) {e : Ev}
    (he : ∀ second last, e ≠ .expired second last) : Tested (s.note id e) :=
  hi.note id fun second last heq => absurd heq (he second last)

theorem closed (hi : Tested s) (t id : Nat) (state : TcpClientState) :
    Tested (s.closed t id state) :=
  ((hi.setCli id (c := (s.conn id).cli.disConnect) rfl).note_other id (by simp)).congr rfl

theorem tcpServerConnect (hi : Tested s) (io : Bool) (t id : Nat) (state : TcpClientState) :
    Tested (s.tcpServerConnect io t id state) := by
  refine TcpState.tcpServerConnect_rule hi ?_ ?_ ?_ io
  · rintro s e hi (rfl | rfl)
    · exact hi.note_other id (by simp)
    · exact hi.note_other id (by simp)
  · exact fun s hi => hi.congr rfl
  · exact fun s p hi _ => hi.congr rfl

theorem handleRead (hi : Tested s) (i : Nat) (node : OrderNode) (result : ConnectResult)
    (second : UInt64) : Tested (s.handleRead i node result second) := by
  unfold TcpState.handleRead
  simp only
  split
  · have hconnect := (hi.setCli node.cli
      (TcpClient.connectServer_dataOutSecond_ (s.conn node.cli).cli result second)).note_other
        node.cli (e := .connectServer (decide
          (0 ≤ ((s.conn node.cli).cli.connectServer result second).2))) (by simp)
    split
    · exact hconnect.congr rfl
    · exact hconnect
  · split
    · exact (hi.setCli node.cli (c := (s.conn node.cli).cli.disConnect) rfl).note_other node.cli (by simp)
    · split
      · exact hi.note_other node.cli (by simp)
      · exact hi

theorem addConnect (hi : Tested s) (t : Nat) (ipaddr : Bytes) (port : Int) (dataOutSecond : Int32)
    (second : UInt64) : Tested (s.libeventAddConnect n t ipaddr port dataOutSecond second) := by
  intro id second' last he
  change .expired second' last ∈ (Function.update s.conn s.size _ id).log at he
  change last ≠ 0 ∧ (Function.update s.conn s.size _ id).cli.dataOutSecond_.toInt64.toUInt64 < _
  by_cases hid : id = s.size
  · rw [hid, Function.update_self] at he
    cases he
  · rw [Function.update_of_ne hid] at he ⊢
    exact hi id second' last he

/-- A step that tests nothing leaves the histories with what they had; one that finds a connection out
of time has tested it. -/
theorem next (hi : Tested s) {a : TcpAct} (h : Move n s a s') : Tested s' := by
  cases h with
  | walk ht hw hs => exact hi.congr hs.conn
  | @expired _ t id second p p' ht hw hout => exact (hi.note_expired hout).congr rfl
  | addConnect hn ht => exact hi.addConnect _ _ _ _ _
  | insert ht => exact hi.congr rfl
  | @store t id second recv ht =>
    exact (hi.setCli id (c := (s.conn id).cli.recvAt second) rfl).congr rfl
  | @accept t id msg ht =>
    have hpush : Tested (s.libeventIoOrder ⟨id, msg, .send⟩) := hi.congr rfl
    exact (hpush.note_other id (by simp)).congr rfl
  | @request t id ht =>
    have hpush : Tested (s.libeventIoOrder ⟨id, [], .disconnect⟩) := hi.congr rfl
    exact (hpush.note_other id (by simp)).congr rfl
  | look ht => exact hi.tcpServerConnect _ _ _ _
  | @call t id state ht => exact (hi.note_other id (by simp)).congr rfl
  | @late t id second ht hout => exact (hi.note_expired hout).closed t id .DIS_CONNECT
  | @take i node rest result second hlt ht hq =>
    have htaken : Tested { s with
        orderDeque_ := Function.update s.orderDeque_ i rest
        now := second } := hi.congr rfl
    exact htaken.handleRead i node result second
  | @timeout i id timer hlt ht hio htimer hstate =>
    exact (hi.setCli id (c := (s.conn id).cli.fired timer) rfl).closed i id .CONN_FAILED
  | @fired i id timer htimer => exact hi.setCli id rfl
  | @drained i id ht => exact hi.closed i id .DIS_CONNECT
  | @event i id bev hlt ht hio hbev => exact hi.closed i id _
  | @connected i id bev hlt ht hio hbev hconn =>
    exact (hi.setCli id (c := (s.conn id).cli.connected bev) rfl).congr rfl

end Tested

end

/-- In every run, whatever the threads do between the parts of a test: a connection that a test finds
out of time had no activity for more than `dataOutSecond_` seconds up to the second of the test,
exactly if its last activity is not later than this second. -/
theorem expired_idle_iff (n callers : Nat) (s : TcpState) (h : (tcpSystem n callers).Reach s)
    (id : Nat) (second last : UInt64) (he : .expired second last ∈ (s.conn id).log)
    (hpos : 0 < (s.conn id).cli.dataOutSecond_.toInt) :
    (last.toNat : Int) + (s.conn id).cli.dataOutSecond_.toInt < second.toNat ↔ last ≤ second := by
  have hi : Tested s := by
    refine Sys.Reach.inv (I := Tested) ?_ (fun _ _ _ hi hs => hi.next (move_of_next hs)) h
    intro id second last he
    cases he
  obtain ⟨-, hlt⟩ := hi id second last he
  have hout := (s.conn id).cli.toNat_dataOutSecond_ hpos
  rw [UInt64.lt_iff_toNat_lt] at hlt
  constructor
  · intro hidle
    rw [UInt64.le_iff_toNat_le]
    omega
  · intro hle
    have hsub := UInt64.toNat_sub_of_le _ _ hle
    omega

/-- The expiry thread reads the second 105. A message is sent at 106. Then the expiry thread looks at
the connection, and ends it. -/
def lateRun : List TcpAct :=
  [.libeventAddConnect 2 [49] 80 30 100, .go 2, .libeventIoExpireThread 105,
    .libeventTcpCliSendMsg 2 0 [65], .secondSinceEpoch 2 106, .go 2, .go 2, .go 2,
    .go 1, .isKeepAlive 0, .go 1, .go 1, .go 1, .go 1, .go 1, .go 1, .go 1]

/-- Of two connections, one is idle for 31 seconds. -/
def idleRun : List TcpAct :=
  [.libeventAddConnect 2 [49] 80 30 100, .go 2, .libeventAddConnect 2 [49] 80 30 120, .go 2,
    .libeventIoExpireThread 131, .go 1, .isKeepAlive 0, .isKeepAlive 1, .go 1]

theorem expired_idle_iff_idleRun : ∃ s, (tcpSystem 1 1).run (tcpSystem 1 1).init idleRun = some s ∧
    s.uidVect = [0] ∧ .expired 131 100 ∈ (s.conn 0).log ∧
    0 < (s.conn 0).cli.dataOutSecond_.toInt ∧
    (((100 : UInt64).toNat : Int) + (s.conn 0).cli.dataOutSecond_.toInt < (131 : UInt64).toNat ↔
      (100 : UInt64) ≤ 131) :=
  ⟨_, rfl, rfl, .head _, by decide,
    expired_idle_iff 1 1 _ (Sys.Reach.init.run idleRun rfl) 0 131 100 (.head _) (by decide)⟩

/-- A connection that has sent a message is ended for inactivity, a second before the message. -/
theorem active_expired : ∃ s, (tcpSystem 1 1).Reach s ∧ .expired 105 106 ∈ (s.conn 0).log ∧
    .accepted [65] ∈ (s.conn 0).log ∧ .connCb .CONN_FAILED ∈ (s.conn 0).log ∧
    (s.conn 0).cli.dataOutSecond_ = 30 ∧
    ¬ ((106 : UInt64).toNat : Int) + (s.conn 0).cli.dataOutSecond_.toInt < (105 : UInt64).toNat := by
  obtain ⟨s, hrun, hlog, hout⟩ : ∃ s, (tcpSystem 1 1).run (tcpSystem 1 1).init lateRun = some s ∧
      (s.conn 0).log = [.accepted [65], .expired 105 106, .request, .found .CONN_FAILED,
        .connCb .CONN_FAILED] ∧ (s.conn 0).cli.dataOutSecond_ = 30 :=
    ⟨_, rfl, rfl, rfl⟩
  refine ⟨s, Sys.Reach.init.run _ hrun, ?_, ?_, ?_, hout, ?_⟩
  · simp [hlog]
  · simp [hlog]
  · simp [hlog]
  · rw [hout]
    decide

end LibeventTcpCli
end CmakeFrame
