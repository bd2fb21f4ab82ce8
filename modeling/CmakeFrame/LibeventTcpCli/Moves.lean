import CmakeFrame.Lib.Threads
import CmakeFrame.LibeventTcpCli.LibeventTcpCli

/-!
# `libeventcpcli`: what a step can do

* `Move`: the steps by what they change, with the place of the thread in the code; `move_of_next`:
  there are no others. `Walks` are those that change nothing but this place.
* `Known`: in every run, threads, map and orders know only clients that exist, an IO thread has only
  clients of its own, and only callers and the expiry thread call the interface.
-/

namespace CmakeFrame
namespace LibeventTcpCli

open Lib

/-- The states do not differ in what the connections depend on. -/
structure TcpState.Agrees (s' s : TcpState) : Prop where
  conn : s'.conn = s.conn
  size : s'.size = s.size
  map : s'.tcpClientConnMap = s.tcpClientConnMap
  orders : s'.orderDeque_ = s.orderDeque_
  threads : s'.threads = s.threads

/-- Where thread `t` goes without changing a connection. -/
inductive Walks (n : Nat) (s : TcpState) (t : Nat) : Phase → Phase → Prop
  | missing : Walks n s t .idle .idle
  | sending {id : Nat} {msg : Bytes} (hn : n < t) (hmap : id ∈ s.tcpClientConnMap) :
    Walks n s t .idle (.sending id msg)
  | disconnect {id : Nat} (hn : n ≤ t) : Walks n s t .idle (.disconnecting id)
  | round {second : UInt64} : Walks n s t .idle (.round second)
  | message {id bev : Nat} {second : UInt64} (hn : t < n) (hio : (s.conn id).cli.ioIndex_ = t)
    (hbev : bev ∈ (s.conn id).cli.bevs) : Walks n s t .idle (.sampled id second .message)
  | sampled {id : Nat} {msg : Bytes} {second : UInt64} :
    Walks n s t (.sending id msg) (.sampled id second (.send msg))
  | storing {id : Nat} {second : UInt64} {recv : Recv} :
    Walks n s t (.sampled id second recv) (.storing id second recv)
  | late {id : Nat} {second : UInt64} {msg : Bytes} :
    Walks n s t (.sampled id second (.send msg)) (.disconnecting id)
  | requesting {id : Nat} (hmap : id ∈ s.tcpClientConnMap) :
    Walks n s t (.disconnecting id) (.requesting id)
  | gone {id : Nat} : Walks n s t (.disconnecting id) .idle
  | ending {id : Nat} : Walks n s t (.requested id) (.ending id (s.reports id))
  | lock {second : UInt64} {todo : List Nat} :
    Walks n s t (.round second) (.scanning second todo [])
  | scan {second : UInt64} {todo todo' uidVect uidVect' : List Nat} :
    Walks n s t (.scanning second todo uidVect) (.scanning second todo' uidVect')
  | unlock {second : UInt64} {uidVect : List Nat} :
    Walks n s t (.scanning second [] uidVect) .idle
  | received {id : Nat} : Walks n s t (.received id) .idle

/-- What a step does. -/
inductive Move (n : Nat) (s : TcpState) : TcpAct → TcpState → Prop
  | walk {a : TcpAct} {s' : TcpState} {t : Nat} {p p' : Phase} (ht : s.threads[t]? = some p)
    (hw : Walks n s t p p') (hs : s'.Agrees (s.setPhase t p')) : Move n s a s'
  | expired {a : TcpAct} {t id : Nat} {second : UInt64} {p p' : Phase} (ht : s.threads[t]? = some p)
    (hw : Walks n s t p p') (hout : (s.conn id).cli.outOfTime second = true) :
    Move n s a ((s.note id (.expired second (s.conn id).cli.lastRecvSecond_)).setPhase t p')
  | addConnect {t : Nat} {ipaddr : Bytes} {port : Int} {dataOutSecond : Int32} {second : UInt64}
    (hn : n < t) (ht : s.threads[t]? = some .idle) :
    Move n s (.libeventAddConnect t ipaddr port dataOutSecond second)
      (s.libeventAddConnect n t ipaddr port dataOutSecond second)
  | insert {t id : Nat} (ht : s.threads[t]? = some (.adding id)) :
    Move n s (.go t) ({ s with tcpClientConnMap := s.tcpClientConnMap ++ [id] }.setPhase t .idle)
  | store {t id : Nat} {second : UInt64} {recv : Recv}
    (ht : s.threads[t]? = some (.storing id second recv)) :
    Move n s (.go t) ((s.setCli id ((s.conn id).cli.recvAt second)).setPhase t (recv.phase id))
  | accept {t id : Nat} {msg : Bytes} (ht : s.threads[t]? = some (.ordering id msg)) :
    Move n s (.go t)
      (((s.libeventIoOrder ⟨id, msg, .send⟩).note id (.accepted msg)).setPhase t .idle)
  | request {t id : Nat} (ht : s.threads[t]? = some (.requesting id)) :
    Move n s (.go t)
      (((s.libeventIoOrder ⟨id, [], .disconnect⟩).note id .request).setPhase t (.requested id))
  | look {t id : Nat} {state : TcpClientState} (ht : s.threads[t]? = some (.ending id state)) :
    Move n s (.go t) (s.tcpServerConnect (decide (t < n)) t id state)
  | call {t id : Nat} {state : TcpClientState} (ht : s.threads[t]? = some (.calling id state)) :
    Move n s (.go t) ((s.note id (.connCb state)).setPhase t .idle)
  | late {t id : Nat} {second : UInt64} (ht : s.threads[t]? = some (.sampled id second .message))
    (hout : (s.conn id).cli.outOfTime second = true) :
    Move n s (.go t)
      ((s.note id (.expired second (s.conn id).cli.lastRecvSecond_)).closed t id .DIS_CONNECT)
  | take {i : Nat} {node : OrderNode} {rest : List OrderNode} {result : ConnectResult}
    {second : UInt64} (hi : i < n) (ht : s.threads[i]? = some .idle)
    (hq : s.orderDeque_ i = node :: rest) :
    Move n s (.handleRead i result second) ({ s with
      orderDeque_ := Function.update s.orderDeque_ i rest
      now := second }.handleRead i node result second)
  | timeout {i id timer : Nat} (hi : i < n) (ht : s.threads[i]? = some .idle)
    (hio : (s.conn id).cli.ioIndex_ = i) (htimer : timer ∈ (s.conn id).cli.timers)
    (hstate : (s.conn id).cli.state_ = .CONN_FAILED) :
    Move n s (.connectTimeout i id timer)
      ((s.setCli id ((s.conn id).cli.fired timer)).closed i id .CONN_FAILED)
  | fired {i id timer : Nat} (htimer : timer ∈ (s.conn id).cli.timers) :
    Move n s (.connectTimeout i id timer) (s.setCli id ((s.conn id).cli.fired timer))
  | drained {i id : Nat} (ht : s.threads[i]? = some (.received id)) :
    Move n s (.drain i false) (s.closed i id .DIS_CONNECT)
  | event {i id bev : Nat} (hi : i < n) (ht : s.threads[i]? = some .idle)
    (hio : (s.conn id).cli.ioIndex_ = i) (hbev : bev ∈ (s.conn id).cli.bevs) :
    Move n s (.TcpClientOnEvent i id bev false) (s.closed i id (s.reports id))
  | connected {i id bev : Nat} (hi : i < n) (ht : s.threads[i]? = some .idle)
    (hio : (s.conn id).cli.ioIndex_ = i) (hbev : bev ∈ (s.conn id).cli.bevs)
    (hconn : bev ∈ (s.conn id).cli.connecting) :
    Move n s (.TcpClientOnEvent i id bev true)
      ((s.setCli id ((s.conn id).cli.connected bev)).setPhase i (.ending id .CONN_SUCCESS))

section

variable {n : Nat} {s s' : TcpState}

theorem move_of_go {t : Nat} {p : Phase} (ht : s.threads[t]? = some p)
    (h : s.go n t p = some s') : Move n s (.go t) s' := by
  cases p with
  | adding id =>
    simp only [TcpState.go] at h
    split at h
    · cases h
    · cases h
      exact .insert ht
  | sampled id second recv =>
    simp only [TcpState.go] at h
    split at h
    · rename_i hout
      cases recv with
      | send msg =>
        cases h
        exact .expired ht .late hout
      | message =>
        cases h
        exact .late ht hout
    · cases h
      exact .walk ht .storing ⟨rfl, rfl, rfl, rfl, rfl⟩
  | storing id second recv =>
    cases h
    exact .store ht
  | ordering id msg =>
    cases h
    exact .accept ht
  | disconnecting id =>
    simp only [TcpState.go] at h
    split at h
    · cases h
    · cases h
      split
      · rename_i hmap
        exact .walk ht (.requesting hmap) ⟨rfl, rfl, rfl, rfl, rfl⟩
      · exact .walk ht .gone ⟨rfl, rfl, rfl, rfl, rfl⟩
  | requesting id =>
    cases h
    exact .request ht
  | requested id =>
    cases h
    exact .walk ht .ending ⟨rfl, rfl, rfl, rfl, rfl⟩
  | ending id state =>
    simp only [TcpState.go] at h
    split at h
    · cases h
    · cases h
      exact .look ht
  | calling id state =>
    cases h
    exact .call ht
  | round second =>
    simp only [TcpState.go] at h
    split at h
    · cases h
    · cases h
      exact .walk ht .lock ⟨rfl, rfl, rfl, rfl, rfl⟩
  | scanning second todo uidVect =>
    cases todo with
    | nil =>
      cases h
      exact .walk ht .unlock ⟨rfl, rfl, rfl, rfl, rfl⟩
    | cons id todo => cases h
  | idle =>
    simp only [TcpState.go] at h
    split at h
    · cases h
    · split at h
      · rename_i htn
        cases h
        exact .walk ht (.disconnect htn.ge) ⟨rfl, rfl, rfl, rfl, rfl⟩
      · cases h
  | sending id msg | received id => cases h

theorem move_of_next {a : TcpAct} (h : s.next n a = some s') : Move n s a s' := by
  cases a with
  | libeventAddConnect t ipaddr port dataOutSecond second =>
    obtain ⟨⟨hn, -, ht, -⟩, h⟩ := Option.ite_none_right_eq_some.mp h
    cases h
    exact .addConnect hn ht
  | libeventTcpCliSendMsg t id msg =>
    obtain ⟨⟨hn, ht, -⟩, h⟩ := Option.ite_none_right_eq_some.mp h
    cases h
    split
    · rename_i hmap
      exact .walk ht (.sending hn hmap) ⟨rfl, rfl, rfl, rfl, rfl⟩
    · exact .walk ht .missing ⟨rfl, rfl, rfl, rfl, rfl⟩
  | libeventTcpCliDisconnect t id =>
    obtain ⟨⟨hn, ht⟩, h⟩ := Option.ite_none_right_eq_some.mp h
    cases h
    exact .walk ht (.disconnect hn.le) ⟨rfl, rfl, rfl, rfl, rfl⟩
  | libeventIoExpireThread second =>
    obtain ⟨⟨ht, -⟩, h⟩ := Option.ite_none_right_eq_some.mp h
    cases h
    exact .walk ht .round ⟨rfl, rfl, rfl, rfl, rfl⟩
  | isKeepAlive id =>
    simp only [TcpState.next] at h
    split at h
    · rename_i second todo uidVect ht
      obtain ⟨-, h⟩ := Option.ite_none_right_eq_some.mp h
      split at h
      · cases h
        exact .walk ht .scan ⟨rfl, rfl, rfl, rfl, rfl⟩
      · rename_i halive
        cases h
        exact .expired ht .scan (by simpa [TcpClient.isKeepAlive] using halive)
    · cases h
  | secondSinceEpoch t second =>
    simp only [TcpState.next] at h
    split at h
    · rename_i id msg ht
      obtain ⟨-, h⟩ := Option.ite_none_right_eq_some.mp h
      cases h
      exact .walk ht .sampled ⟨rfl, rfl, rfl, rfl, rfl⟩
    · cases h
  | go t =>
    simp only [TcpState.next] at h
    split at h
    · cases h
    · rename_i p ht
      exact move_of_go ht h
  | handleRead i result second =>
    obtain ⟨⟨hi, ht, -⟩, h⟩ := Option.ite_none_right_eq_some.mp h
    split at h
    · cases h
    · rename_i node rest hq
      cases h
      exact .take hi ht hq
  | connectTimeout i id timer =>
    obtain ⟨⟨hi, ht, hio, htimer⟩, h⟩ := Option.ite_none_right_eq_some.mp h
    split at h
    · rename_i hstate
      cases h
      exact .timeout hi ht hio htimer hstate
    · cases h
      exact .fired htimer
  | TcpClientOnMessage i id bev second =>
    obtain ⟨⟨hi, ht, hio, hbev, -⟩, h⟩ := Option.ite_none_right_eq_some.mp h
    cases h
    exact .walk ht (.message hi hio hbev) ⟨rfl, rfl, rfl, rfl, rfl⟩
  | drain i ok =>
    simp only [TcpState.next] at h
    split at h
    · rename_i id ht
      cases h
      cases ok with
      | true => exact .walk ht .received ⟨rfl, rfl, rfl, rfl, rfl⟩
      | false => exact .drained ht
    · cases h
  | TcpClientOnEvent i id bev connected =>
    obtain ⟨⟨hi, ht, hio, hbev⟩, h⟩ := Option.ite_none_right_eq_some.mp h
    cases connected with
    | true =>
      obtain ⟨hconn, h⟩ := Option.ite_none_right_eq_some.mp h
      cases h
      exact .connected hi ht hio hbev hconn
    | false =>
      cases h
      exact .event hi ht hio hbev

/-- An event leaves the clients as they are. -/
@[simp] theorem TcpState.note_cli (s : TcpState) (id j : Nat) (e : Ev) :
    ((s.note id e).conn j).cli = (s.conn j).cli := by
  by_cases hj : j = id
  · simp [TcpState.note, hj]
  · simp [TcpState.note, Function.update_of_ne hj]

/-- A client and its history are changed together. -/
theorem setCli_note (s : TcpState) (id : Nat) (c : TcpClient) (e : Ev) : (s.setCli id c).note id e
    = { s with conn := Function.update s.conn id ⟨c, (s.conn id).log ++ [e]⟩ } := by
  simp [TcpState.setCli, TcpState.note]

/-- What holds behind `tcpServerConnect`: two events may be noted, the connection may be erased, and
the thread goes on or is done. -/
theorem TcpState.tcpServerConnect_rule {I : TcpState → Prop} {id : Nat} {state : TcpClientState}
    {t : Nat} (hi : I s)
    (hnote : ∀ s e, I s → e = .result state ∨ e = .found state → I (s.note id e))
    (herase : ∀ s, I s → I { s with tcpClientConnMap := s.tcpClientConnMap.erase id })
    (hphase : ∀ s p, I s → p = .idle ∨ p = .calling id state → I (s.setPhase t p)) (io : Bool) :
    I (s.tcpServerConnect io t id state) := by
  have hresult : I (s.noteResult io id state) := by
    unfold TcpState.noteResult
    split
    · exact hnote _ _ hi (.inl rfl)
    · exact hi
  unfold TcpState.tcpServerConnect
  simp only
  split
  · apply hphase _ _ _ (.inr rfl)
    apply hnote _ _ _ (.inr rfl)
    unfold TcpState.eraseUnless
    split
    · exact hresult
    · exact herase _ hresult
  · exact hphase _ _ hresult (.inl rfl)

/-! ## Who knows whom -/

/-- The client that a thread has at hand. -/
def Phase.client? : Phase → Option Nat
  | .adding id | .sending id _ | .sampled id _ _ | .storing id _ _ | .ordering id _ | .received id
  | .requesting id | .requested id | .ending id _ | .calling id _ => some id
  | .idle | .disconnecting _ | .round _ | .scanning _ _ _ => none

/-- In a call of the interface. -/
def Phase.calls : Phase → Bool
  | .adding _ | .sending _ _ | .sampled _ _ (.send _) | .storing _ _ (.send _) | .ordering _ _
  | .disconnecting _ | .requesting _ | .requested _ => true
  | _ => false

/-- Threads, map and orders know only clients that exist. -/
structure Known (n : Nat) (s : TcpState) : Prop where
  threads : ∀ t p id, s.threads[t]? = some p → p.client? = some id →
    id < s.size ∧ (t < n → (s.conn id).cli.ioIndex_ = t)
  calls : ∀ t p, s.threads[t]? = some p → p.calls = true → n ≤ t
  map : ∀ id ∈ s.tcpClientConnMap, id < s.size
  orders : ∀ i, ∀ node ∈ s.orderDeque_ i, node.cli < s.size ∧ (s.conn node.cli).cli.ioIndex_ = i
  blank : ∀ id, s.size ≤ id → (s.conn id).cli.bevs = [] ∧ (s.conn id).cli.timers = []

namespace Known

theorem congr (hi : Known n s) (h : s'.Agrees s) : Known n s' where
  threads := by
    rw [h.threads, h.size, h.conn]
    exact hi.threads
  calls := by
    rw [h.threads]
    exact hi.calls
  map := by
    rw [h.map, h.size]
    exact hi.map
  orders := by
    rw [h.orders, h.size, h.conn]
    exact hi.orders
  blank := by
    rw [h.size, h.conn]
    exact hi.blank

theorem conn (hi : Known n s) {id : Nat} {c : Conn} (hc : c.cli.ioIndex_ = (s.conn id).cli.ioIndex_)
    (hblank : s.size ≤ id → c.cli.bevs = [] ∧ c.cli.timers = []) :
    Known n { s with conn := Function.update s.conn id c } := by
  have hio : ∀ j, (Function.update s.conn id c j).cli.ioIndex_ = (s.conn j).cli.ioIndex_ := by
    intro j
    by_cases hj : j = id
    · rw [hj, Function.update_self, hc]
    · rw [Function.update_of_ne hj]
  refine ⟨?_, hi.calls, hi.map, ?_, ?_⟩
  · intro t p j ht hp
    simp only [hio]
    exact hi.threads t p j ht hp
  · intro i node hnode
    simp only [hio]
    exact hi.orders i node hnode
  · intro j hj
    by_cases hid : j = id
    · subst hid
      simp only [Function.update_self]
      exact hblank hj
    · simp only [Function.update_of_ne hid]
      exact hi.blank j hj

theorem note (hi : Known n s) (id : Nat) (e : Ev) : Known n (s.note id e) :=
  hi.conn rfl (hi.blank id)

theorem setCli (hi : Known n s) {id : Nat} (hid : id < s.size) {c : TcpClient}
    (hc : c.ioIndex_ = (s.conn id).cli.ioIndex_) : Known n (s.setCli id c) :=
  hi.conn hc fun h => absurd hid (Nat.not_lt.mpr h)

theorem setPhase (hi : Known n s) {t : Nat} {p : Phase}
    (hclient : ∀ id, p.client? = some id →
      id < s.size ∧ (t < n → (s.conn id).cli.ioIndex_ = t))
    (hcalls : p.calls = true → n ≤ t) : Known n (s.setPhase t p) where
  threads := by
    intro u q id hu hq
    rcases set_cases hu with ⟨rfl, rfl⟩ | ⟨-, hu⟩
    · exact hclient id hq
    · exact hi.threads u q id hu hq
  calls := by
    intro u q hu hq
    rcases set_cases hu with ⟨rfl, rfl⟩ | ⟨-, hu⟩
    · exact hcalls hq
    · exact hi.calls u q hu hq
  map := hi.map
  orders := hi.orders
  blank := hi.blank

theorem idle (hi : Known n s) (t : Nat) : Known n (s.setPhase t .idle) :=
  hi.setPhase (fun _ h => by cases h) fun h => by cases h

theorem libeventIoOrder (hi : Known n s) (node : OrderNode) (hnode : node.cli < s.size) :
    Known n (s.libeventIoOrder node) where
  threads := hi.threads
  calls := hi.calls
  map := hi.map
  orders := by
    intro i node' h
    simp only [TcpState.libeventIoOrder] at h ⊢
    by_cases hio : i = (s.conn node.cli).cli.ioIndex_
    · rw [hio, Function.update_self] at h
      rcases List.mem_append.mp h with h | h
      · rw [hio]
        exact hi.orders _ node' h
      · rw [List.mem_singleton.mp h]
        exact ⟨hnode, hio.symm⟩
    · rw [Function.update_of_ne hio] at h
      exact hi.orders i node' h
  blank := hi.blank

theorem closed (hi : Known n s) {t id : Nat} (hid : id < s.size)
    (hio : t < n → (s.conn id).cli.ioIndex_ = t) (state : TcpClientState) :
    Known n (s.closed t id state) := by
  have hclosed := (hi.setCli hid (c := (s.conn id).cli.disConnect) rfl).note id (.disConnect none)
  refine hclosed.setPhase ?_ fun h => by cases h
  rintro _ ⟨⟩
  refine ⟨hid, fun ht => ?_⟩
  simpa [TcpState.note, TcpState.setCli] using hio ht

theorem tcpServerConnect (hi : Known n s) {t id : Nat} (hid : id < s.size)
    (hio : t < n → (s.conn id).cli.ioIndex_ = t) (io : Bool) (state : TcpClientState) :
    Known n (s.tcpServerConnect io t id state) := by
  have hrule : Known n (s.tcpServerConnect io t id state) ∧
      id < (s.tcpServerConnect io t id state).size ∧ (t < n →
        ((s.tcpServerConnect io t id state).conn id).cli.ioIndex_ = t) := by
    refine TcpState.tcpServerConnect_rule (I := fun s => Known n s ∧ id < s.size ∧
      (t < n → (s.conn id).cli.ioIndex_ = t)) ⟨hi, hid, hio⟩ ?_ ?_ ?_ io
    · rintro s e ⟨hi, hid, hio⟩ -
      refine ⟨hi.note id e, hid, ?_⟩
      rw [TcpState.note_cli]
      exact hio
    · rintro s ⟨hi, hid, hio⟩
      exact ⟨{ hi with map := fun j hj => hi.map j (List.mem_of_mem_erase hj) }, hid, hio⟩
    · rintro s p ⟨hi, hid, hio⟩ (rfl | rfl)
      · exact ⟨hi.idle t, hid, hio⟩
      · refine ⟨hi.setPhase ?_ fun h => (by cases h), hid, hio⟩
        rintro _ ⟨⟩
        exact ⟨hid, hio⟩
  exact hrule.1

theorem handleRead (hi : Known n s) {i : Nat} {node : OrderNode} (hnode : node.cli < s.size)
    (hio : (s.conn node.cli).cli.ioIndex_ = i) (result : ConnectResult) (second : UInt64) :
    Known n (s.handleRead i node result second) := by
  unfold TcpState.handleRead
  simp only
  split
  · have hconnect : Known n ((s.setCli node.cli
        ((s.conn node.cli).cli.connectServer result second).1).note node.cli (.connectServer
          (decide (0 ≤ ((s.conn node.cli).cli.connectServer result second).2)))) :=
      (hi.setCli hnode (by simp)).note node.cli _
    split
    · refine hconnect.setPhase ?_ fun h => by cases h
      rintro _ ⟨⟩
      refine ⟨hnode, fun _ => ?_⟩
      simpa [TcpState.note, TcpState.setCli] using hio
    · exact hconnect
  · split
    · exact (hi.setCli hnode (by simp)).note node.cli _
    · split
      · exact hi.note node.cli _
      · exact hi

theorem addConnect (hi : Known n s) {t : Nat} (hn : n < t) (ipaddr : Bytes) (port : Int)
    (dataOutSecond : Int32) (second : UInt64) :
    Known n (s.libeventAddConnect n t ipaddr port dataOutSecond second) := by
  let client := TcpClient.new (s.lastIndex.toNat % n) ipaddr port dataOutSecond second
  have hnew : Known n { s with
      conn := Function.update s.conn s.size ⟨client, []⟩
      size := s.size + 1
      lastIndex := s.lastIndex + 1
      now := second } := by
    have hold : ∀ id < s.size, Function.update s.conn s.size ⟨client, []⟩ id = s.conn id :=
      fun id hid => Function.update_of_ne (Nat.ne_of_lt hid) _ _
    refine ⟨?_, hi.calls, ?_, ?_, ?_⟩
    · intro u p id hu hp
      obtain ⟨hid, hio⟩ := hi.threads u p id hu hp
      simp only [hold id hid]
      exact ⟨Nat.lt_succ_of_lt hid, hio⟩
    · intro id hid
      exact Nat.lt_succ_of_lt (hi.map id hid)
    · intro i node hnode
      obtain ⟨hid, hio⟩ := hi.orders i node hnode
      simp only [hold _ hid]
      exact ⟨Nat.lt_succ_of_lt hid, hio⟩
    · intro id hid
      have hne : id ≠ s.size := by
        simp only at hid
        omega
      simp only [Function.update_of_ne hne]
      exact hi.blank id (by simp only at hid; omega)
  refine (hnew.libeventIoOrder _ (Nat.lt_succ_self s.size)).setPhase ?_ fun _ => hn.le
  rintro _ ⟨⟩
  exact ⟨Nat.lt_succ_self s.size, fun ht => absurd ht (by omega)⟩

/-- A thread that only walks has the client that it had, one of the map, or one with a
bufferevent. -/
theorem walk (hi : Known n s) {t : Nat} {p p' : Phase} (ht : s.threads[t]? = some p)
    (hw : Walks n s t p p') :
    (∀ id, p'.client? = some id → id < s.size ∧ (t < n → (s.conn id).cli.ioIndex_ = t)) ∧
      (p'.calls = true → n ≤ t) := by
  have hsame (hclient : p'.client? = p.client?) (hcalls : p'.calls = p.calls) :
      (∀ id, p'.client? = some id → id < s.size ∧ (t < n → (s.conn id).cli.ioIndex_ = t)) ∧
        (p'.calls = true → n ≤ t) := by
    rw [hclient, hcalls]
    exact ⟨fun id => hi.threads t p id ht, hi.calls t p ht⟩
  cases hw with
  | missing | round | gone | unlock | received | lock | scan =>
    exact ⟨fun _ h => (by cases h), fun h => (by cases h)⟩
  | sending hn hmap =>
    refine ⟨?_, fun _ => hn.le⟩
    rintro _ ⟨⟩
    exact ⟨hi.map _ hmap, fun h => absurd h (by omega)⟩
  | disconnect hn => exact ⟨fun _ h => (by cases h), fun _ => hn⟩
  | message hn hio hbev =>
    refine ⟨?_, fun h => by cases h⟩
    rintro id ⟨⟩
    refine ⟨?_, fun _ => hio⟩
    by_contra hlt
    rw [(hi.blank _ (Nat.not_lt.mp hlt)).1] at hbev
    cases hbev
  | sampled => exact hsame rfl rfl
  | @storing id second recv =>
    cases recv with
    | send msg => exact hsame rfl rfl
    | message => exact hsame rfl rfl
  | late => exact ⟨fun _ h => (by cases h), fun _ => hi.calls t _ ht rfl⟩
  | requesting hmap =>
    have hn := hi.calls t _ ht rfl
    refine ⟨?_, fun _ => hn⟩
    rintro _ ⟨⟩
    exact ⟨hi.map _ hmap, fun h => absurd h (by omega)⟩
  | ending =>
    refine ⟨?_, fun h => by cases h⟩
    rintro id ⟨⟩
    exact hi.threads t _ _ ht rfl

theorem next (hi : Known n s) {a : TcpAct} (h : Move n s a s') : Known n s' := by
  -- who has a bufferevent or a timer exists
  have hlive : ∀ id, (∃ bev, bev ∈ (s.conn id).cli.bevs) ∨ (∃ k, k ∈ (s.conn id).cli.timers) →
      id < s.size := by
    intro id hor
    by_contra hlt
    obtain ⟨hb, ht⟩ := hi.blank id (Nat.not_lt.mp hlt)
    rw [hb, ht] at hor
    simp at hor
  cases h with
  | walk ht hw hs =>
    obtain ⟨hclient, hcalls⟩ := hi.walk ht hw
    exact (hi.setPhase hclient hcalls).congr hs
  | expired ht hw hout =>
    obtain ⟨hclient, hcalls⟩ := hi.walk ht hw
    refine (hi.note _ _).setPhase ?_ hcalls
    intro id hid
    obtain ⟨hlt, hio⟩ := hclient id hid
    refine ⟨hlt, fun h => ?_⟩
    rw [TcpState.note_cli]
    exact hio h
  | addConnect hn ht => exact hi.addConnect hn _ _ _ _
  | insert ht =>
    have hid := (hi.threads _ _ _ ht rfl).1
    have hmap : Known n { s with tcpClientConnMap := s.tcpClientConnMap ++ [_] } := { hi with
      map := by
        intro id h
        rcases List.mem_append.mp h with h | h
        · exact hi.map id h
        · rw [List.mem_singleton.mp h]
          exact hid }
    exact hmap.idle _
  | @store t id second recv ht =>
    obtain ⟨hid, hio⟩ := hi.threads _ _ _ ht rfl
    refine (hi.setCli hid (c := (s.conn id).cli.recvAt second) rfl).setPhase ?_ ?_
    · intro j hj
      have hjid : j = id := by cases recv <;> exact (Option.some.inj hj).symm
      subst hjid
      refine ⟨hid, fun h => ?_⟩
      simpa [TcpState.setCli, TcpClient.recvAt] using hio h
    · intro hcalls
      refine hi.calls t _ ht ?_
      cases recv with
      | send msg => rfl
      | message => cases hcalls
  | accept ht =>
    have hid := (hi.threads _ _ _ ht rfl).1
    exact ((hi.libeventIoOrder _ hid).note _ _).idle _
  | request ht =>
    have hid := (hi.threads _ _ _ ht rfl).1
    have hn := hi.calls _ _ ht rfl
    refine ((hi.libeventIoOrder _ hid).note _ _).setPhase ?_ fun _ => hn
    rintro _ ⟨⟩
    exact ⟨hid, fun h => absurd h (Nat.not_lt.mpr hn)⟩
  | look ht =>
    obtain ⟨hid, hio⟩ := hi.threads _ _ _ ht rfl
    exact hi.tcpServerConnect hid hio _ _
  | call ht => exact (hi.note _ _).idle _
  | late ht hout =>
    obtain ⟨hid, hio⟩ := hi.threads _ _ _ ht rfl
    refine (hi.note _ _).closed hid (fun h => ?_) _
    rw [TcpState.note_cli]
    exact hio h
  | @take i node rest result second hlt ht hq =>
    have hmem : ∀ o ∈ node :: rest, o.cli < s.size ∧ (s.conn o.cli).cli.ioIndex_ = i := by
      rw [← hq]
      exact hi.orders i
    have htaken : Known n { s with
        orderDeque_ := Function.update s.orderDeque_ i rest
        now := second } := { hi with
      orders := by
        intro j o ho
        by_cases hj : j = i
        · subst hj
          simp only [Function.update_self] at ho
          exact hmem o (List.mem_cons_of_mem _ ho)
        · simp only [Function.update_of_ne hj] at ho
          exact hi.orders j o ho }
    obtain ⟨hnode, hio⟩ := hmem node List.mem_cons_self
    exact htaken.handleRead hnode hio result second
  | @timeout i id timer hlt ht hio htimer hstate =>
    have hid := hlive _ (.inr ⟨_, htimer⟩)
    refine (hi.setCli hid (c := (s.conn id).cli.fired timer) rfl).closed hid (fun _ => ?_) _
    simpa [TcpState.setCli, TcpClient.fired] using hio
  | fired htimer => exact hi.setCli (hlive _ (.inr ⟨_, htimer⟩)) rfl
  | drained ht =>
    obtain ⟨hid, hio⟩ := hi.threads _ _ _ ht rfl
    exact hi.closed hid hio _
  | event hlt ht hio hbev => exact hi.closed (hlive _ (.inl ⟨_, hbev⟩)) (fun _ => hio) _
  | @connected i id bev hlt ht hio hbev hconn =>
    have hid := hlive _ (.inl ⟨_, hbev⟩)
    have hcli : Known n (s.setCli id ((s.conn id).cli.connected bev)) := hi.setCli hid rfl
    refine hcli.setPhase ?_ fun h => nomatch h
    rintro _ ⟨⟩
    refine ⟨hid, fun _ => ?_⟩
    simpa [TcpState.setCli, TcpClient.connected, TcpClient.tcpClieSetconn, TcpClient.freeTimer]
      using hio

theorem init (n callers : Nat) : Known n (tcpSystem n callers).init := by
  have hidle : ∀ (t : Nat) (p : Phase), (tcpSystem n callers).init.threads[t]? = some p → p = Phase.idle := by
    intro t p ht
    exact List.eq_of_mem_replicate (List.mem_of_getElem? ht)
  refine ⟨?_, ?_, ?_, ?_, fun _ _ => ⟨rfl, rfl⟩⟩
  · intro t p id ht hp
    rw [hidle t p ht] at hp
    cases hp
  · intro t p ht hp
    rw [hidle t p ht] at hp
    cases hp
  · intro id hid
    cases hid
  · intro i node hnode
    cases hnode

end Known

end

end LibeventTcpCli
end CmakeFrame
