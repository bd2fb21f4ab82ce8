import CmakeFrame.LibeventTcpCli.LifeOf

/-!
# `libeventcpcli`: the states that a connection reports

`tcpServerConnect` asks the map under `mutex_` and calls `connCb` behind it. `libeventAddConnect`
queues the order to connect before the connection is in the map.

* `LifeCycle`: `connCb` gets the states in order, with at most one end, and every result of the IO
  loop that is still wanted; an ended connection is not in the map.
* `Orderly`: the condition on a step.
* `reported_in_order`: in every run of such steps; `result_lost`: in another.
-/

namespace CmakeFrame
namespace LibeventTcpCli

open Lib

/-- What the user of the interface sees. -/
structure LifeCycle (s : TcpState) : Prop where
  states : ∀ id < s.size, reportedStates (s.conn id).log <+: [.CONN_FAILED] ∨
    reportedStates (s.conn id).log <+: [.CONN_SUCCESS, .DIS_CONNECT] ∨
    reportedStates (s.conn id).log <+: [.DIS_CONNECT]
  removed : ∀ id < s.size, ∀ state ∈ reportedStates (s.conn id).log, state ≠ .CONN_SUCCESS →
    id ∉ s.tcpClientConnMap
  told : ∀ id < s.size, ∀ state, .result state ∈ (s.conn id).log →
    state ∈ reportedStates (s.conn id).log ∨ .calling id state ∈ s.threads

/-- The condition on thread `t` at `p`. Before it asks the map, the connection has been put there, and
a caller who has read `CONN_FAILED` finds no success since then; it reports an end only when nobody is
about to report the success. -/
def Phase.Orderly (n : Nat) (s : TcpState) (t : Nat) : Phase → Prop
  | .ending id state => .adding id ∉ s.threads ∧
    (n ≤ t → state = .CONN_FAILED → id ∈ s.tcpClientConnMap →
      .CONN_SUCCESS ∉ foundStates (s.conn id).log)
  | .calling id state => state ≠ .CONN_SUCCESS → .calling id .CONN_SUCCESS ∉ s.threads
  | _ => True

instance (n : Nat) (s : TcpState) (t : Nat) (p : Phase) : Decidable (p.Orderly n s t) := by
  unfold Phase.Orderly
  split <;> infer_instance

/-- The condition on a step; also, `connectServer` is not called again where it has succeeded. -/
def Orderly (n : Nat) (s : TcpState) : TcpAct → Prop
  | .go t => ∀ p ∈ s.threads[t]?, p.Orderly n s t
  | .handleRead i _ _ => ∀ node ∈ (s.orderDeque_ i).head?, (s.conn node.cli).cli.sockfd_ = 0 →
    .connectServer true ∉ (s.conn node.cli).log
  | _ => True

instance (n : Nat) (s : TcpState) (a : TcpAct) : Decidable (Orderly n s a) := by
  unfold Orderly
  split <;> infer_instance

/-! ## Steps that report nothing -/

/-- Neither the map nor `connCb`. -/
def Ev.silent : Ev → Bool
  | .connCb _ | .found _ | .result _ => false
  | _ => true

namespace Alike

variable {c c' c'' : Conn}

theorem refl (c : Conn) : Alike c c := ⟨rfl, rfl, fun _ h => h, fun h => h, rfl, le_rfl⟩

theorem trans (h : Alike c c') (h' : Alike c' c'') : Alike c c'' where
  found := h'.found.trans h.found
  reported := h'.reported.trans h.reported
  results := fun state hs => h.results state (h'.results state hs)
  connected := fun hc => h'.connected (h.connected hc)
  state := h'.state.trans h.state
  connecting := h'.connecting.trans h.connecting

theorem note (c : Conn) {e : Ev} (he : e.silent = true) : Alike c ⟨c.cli, c.log ++ [e]⟩ := by
  refine ⟨?_, ?_, ?_, fun h => List.mem_append_left _ h, rfl, le_rfl⟩
  · rw [foundStates, List.filterMap_append]
    cases e with
    | connCb | found | result => cases he
    | _ => exact List.append_nil _
  · rw [reportedStates, List.filterMap_append]
    cases e with
    | connCb | found | result => cases he
    | _ => exact List.append_nil _
  · intro state hs
    rcases List.mem_append.mp hs with hs | hs
    · exact hs
    · rw [← List.mem_singleton.mp hs] at he
      cases he

theorem setCli (c : Conn) {client : TcpClient} (hstate : client.state_ = c.cli.state_)
    (hconn : client.connecting.length ≤ c.cli.connecting.length) : Alike c ⟨client, c.log⟩ :=
  ⟨rfl, rfl, fun _ h => h, fun h => h, hstate, hconn⟩

end Alike

/-- A step between the states reports nothing. -/
structure Quiet (s s' : TcpState) : Prop where
  conn : ∀ id, Alike (s.conn id) (s'.conn id)
  size : s'.size = s.size
  map : s'.tcpClientConnMap = s.tcpClientConnMap
  threads : s'.threads = s.threads

namespace Quiet

variable {s s' s'' : TcpState}

theorem trans (h : Quiet s s') (h' : Quiet s' s'') : Quiet s s'' where
  conn := fun id => (h.conn id).trans (h'.conn id)
  size := h'.size.trans h.size
  map := h'.map.trans h.map
  threads := h'.threads.trans h.threads

theorem of_conn (hconn : s'.conn = s.conn) (hsize : s'.size = s.size)
    (hmap : s'.tcpClientConnMap = s.tcpClientConnMap) (hthreads : s'.threads = s.threads) :
    Quiet s s' where
  conn := by
    rw [hconn]
    exact fun id => .refl _
  size := hsize
  map := hmap
  threads := hthreads

/-- One connection is changed. -/
theorem update (s : TcpState) {id : Nat} {c : Conn} (h : Alike (s.conn id) c) :
    Quiet s { s with conn := Function.update s.conn id c } where
  conn := by
    intro j
    by_cases hj : j = id
    · subst hj
      simpa using h
    · simpa [Function.update_of_ne hj] using Alike.refl (s.conn j)
  size := rfl
  map := rfl
  threads := rfl

theorem note (s : TcpState) (id : Nat) {e : Ev} (he : e.silent = true) : Quiet s (s.note id e) :=
  .update s (.note _ he)

theorem setCli (s : TcpState) (id : Nat) {client : TcpClient}
    (hstate : client.state_ = (s.conn id).cli.state_)
    (hconn : client.connecting.length ≤ (s.conn id).cli.connecting.length) :
    Quiet s (s.setCli id client) :=
  .update s (.setCli _ hstate hconn)

theorem order (s : TcpState) (node : OrderNode) : Quiet s (s.libeventIoOrder node) :=
  .of_conn rfl rfl rfl rfl

/-- A client is changed, and that is noted. -/
theorem setCli_note (s : TcpState) (id : Nat) {client : TcpClient} {e : Ev}
    (hstate : client.state_ = (s.conn id).cli.state_)
    (hconn : client.connecting.length ≤ (s.conn id).cli.connecting.length)
    (he : e.silent = true) : Quiet s ((s.setCli id client).note id e) :=
  (setCli s id hstate hconn).trans (note _ id he)

end Quiet

section

variable {n t : Nat} {s s' : TcpState} {p p' : Phase}

/-- The invariant of every connection. -/
def Life (n : Nat) (s : TcpState) : Prop :=
  ∀ id < s.size, LifeOf n s.threads s.tcpClientConnMap id (s.conn id)

/-- `eraseUnless` changes the map only. -/
theorem eraseUnless_eq (s : TcpState) (id : Nat) (state : TcpClientState) :
    s.eraseUnless id state = { s with tcpClientConnMap :=
      if state = .CONN_SUCCESS then s.tcpClientConnMap else s.tcpClientConnMap.erase id } := by
  unfold TcpState.eraseUnless
  split <;> rfl

/-- A look-up is noted behind the result, if that is noted. -/
theorem Finds.of_log (c : Conn) (state : TcpClientState) (log : List Ev)
    (h : log = [] ∨ log = [.result state]) : Finds state c ⟨c.cli, c.log ++ log ++ [.found state]⟩ := by
  rcases h with rfl | rfl
  · exact ⟨by simp [foundStates], by simp [reportedStates], by simp +contextual, by simp, rfl⟩
  · exact ⟨by simp [foundStates], by simp [reportedStates], by simp, by simp, rfl⟩

/-- What `tcpServerConnect` does when the map has the connection. -/
theorem tcpServerConnect_found {id : Nat} (hmap : id ∈ s.tcpClientConnMap) (io : Bool) (t : Nat)
    (state : TcpClientState) : ∃ c, Finds state (s.conn id) c ∧
      s.tcpServerConnect io t id state = { s with
        conn := Function.update s.conn id c
        threads := s.threads.set t (.calling id state)
        tcpClientConnMap :=
          if state = .CONN_SUCCESS then s.tcpClientConnMap else s.tcpClientConnMap.erase id } := by
  unfold TcpState.tcpServerConnect TcpState.noteResult
  simp only [if_pos hmap, eraseUnless_eq]
  split
  · exact ⟨_, .of_log _ state [.result state] (.inr rfl), by
      simp [TcpState.note, TcpState.setPhase]⟩
  · exact ⟨_, .of_log _ state [] (.inl rfl), by simp [TcpState.note, TcpState.setPhase]⟩

/-- About to report an end. -/
theorem Phase.passive_ending (id : Nat) {state : TcpClientState} (h : state ≠ .CONN_SUCCESS)
    (j : Nat) : (Phase.ending id state).Passive j := by
  refine ⟨by simp, ?_, by simp⟩
  intro heq
  cases heq
  exact h rfl

theorem TcpState.reports_failed (s : TcpState) (id : Nat) :
    s.reports id = .CONN_FAILED ↔ (s.conn id).cli.state_ = .CONN_FAILED := by
  unfold TcpState.reports
  split <;> simp_all

/-- It is an end. -/
theorem TcpState.reports_ne (s : TcpState) (id : Nat) : s.reports id ≠ .CONN_SUCCESS := by
  unfold TcpState.reports
  split <;> simp

/-- A thread that only walks adds no connection, calls nobody, and is about to report an end only as a
caller. -/
theorem walks_passive (hk : Known n s) (ht : s.threads[t]? = some p) (hw : Walks n s t p p') :
    (∀ id, p ≠ .adding id) ∧ (∀ id state, p ≠ .calling id state) ∧ (∀ id, p'.Passive id) ∧
      (t < n → ∀ id, p' ≠ .ending id .CONN_FAILED) := by
  cases hw with
  | @ending id =>
    have hn := hk.calls t _ ht rfl
    exact ⟨by simp, by simp, Phase.passive_ending id (s.reports_ne id), fun hlt => absurd hlt (by omega)⟩
  | _ => exact ⟨by simp, by simp, fun _ => ⟨by simp, by simp, by simp⟩, by simp⟩

namespace Life

theorem quiet (hi : Life n s) (h : Quiet s s') : Life n s' := by
  intro id hid
  rw [h.size] at hid
  rw [h.threads, h.map]
  exact (hi id hid).alike (h.conn id)

/-- A thread that adds no connection and calls nobody goes to a phase that does not matter, or is
about to report an end. -/
theorem setPhase (hi : Life n s) (ht : s.threads[t]? = some p) (hadd : ∀ id, p ≠ .adding id)
    (hcall : ∀ id state, p ≠ .calling id state) (hp' : ∀ id, p'.Passive id)
    (hio : ∀ id < s.size, t < n → p' = .ending id .CONN_FAILED →
      .CONN_SUCCESS ∉ foundStates (s.conn id).log) : Life n (s.setPhase t p') :=
  fun id hid => (hi id hid).move ht (hadd id) (hcall id) (hp' id) (hio id hid)

/-- The connection is closed, and its end will be reported. -/
theorem closed (hi : Life n s) (ht : s.threads[t]? = some p) (hadd : ∀ id, p ≠ .adding id)
    (hcall : ∀ id state, p ≠ .calling id state) (id : Nat) {state : TcpClientState}
    (hstate : state ≠ .CONN_SUCCESS)
    (hio : state = .CONN_FAILED → t < n → id < s.size →
      .CONN_SUCCESS ∉ foundStates (s.conn id).log) : Life n (s.closed t id state) := by
  have hq : Quiet s ((s.setCli id (s.conn id).cli.disConnect).note id (.disConnect none)) :=
    .setCli_note s id rfl (TcpClient.disConnect_connecting _) rfl
  refine (hi.quiet hq).setPhase ht hadd hcall (Phase.passive_ending id hstate) ?_
  rintro j hj hlt ⟨⟩
  rw [(hq.conn _).found]
  exact hio rfl hlt hj

/-- `libeventAddConnect` starts: nobody knows the number yet. -/
theorem addConnect (hi : Life n s) (hk : Known n s) (ht : s.threads[t]? = some .idle)
    (ipaddr : Bytes) (port : Int) (dataOutSecond : Int32) (second : UInt64) :
    Life n (s.libeventAddConnect n t ipaddr port dataOutSecond second) := by
  intro id hid
  unfold TcpState.libeventAddConnect
  simp only [TcpState.setPhase, TcpState.libeventIoOrder]
  by_cases hsize : id = s.size
  · subst hsize
    rw [Function.update_self]
    refine .new ?_ ?_ ht _ rfl
    · intro q hq hclient
      obtain ⟨u, hu⟩ := List.getElem?_of_mem hq
      exact Nat.lt_irrefl _ (hk.threads u q _ hu hclient).1
    · exact fun hmem => Nat.lt_irrefl _ (hk.map _ hmem)
  · rw [Function.update_of_ne hsize]
    have hlt : id < s.size := by
      have : id < s.size + 1 := hid
      omega
    refine (hi id hlt).move ht (by simp) (by simp) ⟨?_, by simp, by simp⟩ (by simp)
    intro heq
    cases heq
    exact hsize rfl

/-- `libeventAddConnect` ends. -/
theorem insert (hi : Life n s) {id : Nat} (ht : s.threads[t]? = some (.adding id)) :
    Life n ({ s with tcpClientConnMap := s.tcpClientConnMap ++ [id] }.setPhase t .idle) := by
  intro j hj
  by_cases hid : id = j
  · subst hid
    exact (hi id hj).insert ht
  · have hmove : LifeOf n (s.threads.set t .idle) s.tcpClientConnMap j (s.conn j) :=
      (hi j hj).move ht (by simpa using hid) (by simp) ⟨by simp, by simp, by simp⟩ (by simp)
    refine hmove.map_congr ?_
    simp only [TcpState.setPhase]
    rw [List.count_append, List.count_singleton, if_neg (by simpa using hid), Nat.add_zero]

/-- `connCb` is called. -/
theorem call (hi : Life n s) {id : Nat} {state : TcpClientState}
    (ht : s.threads[t]? = some (.calling id state))
    (hsuccess : state ≠ .CONN_SUCCESS → .calling id .CONN_SUCCESS ∉ s.threads) :
    Life n ((s.note id (.connCb state)).setPhase t .idle) := by
  intro j hj
  simp only [TcpState.setPhase, TcpState.note]
  by_cases hid : id = j
  · subst hid
    rw [Function.update_self]
    refine (hi id hj).call ht hsuccess ?_ ?_ ?_ (fun h => List.mem_append_left _ h) rfl
    · simp [foundStates]
    · simp [reportedStates]
    · intro r hr
      simpa using hr
  · rw [Function.update_of_ne (Ne.symm hid)]
    refine (hi j hj).move ht (by simp) ?_ ⟨by simp, by simp, by simp⟩ (by simp)
    intro r heq
    cases heq
    exact hid rfl

/-- A bufferevent has connected. -/
theorem connected (hi : Life n s) {id bev : Nat} (hlt : t < n) (ht : s.threads[t]? = some .idle)
    (hconn : bev ∈ (s.conn id).cli.connecting) :
    Life n ((s.setCli id ((s.conn id).cli.connected bev)).setPhase t
      (.ending id .CONN_SUCCESS)) := by
  intro j hj
  simp only [TcpState.setPhase, TcpState.setCli]
  by_cases hid : id = j
  · subst hid
    rw [Function.update_self]
    refine (hi id hj).connected hlt ht rfl rfl ?_
    have hpos := List.length_pos_of_mem hconn
    have hlen := List.length_erase_of_mem hconn
    change ((s.conn id).cli.connecting.erase bev).length + 1 = _
    omega
  · rw [Function.update_of_ne (Ne.symm hid)]
    refine (hi j hj).move ht (by simp) (by simp) ⟨by simp, ?_, by simp⟩ (by simp)
    intro heq
    cases heq
    exact hid rfl

/-- `tcpServerConnect` asks the map. -/
theorem look (hi : Life n s) (hk : Known n s) {id : Nat} {state : TcpClientState}
    (ht : s.threads[t]? = some (.ending id state)) (hadded : .adding id ∉ s.threads)
    (hfailed : n ≤ t → state = .CONN_FAILED → id ∈ s.tcpClientConnMap →
      .CONN_SUCCESS ∉ foundStates (s.conn id).log) :
    Life n (s.tcpServerConnect (decide (t < n)) t id state) := by
  obtain ⟨hid, hown⟩ := hk.threads t _ id ht rfl
  by_cases hmap : id ∈ s.tcpClientConnMap
  · obtain ⟨c, hf, heq⟩ := tcpServerConnect_found hmap (decide (t < n)) t state
    rw [heq]
    intro j hj
    by_cases hji : j = id
    · subst hji
      simp only [Function.update_self]
      by_cases hstate : state = .CONN_SUCCESS
      · subst hstate
        rw [if_pos rfl]
        refine (hi j hj).lookSuccess ht hmap ?_ hf
        -- the connection has one IO thread, which is this one
        intro u hu hfail
        have hio := (hk.threads u _ j hfail rfl).2 hu
        have hlt := (hi j hj).looks t ht
        have hut : u = t := hio.symm.trans (hown hlt)
        rw [hut, ht] at hfail
        cases hfail
      · rw [if_neg hstate]
        refine (hi j hj).lookEnd ht hmap hstate ?_ hf
        rintro rfl
        by_cases hlt : t < n
        · exact (hi j hj).io t hlt ht
        · exact hfailed (Nat.not_lt.mp hlt) rfl hmap
    · simp only [Function.update_of_ne hji]
      have hmove : LifeOf n (s.threads.set t (.calling id state)) s.tcpClientConnMap j
          (s.conn j) := by
        refine (hi j hj).move ht (by simp) (by simp) ⟨by simp, by simp, ?_⟩ (by simp)
        intro r hr
        cases hr
        exact hji rfl
      refine hmove.map_congr ?_
      split
      · rfl
      · exact List.count_erase_of_ne hji
  · have hended : Ended (foundStates (s.conn id).log) := by
      refine (hi id hid).gone ?_
      rw [List.count_eq_zero.mpr hadded, List.count_eq_zero.mpr hmap]
    have hresult : s.noteResult (decide (t < n)) id state = s := by
      refine if_neg fun h => ?_
      rcases hended with hs | hs | hs
      · exact absurd (h.2 .CONN_FAILED (by simp [hs])) (by simp)
      · exact absurd (h.2 .DIS_CONNECT (by simp [hs])) (by simp)
      · exact absurd (h.2 .DIS_CONNECT (by simp [hs])) (by simp)
    unfold TcpState.tcpServerConnect
    simp only [hresult, if_neg hmap]
    exact hi.setPhase ht (by simp) (by simp) (by simp [Phase.Passive]) (by simp)

/-- `handleRead` has an order. -/
theorem handleRead (hi : Life n s) {node : OrderNode} (ht : s.threads[t]? = some .idle)
    (result : ConnectResult) (second : UInt64)
    (hfirst : (s.conn node.cli).cli.sockfd_ = 0 →
      .connectServer true ∉ (s.conn node.cli).log) :
    Life n (s.handleRead t node result second) := by
  unfold TcpState.handleRead
  simp only
  split
  · rename_i hsock
    by_cases hfail : (s.conn node.cli).cli.BadParameter ∨ result.ok = false
    · obtain ⟨hneg, -, hconn⟩ :=
        (s.conn node.cli).cli.connectServer_fails result second hfail
      rw [if_pos hneg]
      have hq : Quiet s ((s.setCli node.cli
          ((s.conn node.cli).cli.connectServer result second).1).note node.cli (.connectServer
            (decide (0 ≤ ((s.conn node.cli).cli.connectServer result second).2)))) :=
        .setCli_note s node.cli (TcpClient.connectServer_state_ _ _ _) (le_of_eq (by rw [hconn])) rfl
      refine (hi.quiet hq).setPhase ht (by simp) (by simp) (Phase.passive_ending _ (by simp)) ?_
      rintro j hj - ⟨⟩
      have hunused := (hi node.cli hj).unused (hfirst hsock)
      rw [(hq.conn _).found, ← List.count_eq_zero]
      omega
    · obtain ⟨hnonneg, -, hconn⟩ :=
        (s.conn node.cli).cli.connectServer_ok result second hfail
      rw [if_neg (Int.not_lt.mpr hnonneg), decide_eq_true hnonneg, setCli_note]
      intro j hj
      by_cases hjn : j = node.cli
      · subst hjn
        simp only [Function.update_self]
        exact (hi _ hj).connectServer (hfirst hsock) rfl (by simp) (by rw [hconn]; rfl)
      · simp only [Function.update_of_ne hjn]
        exact hi j hj
  · split
    · exact hi.quiet (.setCli_note s node.cli rfl (TcpClient.disConnect_connecting _) rfl)
    · split
      · exact hi.quiet (.note s node.cli rfl)
      · exact hi

theorem next (hi : Life n s) (hk : Known n s) {a : TcpAct} (hc : Orderly n s a)
    (h : Move n s a s') : Life n s' := by
  cases h with
  | walk ht hw hs =>
    obtain ⟨hadd, hcall, hp', hio⟩ := walks_passive hk ht hw
    have hmoved := hi.setPhase ht hadd hcall hp' fun id _ hlt heq => absurd heq (hio hlt id)
    exact hmoved.quiet (.of_conn hs.conn hs.size hs.map hs.threads)
  | expired ht hw hout =>
    obtain ⟨hadd, hcall, hp', hio⟩ := walks_passive hk ht hw
    exact (hi.quiet (.note s _ rfl)).setPhase ht hadd hcall hp' fun id _ hlt heq =>
      absurd heq (hio hlt id)
  | addConnect hn ht => exact hi.addConnect hk ht _ _ _ _
  | insert ht => exact hi.insert ht
  | @store t id second recv ht =>
    have hq : Quiet s (s.setCli id ((s.conn id).cli.recvAt second)) := .setCli s id rfl le_rfl
    refine (hi.quiet hq).setPhase ht (by simp) (by simp) ?_ ?_
    · cases recv <;> simp [Recv.phase, Phase.Passive]
    · cases recv <;> simp [Recv.phase]
  | @accept t id msg ht =>
    have hq : Quiet s ((s.libeventIoOrder ⟨id, msg, .send⟩).note id (.accepted msg)) :=
      (Quiet.order s _).trans (Quiet.note (s.libeventIoOrder _) id rfl)
    exact (hi.quiet hq).setPhase ht (by simp) (by simp) (by simp [Phase.Passive]) (by simp)
  | @request t id ht =>
    have hq : Quiet s ((s.libeventIoOrder ⟨id, [], .disconnect⟩).note id .request) :=
      (Quiet.order s _).trans (Quiet.note (s.libeventIoOrder _) id rfl)
    exact (hi.quiet hq).setPhase ht (by simp) (by simp) (by simp [Phase.Passive]) (by simp)
  | look ht =>
    obtain ⟨hadded, hfailed⟩ := hc _ ht
    exact hi.look hk ht hadded hfailed
  | call ht => exact hi.call ht (hc _ ht)
  | @late t id second ht hout =>
    exact (hi.quiet (.note s id rfl)).closed ht (by simp) (by simp) id (by simp) (by simp)
  | @take i node rest result second hlt ht hq =>
    have htaken : Life n { s with
        orderDeque_ := Function.update s.orderDeque_ i rest
        now := second } := hi.quiet (.of_conn rfl rfl rfl rfl)
    exact htaken.handleRead ht result second (hc node (by simp [hq]))
  | @timeout i id timer hlt ht hio htimer hstate =>
    have hq : Quiet s (s.setCli id ((s.conn id).cli.fired timer)) := .setCli s id rfl le_rfl
    refine (hi.quiet hq).closed ht (by simp) (by simp) id (by simp) ?_
    intro _ _ hid
    have hfailed := (hi id hid).failed hstate
    rw [(hq.conn id).found, ← List.count_eq_zero]
    omega
  | fired htimer => exact hi.quiet (.setCli s _ rfl le_rfl)
  | drained ht => exact hi.closed ht (by simp) (by simp) _ (by simp) (by simp)
  | @event i id bev hlt ht hio hbev =>
    refine hi.closed ht (by simp) (by simp) id (s.reports_ne id) ?_
    intro hreports _ hid
    have hfailed := (hi id hid).failed ((s.reports_failed id).mp hreports)
    rw [← List.count_eq_zero]
    omega
  | connected hlt ht hio hbev hconn => exact hi.connected hlt ht hconn

theorem init (n callers : Nat) : Life n (tcpSystem n callers).init :=
  fun id hid => absurd hid (Nat.not_lt_zero id)

/-- The states found are reported in order, all of them unless a thread is about to. -/
theorem lifeCycle (hi : Life n s) : LifeCycle s where
  states := by
    intro id hid
    have horder := (hi id hid).order
    rcases (hi id hid).shape with h | h | h | h | h
    · rw [h] at horder
      exact .inl (horder.trans List.nil_prefix)
    · rw [h] at horder
      exact .inr (.inl (horder.trans (List.prefix_append [TcpClientState.CONN_SUCCESS] _)))
    · exact .inl (h ▸ horder)
    · exact .inr (.inr (h ▸ horder))
    · exact .inr (.inl (h ▸ horder))
  removed := by
    intro id hid state hstate hne hmap
    have hfound := (hi id hid).order.subset hstate
    rcases (hi id hid).wanted hmap with h | h
    · rw [h] at hfound
      cases hfound
    · rw [h] at hfound
      exact hne (List.mem_singleton.mp hfound)
  told := by
    intro id hid state hresult
    have hfound := List.count_pos_iff.mpr ((hi id hid).results state hresult)
    have hcounts := (hi id hid).counts state
    by_cases hcall : .calling id state ∈ s.threads
    · exact .inr hcall
    · rw [List.count_eq_zero.mpr hcall] at hcounts
      exact .inl (List.count_pos_iff.mp (by omega))

end Life

end

/-- In every run of orderly steps, the user sees every connection begin and end in order. -/
theorem reported_in_order (n callers : Nat) (s : TcpState)
    (h : ((tcpSystem n callers).only (Orderly n)).Reach s) : LifeCycle s := by
  have hi : Known n s ∧ Life n s := by
    refine Sys.Reach.inv_only (I := fun s => Known n s ∧ Life n s) ?_ ?_ h
    · exact ⟨Known.init n callers, Life.init n callers⟩
    · rintro s a s' ⟨hk, hi⟩ hc hs
      have hmove : Move n s a s' := move_of_next hs
      exact ⟨hk.next hmove, hi.next hk hc hmove⟩
  exact hi.2.lifeCycle

/-- A connection is made, used and closed by its caller; another one fails. -/
def orderlyRun : List TcpAct :=
  [.libeventAddConnect 2 [49] 80 30 100, .go 2, .libeventAddConnect 2 [50] 80 30 100, .go 2,
    .handleRead 0 (.connecting 7) 100, .TcpClientOnEvent 0 0 0 true, .go 0, .go 0,
    .handleRead 0 .noSocket 100, .go 0, .go 0,
    .libeventTcpCliDisconnect 2 0, .go 2, .go 2, .go 2, .go 2, .go 2]

theorem reported_in_order_orderlyRun : ∃ s, ((tcpSystem 1 1).only (Orderly 1)).run
      ((tcpSystem 1 1).only (Orderly 1)).init orderlyRun = some s ∧
    reportedStates (s.conn 0).log = [.CONN_SUCCESS, .DIS_CONNECT] ∧
    reportedStates (s.conn 1).log = [.CONN_FAILED] ∧ s.tcpClientConnMap = [] ∧ LifeCycle s :=
  ⟨_, rfl, rfl, rfl, rfl, reported_in_order 1 1 _ (Sys.Reach.init.run orderlyRun rfl)⟩

/-- The IO thread has the order before the connection is in the map. Against the `dataOutSecond` of -1,
as an unsigned number, the connection never expires. -/
def lostRun : List TcpAct :=
  [.libeventAddConnect 2 [49] 80 (-1) 100, .handleRead 0 .noSocket 100, .go 0, .go 2]

/-- The caller ends the connection while the IO thread is about to report the success. -/
def swappedRun : List TcpAct :=
  [.libeventAddConnect 2 [49] 80 30 100, .go 2, .handleRead 0 (.connecting 7) 100,
    .TcpClientOnEvent 0 0 0 true, .go 0,
    .libeventTcpCliDisconnect 2 0, .go 2, .go 2, .go 2, .go 2, .go 2, .go 0]

/-- A connection has failed, nobody is told, and it stays in the map; or the success is reported
behind the end. -/
theorem result_lost :
    (∃ s, (tcpSystem 1 1).Reach s ∧ 0 < s.size ∧
      (s.conn 0).log = [.connectServer false, .result .CONN_FAILED] ∧
      s.threads = [.idle, .idle, .idle] ∧ s.tcpClientConnMap = [0] ∧ ¬ LifeCycle s) ∧
    ∃ s, (tcpSystem 1 1).Reach s ∧ 0 < s.size ∧
      reportedStates (s.conn 0).log = [.DIS_CONNECT, .CONN_SUCCESS] ∧ ¬ LifeCycle s := by
  constructor
  · obtain ⟨s, hrun, hsize, hlog, hthreads, hmap⟩ : ∃ s,
        (tcpSystem 1 1).run (tcpSystem 1 1).init lostRun = some s ∧ s.size = 1 ∧
        (s.conn 0).log = [.connectServer false, .result .CONN_FAILED] ∧
        s.threads = [.idle, .idle, .idle] ∧ s.tcpClientConnMap = [0] :=
      ⟨_, rfl, rfl, rfl, rfl, rfl⟩
    refine ⟨s, Sys.Reach.init.run _ hrun, by omega, hlog, hthreads, hmap, ?_⟩
    intro hl
    have htold := hl.told 0 (by omega) .CONN_FAILED (by simp [hlog])
    rw [hlog, hthreads] at htold
    revert htold
    decide
  · obtain ⟨s, hrun, hsize, hreported⟩ : ∃ s,
        (tcpSystem 1 1).run (tcpSystem 1 1).init swappedRun = some s ∧ s.size = 1 ∧
        reportedStates (s.conn 0).log = [.DIS_CONNECT, .CONN_SUCCESS] :=
      ⟨_, rfl, rfl, rfl⟩
    refine ⟨s, Sys.Reach.init.run _ hrun, by omega, hreported, ?_⟩
    intro hl
    have hstates := hl.states 0 (by omega)
    rw [hreported] at hstates
    revert hstates
    decide

end LibeventTcpCli
end CmakeFrame
