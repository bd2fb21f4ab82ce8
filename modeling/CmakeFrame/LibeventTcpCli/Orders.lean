import CmakeFrame.LibeventTcpCli.Moves

/-!
# `libeventcpcli`: what the orders of a connection mean

One queue has the orders to connect, to send and to disconnect. `handleRead` takes an order as one to
connect when `sockfd_` is 0, else as one to disconnect when it has no text.

* `Meant`: a connection is connected once, gets the bytes of the messages that were accepted, is
  disconnected only if somebody asks for it or something happens to it, and not connected again.
* `Clear`: the condition on a step: the two tests say what the order is, and nothing ends a
  connection while messages wait for it.
* `Sound`: the invariant of one connection and its orders, with one lemma for each thing that can
  happen to them; `orders_meant`: in every run of such steps; `order_misread`: in another.
-/

namespace CmakeFrame
namespace LibeventTcpCli

open Lib

/-! ## The history -/

def Ev.connects : Ev → Bool
  | .connectServer _ => true
  | _ => false

/-- There is no bufferevent after it. -/
def Ev.closes : Ev → Bool
  | .disConnect _ | .connectServer false => true
  | _ => false

/-- The connection ends, or somebody asks for it. -/
def Ev.ends : Ev → Bool
  | .request | .disConnect _ | .connectServer false => true
  | _ => false

/-- `connCb` reports that the connection has ended. -/
def Ev.terminal : Ev → Bool
  | .connCb .CONN_FAILED | .connCb .DIS_CONNECT => true
  | _ => false

/-- The messages that were accepted before the connection ended. -/
def acceptedMsgs (log : List Ev) : List Bytes :=
  (log.takeWhile fun e => !e.ends).filterMap fun
    | .accepted msg => some msg
    | _ => none

def writtenMsgs (log : List Ev) : List Bytes :=
  log.filterMap fun
    | .write msg => some msg
    | _ => none

/-- The messages before an order to disconnect. -/
def waiting (orders : List OrderNode) : List Bytes :=
  (orders.takeWhile fun node => node.origin ≠ .disconnect).filterMap fun node =>
    if node.origin = .send then some node.wriMsg else none

/-- The orders that are queued for a connection. -/
def TcpState.ordersOf (s : TcpState) (id : Nat) : List OrderNode :=
  (s.orderDeque_ (s.conn id).cli.ioIndex_).filter fun node => node.cli = id

/-- What has happened to a connection is what its callers have asked for. -/
structure Meant (log : List Ev) (orders : List OrderNode) : Prop where
  once : log.countP Ev.connects ≤ 1 ∧ (orders = [] → log.countP Ev.connects = 1)
  bytes : (writtenMsgs log).flatten <+: (acceptedMsgs log).flatten ∧
    (orders = [] → (writtenMsgs log).flatten = (acceptedMsgs log).flatten)
  asked : ∀ o, .disConnect (some o) ∈ log → o = .disconnect
  last : log.Pairwise fun e e' => e.terminal = true → e'.connects = false

/-- An order is taken as what it is. While `sockfd_` is 0 it is the first one of a connection that is
not reported as ended, and if `connectServer` fails, no accepted message waits behind it; later an
order without text is not a message. -/
def TakenAs (s : TcpState) (node : OrderNode) (result : ConnectResult) : Prop :=
  let c := s.conn node.cli
  if c.cli.sockfd_ = 0 then
    c.log.countP Ev.connects = 0 ∧ c.log.countP Ev.terminal = 0 ∧
      (c.cli.BadParameter ∨ result.ok = false → waiting (s.ordersOf node.cli) = [])
  else node.wriMsg = [] → node.origin ≠ .send

instance (s : TcpState) (node : OrderNode) (result : ConnectResult) :
    Decidable (TakenAs s node result) := by
  unfold TakenAs
  infer_instance

/-- A connection that is found out of time when a message arrives has no accepted message waiting. -/
def Phase.Clear (s : TcpState) : Phase → Prop
  | .sampled id second .message =>
    (s.conn id).cli.outOfTime second = true → waiting (s.ordersOf id) = []
  | _ => True

instance (s : TcpState) (p : Phase) : Decidable (p.Clear s) := by
  unfold Phase.Clear
  split <;> infer_instance

/-- The condition on a step: an order is taken as what it is, and no accepted message waits when
something ends a connection. -/
def Clear (s : TcpState) : TcpAct → Prop
  | .handleRead i result _ => ∀ node ∈ (s.orderDeque_ i).head?, TakenAs s node result
  | .connectTimeout _ id _ =>
    (s.conn id).cli.state_ = .CONN_FAILED → waiting (s.ordersOf id) = []
  | .TcpClientOnEvent _ id _ connected => connected = false → waiting (s.ordersOf id) = []
  | .drain i ok =>
    ok = false → ∀ p ∈ s.threads[i]?, ∀ id ∈ p.client?, waiting (s.ordersOf id) = []
  | .go t => ∀ p ∈ s.threads[t]?, p.Clear s
  | _ => True

instance (s : TcpState) (a : TcpAct) : Decidable (Clear s a) :=
  match a with
  | .handleRead .. | .connectTimeout .. | .TcpClientOnEvent .. | .drain .. | .go .. => by
    unfold Clear
    infer_instance
  | .libeventAddConnect .. | .libeventTcpCliSendMsg .. | .libeventTcpCliDisconnect ..
  | .libeventIoExpireThread .. | .isKeepAlive .. | .secondSinceEpoch .. | .TcpClientOnMessage .. =>
    .isTrue trivial

/-! ## One more event, one more order -/

section

variable {log : List Ev} {orders rest : List OrderNode} {e : Ev}

theorem acceptedMsgs_append (log : List Ev) (e : Ev) : acceptedMsgs (log ++ [e])
    = acceptedMsgs log ++ if log.any Ev.ends then [] else acceptedMsgs [e] := by
  induction log with
  | nil => simp [acceptedMsgs]
  | cons e' log ih =>
    cases he : e'.ends with
    | true => simp [acceptedMsgs, he]
    | false =>
      have hcons (l : List Ev) : acceptedMsgs (e' :: l) = acceptedMsgs [e'] ++ acceptedMsgs l := by
        simp [acceptedMsgs, he, ← List.filterMap_append]
      rw [List.cons_append, hcons, ih, hcons log, List.any_cons, he, Bool.false_or,
        List.append_assoc]

theorem writtenMsgs_append (log : List Ev) (e : Ev) :
    writtenMsgs (log ++ [e]) = writtenMsgs log ++ writtenMsgs [e] :=
  List.filterMap_append

theorem waiting_append (orders : List OrderNode) (node : OrderNode) : waiting (orders ++ [node])
    = waiting orders ++ if orders.any (·.origin = .disconnect) then [] else waiting [node] := by
  induction orders with
  | nil => simp [waiting]
  | cons o orders ih =>
    by_cases ho : o.origin = .disconnect
    · simp [waiting, ho]
    · have hcons (l : List OrderNode) : waiting (o :: l) = waiting [o] ++ waiting l := by
        simp [waiting, ho, ← List.filterMap_append]
      rw [List.cons_append, hcons, ih, hcons orders, List.any_cons, decide_eq_false ho,
        Bool.false_or, List.append_assoc]

/-- Who ends a connection closes it, or asks for that. -/
theorem any_ends (log : List Ev) :
    log.any Ev.ends = (log.any Ev.closes || log.any (· = .request)) := by
  induction log with
  | nil => rfl
  | cons e log ih =>
    have he : e.ends = (e.closes || decide (e = .request)) := by
      cases e with
      | connectServer ok => cases ok <;> rfl
      | _ => rfl
    rw [List.any_cons, List.any_cons, List.any_cons, ih, he]
    grind

theorem countP_connects_append (log : List Ev) (he : e.connects = false) :
    (log ++ [e]).countP Ev.connects = log.countP Ev.connects := by
  simp [he]

theorem any_closes_append (log : List Ev) (he : e.closes = false) :
    (log ++ [e]).any Ev.closes = log.any Ev.closes := by
  simp [he]

/-! ## One connection and its orders -/

/-- `connectServer` has not been called. -/
def TcpClient.Unused (c : TcpClient) : Prop := c.sockfd_ = 0 ∧ c.bevs = [] ∧ c.timers = []

/-- The order to connect comes first, once; `bev_` says whether the connection is open; what was
accepted is written or waits. -/
structure Sound (id : Nat) (c : TcpClient) (log : List Ev) (orders : List OrderNode) : Prop where
  first : (log.countP Ev.connects = 0 ∧ c.Unused ∧ log.any Ev.closes = false ∧
      ∃ rest, orders = ⟨id, [], .connect⟩ :: rest ∧ ∀ o ∈ rest, o.origin ≠ .connect) ∨
    (log.countP Ev.connects = 1 ∧ ∀ o ∈ orders, o.origin ≠ .connect)
  asked : ∀ o, .disConnect (some o) ∈ log → o = .disconnect
  last : log.Pairwise fun e e' => e.terminal = true → e'.connects = false
  up : log.any Ev.closes = false → log.countP Ev.connects = 1 → c.bev_ ≠ none
  down : log.any Ev.closes = true → c.bev_ = none ∨ c.sockfd_ = 0
  requests : log.any Ev.closes = false →
    log.any (· = .request) = orders.any (·.origin = .disconnect)
  texts : ∀ o ∈ orders, o.origin = .disconnect → o.wriMsg = []
  bytes : writtenMsgs log ++ (if log.any Ev.closes then [] else waiting orders) = acceptedMsgs log

/-- What is neither an order nor the doing of one. -/
def Ev.quiet : Ev → Bool
  | .connCb _ | .found _ | .result _ | .expired _ _ => true
  | _ => false

namespace Sound

variable {id : Nat} {c c' : TcpClient} {node : OrderNode}

theorem meant (hi : Sound id c log orders) : Meant log orders where
  once := by
    rcases hi.first with ⟨h0, -, -, rest, rfl, -⟩ | ⟨h1, -⟩
    · exact ⟨by omega, nofun⟩
    · exact ⟨by omega, fun _ => h1⟩
  bytes := by
    rw [← hi.bytes, List.flatten_append]
    refine ⟨List.prefix_append _ _, ?_⟩
    rintro rfl
    simp [waiting]
  asked := hi.asked
  last := hi.last

/-- Only `sockfd_` and `bev_` matter, and whether the client is unused. -/
theorem congr (hi : Sound id c log orders) (hsock : c'.sockfd_ = c.sockfd_)
    (hbev : c'.bev_ = c.bev_) (hunused : c.Unused → c'.Unused) : Sound id c' log orders :=
  { hi with
    first := hi.first.imp_left fun ⟨h0, hu, hrest⟩ => ⟨h0, hunused hu, hrest⟩
    up := by
      rw [hbev]
      exact hi.up
    down := by
      rw [hsock, hbev]
      exact hi.down }

/-- An event that is none of `connectServer`. -/
theorem last_append (hi : Sound id c log orders) (he : e.connects = false) :
    (log ++ [e]).Pairwise fun e e' => e.terminal = true → e'.connects = false := by
  refine List.pairwise_append.mpr ⟨hi.last, List.pairwise_singleton _ _, ?_⟩
  intro e₁ _ e₂ he₂ _
  rw [List.mem_singleton.mp he₂]
  exact he

theorem asked_append (hi : Sound id c log orders) (he : ∀ o, e ≠ .disConnect (some o)) :
    ∀ o, .disConnect (some o) ∈ log ++ [e] → o = .disconnect := by
  intro o ho
  rcases List.mem_append.mp ho with ho | ho
  · exact hi.asked o ho
  · exact absurd (List.mem_singleton.mp ho).symm (he o)

/-- A later order is queued behind the one to connect. -/
theorem first_append (hi : Sound id c log orders) (ho : node.origin ≠ .connect) :
    (log.countP Ev.connects = 0 ∧ c.Unused ∧ log.any Ev.closes = false ∧ ∃ rest,
      orders ++ [node] = ⟨id, [], .connect⟩ :: rest ∧ ∀ o ∈ rest, o.origin ≠ .connect) ∨
    (log.countP Ev.connects = 1 ∧ ∀ o ∈ orders ++ [node], o.origin ≠ .connect) := by
  have happend (l : List OrderNode) (hl : ∀ o ∈ l, o.origin ≠ .connect) :
      ∀ o ∈ l ++ [node], o.origin ≠ .connect := by
    intro o hmem
    rcases List.mem_append.mp hmem with hmem | hmem
    · exact hl o hmem
    · rw [List.mem_singleton.mp hmem]
      exact ho
  refine hi.first.imp ?_ ?_
  · rintro ⟨h0, hunused, hopen, rest, rfl, hrest⟩
    exact ⟨h0, hunused, hopen, rest ++ [node], rfl, happend rest hrest⟩
  · rintro ⟨h1, horders⟩
    exact ⟨h1, happend orders horders⟩

/-- An order to disconnect has no text. -/
theorem texts_append (hi : Sound id c log orders) (ho : node.origin = .disconnect → node.wriMsg = []) :
    ∀ o ∈ orders ++ [node], o.origin = .disconnect → o.wriMsg = [] := by
  intro o hmem
  rcases List.mem_append.mp hmem with hmem | hmem
  · exact hi.texts o hmem
  · rw [List.mem_singleton.mp hmem]
    exact ho

theorem note (hi : Sound id c log orders) (he : e.quiet = true) :
    Sound id c (log ++ [e]) orders := by
  have hconnects : e.connects = false := by cases e <;> first | rfl | cases he
  have hcloses : e.closes = false := by cases e <;> first | rfl | cases he
  have hrequest : e ≠ .request := by
    rintro rfl
    cases he
  have hwritten : writtenMsgs [e] = [] := by cases e <;> first | rfl | cases he
  have haccepted : acceptedMsgs [e] = [] := by cases e <;> first | rfl | cases he
  have hask : ∀ o, e ≠ .disConnect (some o) := by
    rintro o rfl
    cases he
  have hcount := countP_connects_append log hconnects
  have hany := any_closes_append log hcloses
  refine ⟨?_, hi.asked_append hask, hi.last_append hconnects, ?_, ?_, ?_, hi.texts, ?_⟩
  · rw [hcount, hany]
    exact hi.first
  · rw [hany, hcount]
    exact hi.up
  · rw [hany]
    exact hi.down
  · intro h
    rw [hany] at h
    simp only [List.any_append, List.any_cons, List.any_nil, decide_eq_false hrequest,
      Bool.or_false, hi.requests h]
  · rw [hany, writtenMsgs_append, hwritten, acceptedMsgs_append, haccepted, List.append_nil, ite_self,
      List.append_nil]
    exact hi.bytes

/-- `libeventTcpCliSendMsg` -/
theorem accept (hi : Sound id c log orders) (msg : Bytes) :
    Sound id c (log ++ [.accepted msg]) (orders ++ [⟨id, msg, .send⟩]) := by
  have hcount : (log ++ [Ev.accepted msg]).countP Ev.connects = log.countP Ev.connects :=
    countP_connects_append log rfl
  have hany : (log ++ [Ev.accepted msg]).any Ev.closes = log.any Ev.closes :=
    any_closes_append log rfl
  refine ⟨?_, hi.asked_append (by simp), hi.last_append rfl, ?_, ?_, ?_,
    hi.texts_append (by simp), ?_⟩
  · rw [hcount, hany]
    exact hi.first_append (by simp)
  · rw [hany, hcount]
    exact hi.up
  · rw [hany]
    exact hi.down
  · intro h
    rw [hany] at h
    simp [hi.requests h]
  · rw [hany, writtenMsgs_append, acceptedMsgs_append, waiting_append, ← hi.bytes, any_ends]
    cases hc : log.any Ev.closes with
    | true => simp [writtenMsgs]
    | false =>
      rw [hi.requests hc]
      simp [writtenMsgs, acceptedMsgs, waiting, Ev.ends]

/-- `libeventTcpCliDisconnect` -/
theorem request (hi : Sound id c log orders) :
    Sound id c (log ++ [.request]) (orders ++ [⟨id, [], .disconnect⟩]) := by
  have hcount : (log ++ [Ev.request]).countP Ev.connects = log.countP Ev.connects :=
    countP_connects_append log rfl
  have hany : (log ++ [Ev.request]).any Ev.closes = log.any Ev.closes :=
    any_closes_append log rfl
  have hwaiting : waiting (orders ++ [⟨id, [], .disconnect⟩]) = waiting orders := by
    rw [waiting_append]
    simp [waiting]
  refine ⟨?_, hi.asked_append (by simp), hi.last_append rfl, ?_, ?_, ?_,
    hi.texts_append fun _ => rfl, ?_⟩
  · rw [hcount, hany]
    exact hi.first_append (by simp)
  · rw [hany, hcount]
    exact hi.up
  · rw [hany]
    exact hi.down
  · intro _
    simp
  · rw [hany, writtenMsgs_append, acceptedMsgs_append, hwaiting, ← hi.bytes]
    simp [writtenMsgs, acceptedMsgs, Ev.ends]

/-- A connection that ends while no accepted message waits. -/
theorem close (hi : Sound id c log orders) {o : Option Origin} (ho : ∀ o' ∈ o, o' = .disconnect)
    (h0 : log.countP Ev.connects ≠ 0) (hwaiting : waiting orders = []) :
    Sound id c.disConnect (log ++ [.disConnect o]) orders := by
  have hcount : (log ++ [Ev.disConnect o]).countP Ev.connects = log.countP Ev.connects :=
    countP_connects_append log rfl
  have hany : (log ++ [Ev.disConnect o]).any Ev.closes = true := by
    simp [Ev.closes]
  refine ⟨?_, ?_, hi.last_append rfl, ?_, fun _ => .inl rfl, ?_, hi.texts, ?_⟩
  · rw [hcount]
    exact .inr (hi.first.resolve_left fun h => h0 h.1)
  · intro o' ho'
    rcases List.mem_append.mp ho' with ho' | ho'
    · exact hi.asked o' ho'
    · cases List.mem_singleton.mp ho'
      exact ho o' rfl
  · rw [hany]
    exact nofun
  · rw [hany]
    exact nofun
  · rw [hany, writtenMsgs_append, acceptedMsgs_append, ← hi.bytes, hwaiting, ite_self]
    simp [writtenMsgs, acceptedMsgs, Ev.ends]

/-- An order that is not accepted is taken. -/
theorem tail (hi : Sound id c log (node :: rest)) (h1 : log.countP Ev.connects = 1)
    (hwaiting : log.any Ev.closes = false → waiting (node :: rest) = waiting rest)
    (horigin : log.any Ev.closes = false → node.origin ≠ .disconnect) : Sound id c log rest where
  first := by
    rcases hi.first with ⟨h0, -⟩ | ⟨-, horders⟩
    · omega
    · exact .inr ⟨h1, fun o ho => horders o (List.mem_cons_of_mem _ ho)⟩
  asked := hi.asked
  last := hi.last
  up := hi.up
  down := hi.down
  requests := by
    intro h
    rw [hi.requests h, List.any_cons, decide_eq_false (horigin h), Bool.false_or]
  texts := fun o ho => hi.texts o (List.mem_cons_of_mem _ ho)
  bytes := by
    rw [← hi.bytes]
    cases hc : log.any Ev.closes with
    | true => rfl
    | false => simp [hwaiting hc]

/-- With `sockfd_` the order to connect is taken already. -/
theorem connected (hi : Sound id c log (node :: rest)) (hsock : c.sockfd_ ≠ 0) :
    log.countP Ev.connects = 1 ∧ node.origin ≠ .connect := by
  rcases hi.first with ⟨-, hunused, -⟩ | ⟨h1, horders⟩
  · exact absurd hunused.1 hsock
  · exact ⟨h1, horders node List.mem_cons_self⟩

theorem takeDisconnect (hi : Sound id c log (node :: rest)) (hsock : c.sockfd_ ≠ 0)
    (horigin : node.origin ≠ .send) :
    Sound id c.disConnect (log ++ [.disConnect (some node.origin)]) rest := by
  obtain ⟨h1, hconnect⟩ := hi.connected hsock
  have hdisconnect : node.origin = .disconnect := by
    cases h : node.origin with
    | connect => exact absurd h hconnect
    | send => exact absurd h horigin
    | disconnect => rfl
  have hclosed := hi.close (o := some node.origin) (by simp [hdisconnect])
    (by omega) (by simp [waiting, hdisconnect])
  have hcount : (log ++ [Ev.disConnect (some node.origin)]).countP Ev.connects = 1 :=
    (countP_connects_append log rfl).trans h1
  exact hclosed.tail hcount (fun h => by simp [Ev.closes] at h) fun h => by simp [Ev.closes] at h

/-- A message for an open connection is the first one that waits. -/
theorem takeSend (hi : Sound id c log (node :: rest)) (hsock : c.sockfd_ ≠ 0)
    (hmsg : node.wriMsg ≠ []) :
    Sound id c (if c.bev_.isSome then log ++ [.write node.wriMsg] else log) rest := by
  obtain ⟨h1, hconnect⟩ := hi.connected hsock
  have hsend : node.origin = .send := by
    cases h : node.origin with
    | connect => exact absurd h hconnect
    | send => rfl
    | disconnect => exact absurd (hi.texts node List.mem_cons_self h) hmsg
  cases hbev : c.bev_ with
  | none =>
    have hclosed : log.any Ev.closes ≠ false := fun hc => hi.up hc h1 hbev
    exact hi.tail h1 (fun h => absurd h hclosed) fun h => absurd h hclosed
  | some k =>
    have hopen : log.any Ev.closes = false := by
      by_contra hc
      rcases hi.down (Bool.not_eq_false _ ▸ hc) with h | h
      · rw [hbev] at h
        cases h
      · exact hsock h
    have hwaiting : waiting (node :: rest) = node.wriMsg :: waiting rest := by
      simp [waiting, hsend]
    have hcount : (log ++ [Ev.write node.wriMsg]).countP Ev.connects = log.countP Ev.connects :=
      countP_connects_append log rfl
    have hany : (log ++ [Ev.write node.wriMsg]).any Ev.closes = log.any Ev.closes :=
      any_closes_append log rfl
    have horders : ∀ o ∈ rest, o.origin ≠ .connect := by
      rcases hi.first with ⟨h0, -⟩ | ⟨-, h⟩
      · omega
      · exact fun o ho => h o (List.mem_cons_of_mem _ ho)
    rw [Option.isSome_some, if_pos rfl]
    refine ⟨.inr ⟨hcount.trans h1, horders⟩, hi.asked_append (by simp), hi.last_append rfl, ?_, ?_, ?_,
      fun o ho => hi.texts o (List.mem_cons_of_mem _ ho), ?_⟩
    · rw [hany, hcount]
      exact hi.up
    · rw [hany]
      exact hi.down
    · intro h
      rw [hany] at h
      have hreq := hi.requests h
      simp only [List.any_cons, hsend, reduceCtorEq, decide_false, Bool.false_or] at hreq
      simp [← hreq]
    · have hbytes := hi.bytes
      rw [hopen, hwaiting] at hbytes
      rw [hany, hopen, writtenMsgs_append, acceptedMsgs_append, ← hbytes]
      simp [writtenMsgs, acceptedMsgs, Ev.ends]

/-- While `sockfd_` is 0 and `connectServer` has not been called, the order is the one to connect. -/
theorem takeConnect (hi : Sound id c log (node :: rest)) (h0 : log.countP Ev.connects = 0)
    (hterminal : log.countP Ev.terminal = 0) (result : ConnectResult) (second : UInt64)
    (hwaiting : c.BadParameter ∨ result.ok = false → waiting (node :: rest) = []) :
    Sound id (c.connectServer result second).1
      (log ++ [.connectServer (decide (0 ≤ (c.connectServer result second).2))]) rest := by
  obtain ⟨hunused, hopen, hnode, hrest⟩ : c.Unused ∧ log.any Ev.closes = false ∧
      node = ⟨id, [], .connect⟩ ∧ ∀ o ∈ rest, o.origin ≠ .connect := by
    rcases hi.first with ⟨-, hunused, hopen, rest', heq, hrest⟩ | ⟨h1, -⟩
    · obtain ⟨rfl, rfl⟩ := List.cons.inj heq
      exact ⟨hunused, hopen, rfl, hrest⟩
    · omega
  subst hnode
  have hbytes := hi.bytes
  have hrequests := hi.requests hopen
  have hwait : waiting (⟨id, [], .connect⟩ :: rest) = waiting rest := by
    simp [waiting]
  rw [hwait] at hwaiting hbytes
  rw [hopen] at hbytes
  have hcount (ok : Bool) : (log ++ [Ev.connectServer ok]).countP Ev.connects = 1 := by
    simp [h0, Ev.connects]
  have hlast (ok : Bool) : (log ++ [Ev.connectServer ok]).Pairwise
      fun e e' => e.terminal = true → e'.connects = false := by
    refine List.pairwise_append.mpr ⟨hi.last, List.pairwise_singleton _ _, ?_⟩
    intro e he _ _ hterm
    exact absurd hterm (List.countP_eq_zero.mp hterminal e he)
  have htexts : ∀ o ∈ rest, o.origin = .disconnect → o.wriMsg = [] :=
    fun o ho => hi.texts o (List.mem_cons_of_mem _ ho)
  have hsame (ok : Bool) : writtenMsgs (log ++ [Ev.connectServer ok]) = writtenMsgs log ∧
      acceptedMsgs (log ++ [Ev.connectServer ok]) = acceptedMsgs log := by
    rw [writtenMsgs_append, acceptedMsgs_append]
    cases ok <;> simp [writtenMsgs, acceptedMsgs, Ev.ends]
  by_cases hfails : c.BadParameter ∨ result.ok = false
  · obtain ⟨hneg, hsock, -⟩ := c.connectServer_fails result second hfails
    rw [decide_eq_false (Int.not_le.mpr hneg)]
    have hclosed : (log ++ [Ev.connectServer false]).any Ev.closes = true := by
      simp [Ev.closes]
    refine ⟨.inr ⟨hcount false, hrest⟩, hi.asked_append (by simp), hlast false, ?_,
      fun _ => .inr (hsock.trans hunused.1), ?_, htexts, ?_⟩
    · rw [hclosed]
      exact nofun
    · rw [hclosed]
      exact nofun
    · rw [hclosed, (hsame false).1, (hsame false).2, ← hbytes, hwaiting hfails]
      rfl
  · obtain ⟨hnonneg, hbev, -⟩ := c.connectServer_ok result second hfails
    rw [decide_eq_true hnonneg]
    have hopen' : (log ++ [Ev.connectServer true]).any Ev.closes = false := by
      rw [any_closes_append log rfl, hopen]
    refine ⟨.inr ⟨hcount true, hrest⟩, hi.asked_append (by simp), hlast true, ?_, ?_, ?_, htexts, ?_⟩
    · intro _ _
      rw [hbev]
      exact Option.some_ne_none _
    · rw [hopen']
      exact nofun
    · intro _
      simpa using hrequests
    · rw [hopen', (hsame true).1, (hsame true).2, ← hbytes]

theorem new (id ioIndex : Nat) (ipaddr : Bytes) (port : Int) (dataOutSecond : Int32)
    (second : UInt64) :
    Sound id (.new ioIndex ipaddr port dataOutSecond second) [] [⟨id, [], .connect⟩] where
  first := .inl ⟨rfl, ⟨rfl, rfl, rfl⟩, rfl, [], rfl, nofun⟩
  asked := nofun
  last := .nil
  up := nofun
  down := nofun
  requests := fun _ => rfl
  texts := by
    intro o ho
    rw [List.mem_singleton.mp ho]
    exact nofun
  bytes := rfl

end Sound

/-! ## All connections -/

variable {s s' : TcpState} {n : Nat}

/-- The client from which a thread reads a message. -/
def Phase.reads : Phase → Option Nat
  | .sampled id _ .message | .storing id _ .message | .received id => some id
  | _ => none

theorem client?_of_reads {p : Phase} {id : Nat} (h : p.reads = some id) : p.client? = some id := by
  cases p with
  | sampled id' second recv | storing id' second recv =>
    cases recv with
    | send msg => cases h
    | message => exact h
  | received id' => exact h
  | _ => cases h

structure AllSound (s : TcpState) : Prop where
  sound : ∀ id < s.size, Sound id (s.conn id).cli (s.conn id).log (s.ordersOf id)
  reads : ∀ (t : Nat) (p : Phase) (id : Nat), s.threads[t]? = some p → p.reads = some id →
    (s.conn id).log.countP Ev.connects ≠ 0

theorem countP_note (s : TcpState) (id j : Nat) {e : Ev} (he : e.connects = false) :
    ((s.note id e).conn j).log.countP Ev.connects = (s.conn j).log.countP Ev.connects := by
  by_cases hj : j = id
  · subst hj
    simp [TcpState.note, he]
  · simp [TcpState.note, Function.update_of_ne hj]

theorem ordersOf_congr {id : Nat} (hio : (s'.conn id).cli.ioIndex_ = (s.conn id).cli.ioIndex_)
    (horders : s'.orderDeque_ = s.orderDeque_) : s'.ordersOf id = s.ordersOf id := by
  rw [TcpState.ordersOf, TcpState.ordersOf, hio, horders]

/-- A queued order is one of its client only. -/
theorem ordersOf_libeventIoOrder (s : TcpState) (node : OrderNode) (id : Nat) :
    (s.libeventIoOrder node).ordersOf id
      = if node.cli = id then s.ordersOf id ++ [node] else s.ordersOf id := by
  simp only [TcpState.ordersOf, TcpState.libeventIoOrder]
  by_cases hid : node.cli = id
  · subst hid
    rw [Function.update_self, List.filter_append, if_pos rfl]
    simp
  · rw [if_neg hid]
    by_cases hio : (s.conn id).cli.ioIndex_ = (s.conn node.cli).cli.ioIndex_
    · rw [hio, Function.update_self, List.filter_append]
      simp [hid]
    · rw [Function.update_of_ne hio]

/-- And so is an order that is taken. -/
theorem ordersOf_take {i : Nat} {node : OrderNode} {rest : List OrderNode} (hk : Known n s)
    (hq : s.orderDeque_ i = node :: rest) (hs : s'.orderDeque_ = Function.update s.orderDeque_ i rest)
    {id : Nat} (hio : (s'.conn id).cli.ioIndex_ = (s.conn id).cli.ioIndex_) :
    s.ordersOf id = if node.cli = id then node :: s'.ordersOf id else s'.ordersOf id := by
  simp only [TcpState.ordersOf, hs, hio]
  by_cases hid : node.cli = id
  · subst hid
    have hnode := (hk.orders i node (hq ▸ List.mem_cons_self)).2
    rw [if_pos rfl, hnode, Function.update_self, hq, List.filter_cons_of_pos (by simp)]
  · rw [if_neg hid]
    by_cases hi : (s.conn id).cli.ioIndex_ = i
    · rw [hi, Function.update_self, hq, List.filter_cons_of_neg (by simpa using hid)]
    · rw [Function.update_of_ne hi]

namespace AllSound

theorem congr (hi : AllSound s) (h : s'.Agrees s) : AllSound s' where
  sound := by
    intro id hid
    rw [ordersOf_congr (by rw [h.conn]) h.orders, h.conn]
    exact hi.sound id (h.size ▸ hid)
  reads := by
    rw [h.threads, h.conn]
    exact hi.reads

theorem setPhase (hi : AllSound s) {t : Nat} {p : Phase}
    (hp : ∀ id, p.reads = some id → (s.conn id).log.countP Ev.connects ≠ 0) :
    AllSound (s.setPhase t p) where
  sound := hi.sound
  reads := by
    intro u q id hu hq
    rcases set_cases hu with ⟨rfl, rfl⟩ | ⟨-, hu⟩
    · exact hp id hq
    · exact hi.reads u q id hu hq

/-- A phase in which nothing is read. -/
theorem setPhase_other (hi : AllSound s) (t : Nat) {p : Phase} (hp : p.reads = none) :
    AllSound (s.setPhase t p) :=
  hi.setPhase fun id h => by
    rw [hp] at h
    cases h

theorem conn (hi : AllSound s) {id : Nat} {c : Conn}
    (hio : c.cli.ioIndex_ = (s.conn id).cli.ioIndex_)
    (hgrow : (s.conn id).log.countP Ev.connects ≤ c.log.countP Ev.connects)
    (hs : id < s.size → Sound id c.cli c.log (s.ordersOf id)) :
    AllSound { s with conn := Function.update s.conn id c } where
  sound := by
    intro j hj
    have horders : TcpState.ordersOf { s with conn := Function.update s.conn id c } j
        = s.ordersOf j := by
      refine ordersOf_congr ?_ rfl
      by_cases hid : j = id
      · rw [hid]
        simp [hio]
      · simp [Function.update_of_ne hid]
    rw [horders]
    by_cases hid : j = id
    · subst hid
      simpa using hs hj
    · simpa [Function.update_of_ne hid] using hi.sound j hj
  reads := by
    intro t p j ht hp
    have h0 := hi.reads t p j ht hp
    by_cases hid : j = id
    · subst hid
      simp only [Function.update_self]
      omega
    · simpa [Function.update_of_ne hid] using h0

theorem note (hi : AllSound s) (id : Nat) {e : Ev} (he : e.quiet = true) :
    AllSound (s.note id e) :=
  hi.conn rfl (by simp) fun hid => (hi.sound id hid).note he

theorem setCli (hi : AllSound s) (id : Nat) {c : TcpClient}
    (hio : c.ioIndex_ = (s.conn id).cli.ioIndex_)
    (hs : id < s.size → Sound id c (s.conn id).log (s.ordersOf id)) : AllSound (s.setCli id c) :=
  hi.conn hio (Nat.le_refl _) hs

/-- A connection that is in use, and for which no accepted message waits, ends. -/
theorem closed (hi : AllSound s) (t id : Nat) (state : TcpClientState)
    (h0 : (s.conn id).log.countP Ev.connects ≠ 0) (hw : waiting (s.ordersOf id) = []) :
    AllSound (s.closed t id state) := by
  refine AllSound.setPhase_other ?_ t rfl
  rw [setCli_note]
  exact hi.conn rfl (by simp) fun hid => (hi.sound id hid).close (by simp) h0 hw

/-- An order of a call, with what is noted of it. -/
theorem order (hi : AllSound s) (node : OrderNode) {e : Ev}
    (hs : node.cli < s.size → Sound node.cli (s.conn node.cli).cli ((s.conn node.cli).log ++ [e])
      (s.ordersOf node.cli ++ [node])) :
    AllSound ((s.libeventIoOrder node).note node.cli e) where
  sound := by
    intro id hid
    have horders : ((s.libeventIoOrder node).note node.cli e).ordersOf id
        = (s.libeventIoOrder node).ordersOf id :=
      ordersOf_congr (by rw [TcpState.note_cli]) rfl
    rw [horders, ordersOf_libeventIoOrder]
    by_cases hnode : node.cli = id
    · subst hnode
      simpa [TcpState.note, TcpState.libeventIoOrder] using hs hid
    · rw [if_neg hnode]
      simpa [TcpState.note, TcpState.libeventIoOrder, Function.update_of_ne (Ne.symm hnode)]
        using hi.sound id hid
  reads := by
    intro t p id ht hp
    have h0 := hi.reads t p id ht hp
    by_cases hnode : id = node.cli
    · subst hnode
      simp only [TcpState.note, TcpState.libeventIoOrder, Function.update_self, List.countP_append]
      omega
    · simpa [TcpState.note, TcpState.libeventIoOrder, Function.update_of_ne hnode] using h0

theorem addConnect (hi : AllSound s) (hk : Known n s) (t : Nat) (ipaddr : Bytes) (port : Int)
    (dataOutSecond : Int32) (second : UInt64) :
    AllSound (s.libeventAddConnect n t ipaddr port dataOutSecond second) := by
  refine AllSound.setPhase_other ?_ t rfl
  have hold : ∀ id, id ≠ s.size → Function.update s.conn s.size
      ⟨.new (s.lastIndex.toNat % n) ipaddr port dataOutSecond second, []⟩ id = s.conn id :=
    fun id hid => Function.update_of_ne hid _ _
  constructor
  case sound =>
    intro id hid
    rw [ordersOf_libeventIoOrder]
    by_cases hsize : s.size = id
    · -- nobody has queued an order for a client that does not exist
      have hnone : ∀ i, (s.orderDeque_ i).filter (·.cli = id) = [] := by
        intro i
        refine List.filter_eq_nil_iff.mpr fun node hnode => ?_
        have := (hk.orders i node hnode).1
        simp only [decide_eq_true_eq]
        omega
      rw [if_pos hsize, TcpState.ordersOf, hnone, ← hsize]
      simpa [TcpState.libeventIoOrder] using
        Sound.new s.size (s.lastIndex.toNat % n) ipaddr port dataOutSecond second
    · rw [if_neg hsize]
      have hlt : id < s.size := by
        have : id < s.size + 1 := hid
        omega
      have horders : TcpState.ordersOf { s with
          conn := Function.update s.conn s.size
            ⟨.new (s.lastIndex.toNat % n) ipaddr port dataOutSecond second, []⟩
          size := s.size + 1
          lastIndex := s.lastIndex + 1
          now := second } id = s.ordersOf id :=
        ordersOf_congr (by simp [hold id (Ne.symm hsize)]) rfl
      rw [horders]
      simpa [TcpState.libeventIoOrder, hold id (Ne.symm hsize)] using hi.sound id hlt
  case reads =>
    intro u p id hu hp
    have h0 := hi.reads u p id hu hp
    have hid := (hk.threads u p id hu (client?_of_reads hp)).1
    simpa [TcpState.libeventIoOrder, hold id (Nat.ne_of_lt hid)] using h0

/-- An order is taken, and its client is changed. -/
theorem taken (hi : AllSound s) (hk : Known n s) {i : Nat} {node : OrderNode}
    {rest : List OrderNode} (hq : s.orderDeque_ i = node :: rest) (second : UInt64) {c : Conn}
    (hio : c.cli.ioIndex_ = (s.conn node.cli).cli.ioIndex_)
    (hgrow : (s.conn node.cli).log.countP Ev.connects ≤ c.log.countP Ev.connects)
    (hs : ∀ orders, s.ordersOf node.cli = node :: orders → Sound node.cli c.cli c.log orders) :
    AllSound { s with
      conn := Function.update s.conn node.cli c
      orderDeque_ := Function.update s.orderDeque_ i rest
      now := second } where
  sound := by
    intro id hid
    have hsame : (Function.update s.conn node.cli c id).cli.ioIndex_ = (s.conn id).cli.ioIndex_ := by
      by_cases hnode : id = node.cli
      · simp [hnode, hio]
      · simp [Function.update_of_ne hnode]
    have horders : s.ordersOf id = if node.cli = id then node :: TcpState.ordersOf { s with
        conn := Function.update s.conn node.cli c
        orderDeque_ := Function.update s.orderDeque_ i rest
        now := second } id else TcpState.ordersOf { s with
        conn := Function.update s.conn node.cli c
        orderDeque_ := Function.update s.orderDeque_ i rest
        now := second } id := ordersOf_take hk hq rfl hsame
    by_cases hnode : node.cli = id
    · subst hnode
      rw [if_pos rfl] at horders
      simpa using hs _ horders
    · rw [if_neg hnode] at horders
      rw [← horders]
      simpa [Function.update_of_ne (Ne.symm hnode)] using hi.sound id hid
  reads := by
    intro t p id ht hp
    have h0 := hi.reads t p id ht hp
    by_cases hnode : id = node.cli
    · subst hnode
      simp only [Function.update_self]
      omega
    · simpa [Function.update_of_ne hnode] using h0

/-- `handleRead` takes an order as what it is. -/
theorem take (hi : AllSound s) (hk : Known n s) {i : Nat} {node : OrderNode}
    {rest : List OrderNode} (hq : s.orderDeque_ i = node :: rest) (result : ConnectResult)
    (second : UInt64) (hread : TakenAs s node result) :
    AllSound ({ s with
      orderDeque_ := Function.update s.orderDeque_ i rest
      now := second }.handleRead i node result second) := by
  have hid := (hk.orders i node (hq ▸ List.mem_cons_self)).1
  have hsound : ∀ orders, s.ordersOf node.cli = node :: orders →
      Sound node.cli (s.conn node.cli).cli (s.conn node.cli).log (node :: orders) := by
    intro orders horders
    rw [← horders]
    exact hi.sound node.cli hid
  unfold TakenAs at hread
  unfold TcpState.handleRead
  simp only at hread ⊢
  split
  · rename_i hsock
    rw [if_pos hsock] at hread
    obtain ⟨h0, hterminal, hwaiting⟩ := hread
    have hconnect := hi.taken hk hq second
      (c := ⟨((s.conn node.cli).cli.connectServer result second).1, (s.conn node.cli).log ++
        [.connectServer (decide (0 ≤ ((s.conn node.cli).cli.connectServer result second).2))]⟩)
      (by simp) (by simp) fun orders horders => by
        rw [horders] at hwaiting
        exact (hsound orders horders).takeConnect h0 hterminal result second hwaiting
    rw [setCli_note]
    split
    · exact hconnect.setPhase_other i rfl
    · exact hconnect
  · rename_i hsock
    rw [if_neg hsock] at hread
    split
    · rename_i hmsg
      rw [setCli_note]
      exact hi.taken hk hq second rfl (by simp) fun orders horders =>
        (hsound orders horders).takeDisconnect hsock (hread hmsg)
    · rename_i hmsg
      have hsend := hi.taken hk hq second (c := ⟨(s.conn node.cli).cli,
        if (s.conn node.cli).cli.bev_.isSome then (s.conn node.cli).log ++ [.write node.wriMsg]
        else (s.conn node.cli).log⟩) rfl (by split <;> simp) fun orders horders =>
          (hsound orders horders).takeSend hsock hmsg
      split
      · rename_i hbev
        rw [if_pos hbev] at hsend
        exact hsend
      · rename_i hbev
        rw [if_neg hbev] at hsend
        simpa [Function.update_eq_self] using hsend

/-- A bufferevent or a timer is one of a client in use. -/
theorem used (hi : AllSound s) (hk : Known n s) {id : Nat}
    (h : (s.conn id).cli.bevs ≠ [] ∨ (s.conn id).cli.timers ≠ []) :
    (s.conn id).log.countP Ev.connects ≠ 0 := by
  by_cases hid : id < s.size
  · rcases (hi.sound id hid).first with ⟨-, ⟨-, hbevs, htimers⟩, -⟩ | ⟨h1, -⟩
    · exact absurd h (by simp [hbevs, htimers])
    · omega
  · obtain ⟨hbevs, htimers⟩ := hk.blank id (Nat.not_lt.mp hid)
    exact absurd h (by simp [hbevs, htimers])

/-- A client in use is changed apart from `sockfd_` and `bev_`. -/
theorem setCli_used (hi : AllSound s) {id : Nat} {c : TcpClient}
    (h0 : (s.conn id).log.countP Ev.connects ≠ 0)
    (hio : c.ioIndex_ = (s.conn id).cli.ioIndex_) (hsock : c.sockfd_ = (s.conn id).cli.sockfd_)
    (hbev : c.bev_ = (s.conn id).cli.bev_) : AllSound (s.setCli id c) := by
  refine hi.setCli id hio fun hid => ?_
  have hs := hi.sound id hid
  refine { hs with
    first := .inr (hs.first.resolve_left fun h => h0 h.1)
    up := ?_
    down := ?_ }
  · rw [hbev]
    exact hs.up
  · rw [hsock, hbev]
    exact hs.down

/-- The map does not matter. -/
theorem map (hi : AllSound s) (ids : List Nat) : AllSound { s with tcpClientConnMap := ids } :=
  ⟨hi.sound, hi.reads⟩

theorem tcpServerConnect (hi : AllSound s) (io : Bool) (t id : Nat) (state : TcpClientState) :
    AllSound (s.tcpServerConnect io t id state) := by
  refine TcpState.tcpServerConnect_rule hi ?_ ?_ ?_ io
  · rintro s e hi (rfl | rfl)
    · exact hi.note id rfl
    · exact hi.note id rfl
  · exact fun s hi => hi.map _
  · rintro s p hi (rfl | rfl)
    · exact hi.setPhase_other t rfl
    · exact hi.setPhase_other t rfl

theorem walk (hi : AllSound s) (hk : Known n s) {t : Nat} {p p' : Phase}
    (ht : s.threads[t]? = some p) (hw : Walks n s t p p') :
    ∀ id, p'.reads = some id → (s.conn id).log.countP Ev.connects ≠ 0 := by
  intro id hp
  cases hw with
  | message hn hio hbev =>
    cases hp
    exact hi.used hk (.inl (List.ne_nil_of_mem hbev))
  | @storing id' second recv =>
    refine hi.reads t _ id ht ?_
    cases recv with
    | send msg => cases hp
    | message => exact hp
  | _ => cases hp

theorem next (hi : AllSound s) (hk : Known n s) {a : TcpAct} (hc : Clear s a)
    (h : Move n s a s') : AllSound s' := by
  cases h with
  | walk ht hw hs => exact (hi.setPhase (hi.walk hk ht hw)).congr hs
  | expired ht hw hout =>
    refine (hi.note _ rfl).setPhase fun id hp => ?_
    rw [countP_note _ _ _ rfl]
    exact hi.walk hk ht hw id hp
  | addConnect hn ht => exact hi.addConnect hk _ _ _ _ _
  | insert ht =>
    exact (hi.map _).setPhase_other _ rfl
  | @store t id second recv ht =>
    have hcli : AllSound (s.setCli id ((s.conn id).cli.recvAt second)) :=
      hi.setCli id rfl fun hid => (hi.sound id hid).congr rfl rfl fun h => h
    cases recv with
    | send msg => exact hcli.setPhase_other t rfl
    | message =>
      refine hcli.setPhase fun j hj => ?_
      cases hj
      have h0 := hi.reads t _ id ht rfl
      simpa [TcpState.setCli] using h0
  | accept ht => exact (hi.order _ fun hid => (hi.sound _ hid).accept _).setPhase_other _ rfl
  | request ht => exact (hi.order _ fun hid => (hi.sound _ hid).request).setPhase_other _ rfl
  | look ht => exact hi.tcpServerConnect _ _ _ _
  | call ht => exact (hi.note _ rfl).setPhase_other _ rfl
  | @late t id second ht hout =>
    have hnoted : AllSound (s.note id (.expired second (s.conn id).cli.lastRecvSecond_)) :=
      hi.note id rfl
    refine hnoted.closed t id _ ?_ ?_
    · rw [countP_note _ _ _ rfl]
      exact hi.reads t _ id ht rfl
    · have horders : (s.note id (.expired second (s.conn id).cli.lastRecvSecond_)).ordersOf id
          = s.ordersOf id := ordersOf_congr (by rw [TcpState.note_cli]) rfl
      rw [horders]
      exact hc _ ht hout
  | take hlt ht hq => exact hi.take hk hq _ _ (hc _ (by simp [hq]))
  | @timeout i id timer hlt ht hio htimer hstate =>
    have h0 := hi.used hk (.inr (List.ne_nil_of_mem htimer))
    have hcli : AllSound (s.setCli id ((s.conn id).cli.fired timer)) :=
      hi.setCli_used h0 rfl rfl rfl
    refine hcli.closed i id _ ?_ ?_
    · simpa [TcpState.setCli] using h0
    · have horders : (s.setCli id ((s.conn id).cli.fired timer)).ordersOf id = s.ordersOf id :=
        ordersOf_congr (by simp [TcpState.setCli, TcpClient.fired]) rfl
      rw [horders]
      exact hc hstate
  | fired htimer => exact hi.setCli_used (hi.used hk (.inr (List.ne_nil_of_mem htimer))) rfl rfl rfl
  | drained ht => exact hi.closed _ _ _ (hi.reads _ _ _ ht rfl) (hc rfl _ ht _ rfl)
  | event hlt ht hio hbev =>
    exact hi.closed _ _ _ (hi.used hk (.inl (List.ne_nil_of_mem hbev))) (hc rfl)
  | @connected i id bev hlt ht hio hbev hconn =>
    have hcli : AllSound (s.setCli id ((s.conn id).cli.connected bev)) :=
      hi.setCli_used (hi.used hk (.inl (List.ne_nil_of_mem hbev))) rfl rfl rfl
    exact hcli.setPhase_other i rfl

end AllSound


end

/-- In every run of clear steps, the orders of every connection mean what their callers asked for. -/
theorem orders_meant (n callers : Nat) (s : TcpState)
    (h : ((tcpSystem n callers).only Clear).Reach s) :
    ∀ id < s.size, Meant (s.conn id).log (s.ordersOf id) := by
  have hi : Known n s ∧ AllSound s := by
    refine Sys.Reach.inv_only (I := fun s => Known n s ∧ AllSound s) ?_ ?_ h
    · refine ⟨Known.init n callers, nofun, ?_⟩
      intro t p id ht hp
      have hidle : p = .idle := List.eq_of_mem_replicate (List.mem_of_getElem? ht)
      rw [hidle] at hp
      cases hp
    · rintro s a s' ⟨hk, hi⟩ hc hs
      have hmove : Move n s a s' := move_of_next hs
      exact ⟨hk.next hmove, hi.next hk hc hmove⟩
  exact fun id hid => (hi.2.sound id hid).meant

/-- Two messages and a disconnect, on one connection. -/
def meantRun : List TcpAct :=
  [.libeventAddConnect 2 [49] 80 30 100, .go 2,
    .libeventTcpCliSendMsg 2 0 [65, 66], .secondSinceEpoch 2 101, .go 2, .go 2, .go 2,
    .handleRead 0 (.connecting 7) 101, .TcpClientOnEvent 0 0 0 true, .go 0, .go 0,
    .libeventTcpCliSendMsg 2 0 [67], .secondSinceEpoch 2 102, .go 2, .go 2, .go 2,
    .handleRead 0 .noTimer 102,
    .libeventTcpCliDisconnect 2 0, .go 2, .go 2, .go 2, .go 2, .go 2,
    .handleRead 0 .noTimer 102, .handleRead 0 .noTimer 102]

theorem orders_meant_meantRun : ∃ s, ((tcpSystem 1 1).only Clear).run
      ((tcpSystem 1 1).only Clear).init meantRun = some s ∧
    (writtenMsgs (s.conn 0).log).flatten = [65, 66, 67] ∧ s.ordersOf 0 = [] ∧
    ∀ id < s.size, Meant (s.conn id).log (s.ordersOf id) :=
  ⟨_, rfl, rfl, rfl, orders_meant 1 1 _ (Sys.Reach.init.run meantRun rfl)⟩

/-- The caller connects, sends a message of length 0, and one of length 1. -/
def emptyRun : List TcpAct :=
  [.libeventAddConnect 2 [49] 80 30 100, .go 2, .handleRead 0 (.connecting 7) 100,
    .TcpClientOnEvent 0 0 0 true, .go 0, .go 0,
    .libeventTcpCliSendMsg 2 0 [], .secondSinceEpoch 2 101, .go 2, .go 2, .go 2,
    .libeventTcpCliSendMsg 2 0 [65], .secondSinceEpoch 2 101, .go 2, .go 2, .go 2,
    .handleRead 0 .noTimer 101, .handleRead 0 .noTimer 101]

/-- Both are accepted. The first one disconnects, the second one is lost, and nobody has asked for
that. -/
theorem order_misread : ∃ s, (tcpSystem 1 1).Reach s ∧ 0 < s.size ∧
    (s.conn 0).log = [.connectServer true, .result .CONN_SUCCESS, .found .CONN_SUCCESS,
      .connCb .CONN_SUCCESS, .accepted [], .accepted [65], .disConnect (some .send)] ∧
    ¬ Meant (s.conn 0).log (s.ordersOf 0) := by
  obtain ⟨s, hrun, hsize, hlog⟩ : ∃ s, (tcpSystem 1 1).run (tcpSystem 1 1).init emptyRun = some s ∧
      s.size = 1 ∧ (s.conn 0).log = [.connectServer true, .result .CONN_SUCCESS,
        .found .CONN_SUCCESS, .connCb .CONN_SUCCESS, .accepted [], .accepted [65],
        .disConnect (some .send)] :=
    ⟨_, rfl, rfl, rfl⟩
  refine ⟨s, Sys.Reach.init.run _ hrun, by omega, hlog, ?_⟩
  intro hm
  have := hm.asked .send (by simp [hlog])
  cases this

end LibeventTcpCli
end CmakeFrame
