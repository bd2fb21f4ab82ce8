import CmakeFrame.Lib.Sys
import CmakeFrame.LibeventTcpCli.TcpClient

/-!
# `libeventcpcli/src/LibeventTcpCli.cpp`, `LibeventIo.cpp`: the calls, the threads, the IO loop

* `Phase`: where a thread is in the code, between two accesses to what the threads share.
* `Ev`: what happens to one connection, in order; the history that the claims of the interface are
  about.
* `tcpSystem n`: `n` IO threads, the expiry thread and callers, under a clock that does not go back.

The threads `0` to `n - 1` are the IO threads, thread `n` is the expiry thread, the others call the
interface; a call inside a callback is the call of another thread, while the IO thread waits. What a
lock protects is one step, apart from the scan of the expiry thread, which holds `mutex_` while
others set `lastRecvSecond_`. A connection is numbered by its creation; `uniqueNumId` gives each
number once. `libeventTcpCliExit` is left out.
-/

namespace CmakeFrame
namespace LibeventTcpCli

open Lib

/-- Who has queued an order. -/
inductive Origin where
  | connect
  | send
  | disconnect
  deriving DecidableEq, Repr

/-- `origin` is history; `handleRead` does not see it. -/
structure OrderNode where
  cli : Nat
  wriMsg : Bytes
  origin : Origin
  deriving DecidableEq, Repr

/-- What happens to a connection. -/
inductive Ev where
  /-- `connCb` is called. -/
  | connCb (state : TcpClientState)
  /-- `tcpServerConnect` finds the connection in the map. -/
  | found (state : TcpClientState)
  /-- The IO loop has a result of a connection that nobody has ended. -/
  | result (state : TcpClientState)
  /-- `libeventTcpCliSendMsg` returns 0. -/
  | accepted (msg : Bytes)
  /-- The order to disconnect is queued. -/
  | request
  | connectServer (ok : Bool)
  /-- For an order, or for what has happened to the connection. -/
  | disConnect (order : Option Origin)
  /-- `bufferevent_write` -/
  | write (msg : Bytes)
  /-- A test finds the connection out of time. -/
  | expired (second lastRecvSecond_ : UInt64)
  deriving DecidableEq, Repr

structure Conn where
  cli : TcpClient
  log : List Ev

/-- Why `setRecvSecond` is called. -/
inductive Recv where
  | send (msg : Bytes)
  | message
  deriving DecidableEq, Repr

/-- Where a thread is. -/
inductive Phase where
  | idle
  /-- `libeventAddConnect`, before the connection is in the map. -/
  | adding (id : Nat)
  /-- `libeventTcpCliSendMsg`, with the client. -/
  | sending (id : Nat) (msg : Bytes)
  /-- `setRecvSecond`, before its test. -/
  | sampled (id : Nat) (second : UInt64) (recv : Recv)
  /-- `setRecvSecond`, behind its test. -/
  | storing (id : Nat) (second : UInt64) (recv : Recv)
  /-- `libeventTcpCliSendMsg`, before the order is queued. -/
  | ordering (id : Nat) (msg : Bytes)
  /-- `TcpClientOnMessage`, behind `setRecvSecond`. -/
  | received (id : Nat)
  /-- `libeventTcpCliDisconnect`: at its start, with the client, behind the order. -/
  | disconnecting (id : Nat)
  | requesting (id : Nat)
  | requested (id : Nat)
  /-- `tcpServerConnect`, before the map is asked. -/
  | ending (id : Nat) (state : TcpClientState)
  /-- `tcpServerConnect`, before `connCb`. -/
  | calling (id : Nat) (state : TcpClientState)
  /-- `libeventIoExpireThread`: before the lock, and under it. -/
  | round (second : UInt64)
  | scanning (second : UInt64) (todo uidVect : List Nat)
  deriving DecidableEq, Repr

/-- Where a thread is behind `setRecvSecond`. -/
def Recv.phase (id : Nat) : Recv → Phase
  | .send msg => .ordering id msg
  | .message => .received id

def Phase.locks : Phase → Bool
  | .scanning _ _ _ => true
  | _ => false

/-- `conn` is the client of each number below `size`, with its history. -/
structure TcpState where
  conn : Nat → Conn
  size : Nat
  tcpClientConnMap : List Nat
  orderDeque_ : Nat → List OrderNode
  threads : List Phase
  uidVect : List Nat
  lastIndex : UInt32
  now : UInt64

inductive TcpAct where
  | libeventAddConnect (t : Nat) (ipaddr : Bytes) (port : Int) (dataOutSecond : Int32)
      (second : UInt64)
  | libeventTcpCliSendMsg (t id : Nat) (msg : Bytes)
  | libeventTcpCliDisconnect (t id : Nat)
  | libeventIoExpireThread (second : UInt64)
  | isKeepAlive (id : Nat)
  /-- The first line of `setRecvSecond`, in `libeventTcpCliSendMsg`. -/
  | secondSinceEpoch (t : Nat) (second : UInt64)
  /-- A thread goes on, from a phase that leaves no choice. -/
  | go (t : Nat)
  /-- The loop of `handleRead` takes an order. -/
  | handleRead (i : Nat) (result : ConnectResult) (second : UInt64)
  | connectTimeout (i id timer : Nat)
  | TcpClientOnMessage (i id bev : Nat) (second : UInt64)
  /-- The rest of it; `ok` if nothing fails. -/
  | drain (i : Nat) (ok : Bool)
  /-- `BEV_EVENT_CONNECTED`, or one of the others. -/
  | TcpClientOnEvent (i id bev : Nat) (connected : Bool)
  deriving DecidableEq, Repr

/-- The states with which the map had the connection. -/
def foundStates (log : List Ev) : List TcpClientState :=
  log.filterMap fun
    | .found state => some state
    | _ => none

namespace TcpState

variable (s : TcpState)

/-! ## Changes of the state -/

def setPhase (t : Nat) (p : Phase) : TcpState := { s with threads := s.threads.set t p }

def setCli (id : Nat) (c : TcpClient) : TcpState :=
  { s with conn := Function.update s.conn id ⟨c, (s.conn id).log⟩ }

def note (id : Nat) (e : Ev) : TcpState :=
  { s with conn := Function.update s.conn id ⟨(s.conn id).cli, (s.conn id).log ++ [e]⟩ }

/-- `libeventIoOrder` of the thread of the client. -/
def libeventIoOrder (node : OrderNode) : TcpState :=
  let i := (s.conn node.cli).cli.ioIndex_
  { s with orderDeque_ := Function.update s.orderDeque_ i (s.orderDeque_ i ++ [node]) }

/-- Some thread has `mutex_`. -/
def locked : Bool := s.threads.any Phase.locks

/-- `tcpServerConnect` has not ended the connection. -/
def Wanted (id : Nat) : Prop := ∀ state ∈ foundStates (s.conn id).log, state = .CONN_SUCCESS

instance (id : Nat) : Decidable (s.Wanted id) := by
  unfold Wanted
  infer_instance

/-! ## The functions -/

/-- `libeventAddConnect`, up to the order. -/
def libeventAddConnect (n t : Nat) (ipaddr : Bytes) (port : Int) (dataOutSecond : Int32)
    (second : UInt64) : TcpState :=
  let client := TcpClient.new (s.lastIndex.toNat % n) ipaddr port dataOutSecond second
  let s' := { s with
    conn := Function.update s.conn s.size ⟨client, []⟩
    size := s.size + 1
    lastIndex := s.lastIndex + 1
    now := second }
  (s'.libeventIoOrder ⟨s.size, [], .connect⟩).setPhase t (.adding s.size)

/-- A result of the IO loop. -/
def noteResult (io : Bool) (id : Nat) (state : TcpClientState) : TcpState :=
  if io ∧ s.Wanted id then s.note id (.result state) else s

/-- `if(state != CONN_SUCCESS) tcpClientConnMap.erase(iter);` -/
def eraseUnless (id : Nat) (state : TcpClientState) : TcpState :=
  if state = .CONN_SUCCESS then s
  else { s with tcpClientConnMap := s.tcpClientConnMap.erase id }

/-- What `tcpServerConnect` does under the lock. -/
def tcpServerConnect (io : Bool) (t id : Nat) (state : TcpClientState) : TcpState :=
  let s' := s.noteResult io id state
  if id ∈ s.tcpClientConnMap then
    ((s'.eraseUnless id state).note id (.found state)).setPhase t (.calling id state)
  else s'.setPhase t .idle

/-- `disConnect`, when something has happened to the connection, and the call of
`tcpServerConnect`. -/
def closed (t id : Nat) (state : TcpClientState) : TcpState :=
  ((s.setCli id (s.conn id).cli.disConnect).note id (.disConnect none)).setPhase t (.ending id state)

/-- The state that is reported by who does not know it. -/
def reports (id : Nat) : TcpClientState :=
  if (s.conn id).cli.state_ = .CONN_FAILED then .CONN_FAILED else .DIS_CONNECT

/-- A thread goes on from its phase. -/
def go (n t : Nat) : Phase → Option TcpState
  | .adding id =>
    if s.locked then none
    else some ({ s with tcpClientConnMap := s.tcpClientConnMap ++ [id] }.setPhase t .idle)
  | .sampled id second recv =>
    let c := (s.conn id).cli
    if c.outOfTime second then
      let s' := s.note id (.expired second c.lastRecvSecond_)
      some (match recv with
        | .send _ => s'.setPhase t (.disconnecting id)
        | .message => s'.closed t id .DIS_CONNECT)
    else some (s.setPhase t (.storing id second recv))
  | .storing id second recv =>
    some ((s.setCli id ((s.conn id).cli.recvAt second)).setPhase t (recv.phase id))
  | .ordering id msg =>
    some (((s.libeventIoOrder ⟨id, msg, .send⟩).note id (.accepted msg)).setPhase t .idle)
  | .disconnecting id =>
    if s.locked then none
    else some (s.setPhase t (if id ∈ s.tcpClientConnMap then .requesting id else .idle))
  | .requesting id =>
    some (((s.libeventIoOrder ⟨id, [], .disconnect⟩).note id .request).setPhase t (.requested id))
  | .requested id => some (s.setPhase t (.ending id (s.reports id)))
  | .ending id state =>
    if s.locked then none else some (s.tcpServerConnect (decide (t < n)) t id state)
  | .calling id state => some ((s.note id (.connCb state)).setPhase t .idle)
  | .round second =>
    if s.locked then none else some (s.setPhase t (.scanning second s.tcpClientConnMap []))
  | .scanning _ [] uidVect => some ({ s with uidVect }.setPhase t .idle)
  | .idle =>
    match s.uidVect with
    | [] => none
    | uid :: uidVect =>
      if t = n then some ({ s with uidVect }.setPhase t (.disconnecting uid)) else none
  | .sending _ _ | .received _ | .scanning _ (_ :: _) _ => none

/-- The body of the loop of `handleRead`. -/
def handleRead (i : Nat) (node : OrderNode) (result : ConnectResult) (second : UInt64) : TcpState :=
  let c := (s.conn node.cli).cli
  if c.sockfd_ = 0 then
    let r := c.connectServer result second
    let s' := (s.setCli node.cli r.1).note node.cli (.connectServer (decide (0 ≤ r.2)))
    if r.2 < 0 then s'.setPhase i (.ending node.cli .CONN_FAILED) else s'
  else if node.wriMsg = [] then
    (s.setCli node.cli c.disConnect).note node.cli (.disConnect (some node.origin))
  else if c.bev_.isSome then s.note node.cli (.write node.wriMsg) else s

def next (n : Nat) : TcpAct → Option TcpState
  | .libeventAddConnect t ipaddr port dataOutSecond second =>
    if n < t ∧ 0 < n ∧ s.threads[t]? = some .idle ∧ s.now ≤ second then
      some (s.libeventAddConnect n t ipaddr port dataOutSecond second)
    else none
  | .libeventTcpCliSendMsg t id msg =>
    if n < t ∧ s.threads[t]? = some .idle ∧ s.locked = false then
      some (s.setPhase t (if id ∈ s.tcpClientConnMap then .sending id msg else .idle))
    else none
  | .libeventTcpCliDisconnect t id =>
    if n < t ∧ s.threads[t]? = some .idle then some (s.setPhase t (.disconnecting id)) else none
  | .libeventIoExpireThread second =>
    if s.threads[n]? = some .idle ∧ s.uidVect = [] ∧ s.now ≤ second then
      some ({ s with now := second }.setPhase n (.round second))
    else none
  | .isKeepAlive id =>
    match s.threads[n]? with
    | some (.scanning second todo uidVect) =>
      if id ∈ todo then
        let c := (s.conn id).cli
        if c.isKeepAlive second then
          some (s.setPhase n (.scanning second (todo.erase id) uidVect))
        else
          some ((s.note id (.expired second c.lastRecvSecond_)).setPhase n
            (.scanning second (todo.erase id) (uidVect ++ [id])))
      else none
    | _ => none
  | .secondSinceEpoch t second =>
    match s.threads[t]? with
    | some (.sending id msg) =>
      if s.now ≤ second then
        some ({ s with now := second }.setPhase t (.sampled id second (.send msg)))
      else none
    | _ => none
  | .go t =>
    match s.threads[t]? with
    | none => none
    | some p => s.go n t p
  | .handleRead i result second =>
    if i < n ∧ s.threads[i]? = some .idle ∧ s.now ≤ second then
      match s.orderDeque_ i with
      | [] => none
      | node :: rest =>
        some ({ s with
          orderDeque_ := Function.update s.orderDeque_ i rest
          now := second }.handleRead i node result second)
    else none
  | .connectTimeout i id timer =>
    let c := (s.conn id).cli
    if i < n ∧ s.threads[i]? = some .idle ∧ c.ioIndex_ = i ∧ timer ∈ c.timers then
      let s' := s.setCli id (c.fired timer)
      some (if c.state_ = .CONN_FAILED then s'.closed i id .CONN_FAILED else s')
    else none
  | .TcpClientOnMessage i id bev second =>
    let c := (s.conn id).cli
    if i < n ∧ s.threads[i]? = some .idle ∧ c.ioIndex_ = i ∧ bev ∈ c.bevs ∧ s.now ≤ second then
      some ({ s with now := second }.setPhase i (.sampled id second .message))
    else none
  | .drain i ok =>
    match s.threads[i]? with
    | some (.received id) => some (if ok then s.setPhase i .idle else s.closed i id .DIS_CONNECT)
    | _ => none
  | .TcpClientOnEvent i id bev connected =>
    let c := (s.conn id).cli
    if i < n ∧ s.threads[i]? = some .idle ∧ c.ioIndex_ = i ∧ bev ∈ c.bevs then
      if connected then
        if bev ∈ c.connecting then
          some ((s.setCli id (c.connected bev)).setPhase i (.ending id .CONN_SUCCESS))
        else none
      else some (s.closed i id (s.reports id))
    else none

end TcpState

/-- With `callers` threads that call the interface. -/
def tcpSystem (n callers : Nat) : Sys TcpState TcpAct where
  init := ⟨fun _ => ⟨.new 0 [] 0 0 0, []⟩, 0, [], fun _ => [], List.replicate (n + 1 + callers) .idle,
    [], 0, 0⟩
  next := fun s => s.next n

end LibeventTcpCli
end CmakeFrame
