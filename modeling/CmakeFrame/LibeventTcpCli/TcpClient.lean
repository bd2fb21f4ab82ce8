import CmakeFrame.Lib.Search

/-!
# `libeventcpcli/src/TcpClient.{h,cpp}`: one connection

* `connectServer`, `disConnect`, `tcpClieSetconn`: what they do to the members, and to the timers and
  bufferevents of libevent, which are numbers.
* `outOfTime`: the test of `isKeepAlive` and of `setRecvSecond`.

What libevent answers is an argument. An error of `connect` itself is not among the answers: there
libevent calls `TcpClientOnEvent` first, which frees the timer, and `connectServer` frees a null
pointer; the program ends. `connOutSecond_` is when the timer fires, which may be at any time here.
-/

namespace CmakeFrame
namespace LibeventTcpCli

open Lib

inductive TcpClientState where
  | CONN_FAILED
  | CONN_SUCCESS
  | DIS_CONNECT
  deriving DecidableEq, Repr

/-- How far `connectServer` comes. -/
inductive ConnectResult where
  | noTimer
  | noBufferevent
  | notEnabled
  | noSocket
  /-- The socket. -/
  | connecting (fd : Nat)
  deriving DecidableEq, Repr

/-- It has a socket in the end. -/
def ConnectResult.ok : ConnectResult → Bool
  | .connecting _ => true
  | .noTimer | .noBufferevent | .notEnabled | .noSocket => false

/-- The members, and what libevent has for the client: the timers that are pending, the bufferevents
with a socket, those of them that still connect, and the number for the next ones. -/
structure TcpClient where
  ioIndex_ : Nat
  ipaddr_ : Bytes
  port_ : Int
  dataOutSecond_ : Int32
  sockfd_ : Nat
  state_ : TcpClientState
  lastRecvSecond_ : UInt64
  timev_ : Option Nat
  bev_ : Option Nat
  timers : List Nat
  bevs : List Nat
  connecting : List Nat
  made : Nat
  deriving DecidableEq, Repr

namespace TcpClient

/-- The constructor. -/
def new (ioIndex : Nat) (ipaddr : Bytes) (port : Int) (dataOutSecond : Int32) (second : UInt64) :
    TcpClient :=
  ⟨ioIndex, ipaddr, port, dataOutSecond, 0, .CONN_FAILED, second, none, none, [], [], [], 0⟩

/-- The test of the parameters. -/
def BadParameter (c : TcpClient) : Prop := c.ipaddr_ = [] ∨ c.port_ = 0

instance (c : TcpClient) : Decidable c.BadParameter := inferInstanceAs (Decidable (_ ∨ _))

/-- `connectServer`, at `second`. What `timev_` and `bev_` pointed to is not freed. -/
def connectServer (c : TcpClient) (result : ConnectResult) (second : UInt64) : TcpClient × Int :=
  if c.BadParameter then (c, -3)
  else
    match result with
    | .noTimer => ({ c with timev_ := none }, -1)
    | .noBufferevent => ({ c with timev_ := some c.made, bev_ := none, made := c.made + 1 }, -1)
    | .notEnabled => ({ c with timev_ := some c.made, bev_ := some c.made, made := c.made + 1 }, -1)
    | .noSocket => ({ c with timev_ := none, bev_ := some c.made, made := c.made + 1 }, -1)
    | .connecting fd =>
      ({ c with
        timev_ := some c.made
        bev_ := some c.made
        timers := c.made :: c.timers
        bevs := c.made :: c.bevs
        connecting := c.made :: c.connecting
        lastRecvSecond_ := second
        sockfd_ := fd
        made := c.made + 1 }, fd)

/-- `event_free(timev_)` -/
def freeTimer (c : TcpClient) : TcpClient :=
  { c with timev_ := none, timers := c.timev_.elim c.timers c.timers.erase }

/-- `bufferevent_free(bev_)` -/
def freeBev (c : TcpClient) : TcpClient :=
  { c with
    bev_ := none
    bevs := c.bev_.elim c.bevs c.bevs.erase
    connecting := c.bev_.elim c.connecting c.connecting.erase }

def disConnect (c : TcpClient) : TcpClient := c.freeTimer.freeBev

def tcpClieSetconn (c : TcpClient) : TcpClient := { c.freeTimer with state_ := .CONN_SUCCESS }

/-- `lastRecvSecond_ = second;` -/
def recvAt (c : TcpClient) (second : UInt64) : TcpClient := { c with lastRecvSecond_ := second }

/-- A timer goes off. -/
def fired (c : TcpClient) (timer : Nat) : TcpClient := { c with timers := c.timers.erase timer }

/-- A bufferevent has connected, and `TcpClientOnEvent` notes it. -/
def connected (c : TcpClient) (bev : Nat) : TcpClient :=
  { c.tcpClieSetconn with connecting := c.connecting.erase bev }

/-- `lastRecvSecond_ && ((second - lastRecvSecond_) > dataOutSecond_)`, in `uint64_t`. -/
def outOfTime (c : TcpClient) (second : UInt64) : Bool :=
  c.lastRecvSecond_ != 0 && decide (c.dataOutSecond_.toInt64.toUInt64 < second - c.lastRecvSecond_)

def isKeepAlive (c : TcpClient) (second : UInt64) : Bool := !c.outOfTime second

/-! ## What stays -/

section

variable (c : TcpClient) (result : ConnectResult) (second : UInt64)

@[simp] theorem disConnect_ioIndex_ : c.disConnect.ioIndex_ = c.ioIndex_ := rfl

theorem disConnect_connecting : c.disConnect.connecting.length ≤ c.connecting.length := by
  change (c.bev_.elim c.connecting c.connecting.erase).length ≤ _
  cases c.bev_ with
  | none => exact Nat.le_refl _
  | some k => exact List.length_erase_le

@[simp] theorem connectServer_ioIndex_ :
    (c.connectServer result second).1.ioIndex_ = c.ioIndex_ := by
  unfold connectServer
  split
  · rfl
  · cases result <;> rfl

@[simp] theorem connectServer_state_ : (c.connectServer result second).1.state_ = c.state_ := by
  unfold connectServer
  split
  · rfl
  · cases result <;> rfl

@[simp] theorem connectServer_dataOutSecond_ :
    (c.connectServer result second).1.dataOutSecond_ = c.dataOutSecond_ := by
  unfold connectServer
  split
  · rfl
  · cases result <;> rfl

/-- `connectServer` fails, and there is no socket. -/
theorem connectServer_fails (h : c.BadParameter ∨ result.ok = false) :
    (c.connectServer result second).2 < 0 ∧
      (c.connectServer result second).1.sockfd_ = c.sockfd_ ∧
      (c.connectServer result second).1.connecting = c.connecting := by
  unfold connectServer
  split
  · exact ⟨show (-3 : Int) < 0 by decide, rfl, rfl⟩
  · rename_i hbad
    cases result with
    | connecting fd => exact absurd (h.resolve_left hbad) Bool.noConfusion
    | noTimer | noBufferevent | notEnabled | noSocket =>
      exact ⟨show (-1 : Int) < 0 by decide, rfl, rfl⟩

theorem connectServer_ok (h : ¬ (c.BadParameter ∨ result.ok = false)) :
    0 ≤ (c.connectServer result second).2 ∧
      (c.connectServer result second).1.bev_ = some c.made ∧
      (c.connectServer result second).1.connecting = c.made :: c.connecting := by
  obtain ⟨hbad, hok⟩ := not_or.mp h
  unfold connectServer
  rw [if_neg hbad]
  cases result with
  | connecting fd => exact ⟨Int.natCast_nonneg fd, rfl, rfl⟩
  | noTimer | noBufferevent | notEnabled | noSocket => exact absurd rfl hok

end

/-- A positive `int` as a `uint64_t`. -/
theorem toNat_dataOutSecond_ (c : TcpClient) (hpos : 0 < c.dataOutSecond_.toInt) :
    (c.dataOutSecond_.toInt64.toUInt64.toNat : Int) = c.dataOutSecond_.toInt := by
  have hle : (0 : Int64) ≤ c.dataOutSecond_.toInt64 := by
    rw [Int64.le_iff_toInt_le, Int32.toInt_toInt64]
    exact Int.le_of_lt hpos
  have hnat : c.dataOutSecond_.toInt64.toNatClampNeg = c.dataOutSecond_.toInt.toNat := by
    rw [Int64.toNatClampNeg, Int32.toInt_toInt64]
  rw [Int64.toNat_toUInt64_of_le hle, hnat]
  omega

end TcpClient

end LibeventTcpCli
end CmakeFrame
