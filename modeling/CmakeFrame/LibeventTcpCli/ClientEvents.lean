import CmakeFrame.Lib.OwnedPtr
import CmakeFrame.Lib.Sys
import CmakeFrame.LibeventTcpCli.TcpClient

/-!
# The timer and the bufferevent of a client

A `TcpClient` creates both in `connectServer` and frees them at several places, each of which looks
whether there is one, but for the exit of `connectServer` behind `bufferevent_socket_connect`. From
within that call libevent may call `TcpClientOnEvent`, which frees the timer.

* `EventClient`: a client with its two pointers; its functions, and the callbacks of libevent.
* `clientSystem`: the calls in any order, up to the destructor.
* `Clean`: no null pointer is freed or used, and each timer and bufferevent is freed once, at the
  latest by the destructor.
* `Careful`: the condition on a step; `next_clean_iff`: what one step does to `Clean`;
  `client_clean_iff`: a run is clean if and only if all its steps meet the condition.
-/

namespace CmakeFrame
namespace LibeventTcpCli

open Lib

/-- A `TcpClient` as far as its pointers go. -/
structure EventClient where
  ipaddr_ : Bytes
  port_ : Int
  sockfd_ : Int
  state_ : TcpClientState
  timev_ : OwnedPtr
  bev_ : OwnedPtr
  destroyed : Bool

/-- What libevent gives to `connectServer`: whether there is an event base, a timer and a bufferevent,
the results of `bufferevent_enable` and `bufferevent_socket_connect`, the event for which it calls
`TcpClientOnEvent` from within the latter, if it does, and the socket. -/
structure ConnectEnv where
  eBase : Bool
  timer : Bool
  bufferevent : Bool
  enabled : Int
  callback : Option UInt16
  connect : Int
  fd : Int

/-- How `TcpClientOnMessage` ends. -/
inductive MessageEnd
  | outOfTime
  | noBuffer
  | notCopied
  | notDrained
  | taken
deriving DecidableEq

namespace EventClient

/-- The constructor. -/
def new (ipaddr : Bytes) (port : Int) : EventClient :=
  ⟨ipaddr, port, 0, .CONN_FAILED, .null, .null, false⟩

def disConnect (c : EventClient) : EventClient :=
  { c with timev_ := c.timev_.release, bev_ := c.bev_.release }

def tcpClieSetconn (c : EventClient) : EventClient :=
  { c with timev_ := c.timev_.release, state_ := .CONN_SUCCESS }

def connectTimeout (c : EventClient) : EventClient :=
  if c.state_ = .CONN_FAILED then c.disConnect else c

def onMessage (c : EventClient) : MessageEnd → EventClient
  | .outOfTime | .noBuffer | .notCopied | .notDrained => c.disConnect
  | .taken => c

def BEV_EVENT_EOF : UInt16 := 0x10
def BEV_EVENT_ERROR : UInt16 := 0x20
def BEV_EVENT_CONNECTED : UInt16 := 0x80

def onEvent (c : EventClient) (event : UInt16) : EventClient :=
  if event &&& BEV_EVENT_EOF ≠ 0 then c.disConnect
  else if event &&& BEV_EVENT_ERROR ≠ 0 then c.disConnect
  else if event &&& BEV_EVENT_CONNECTED ≠ 0 then c.tcpClieSetconn
  else c.disConnect

/-- `connectServer` behind `bufferevent_socket_connect`. -/
def afterConnect (c : EventClient) (env : ConnectEnv) : EventClient × Int :=
  if env.connect < 0 then ({ c with timev_ := c.timev_.free }, env.connect)
  else if c.bev_.ptr.isSome then ({ c with bev_ := c.bev_.deref, sockfd_ := env.fd }, env.fd)
  else (c, -1)

/-- `connectServer` from `bufferevent_socket_connect` on. -/
def startConnect (c : EventClient) (env : ConnectEnv) : EventClient × Int :=
  (env.callback.elim c c.onEvent).afterConnect env

/-- `timev_ = evtimer_new(..);` -/
def newTimer (c : EventClient) (ok : Bool) : EventClient := { c with timev_ := c.timev_.create ok }

/-- `bev_ = bufferevent_socket_new(..);` -/
def newBev (c : EventClient) (ok : Bool) : EventClient := { c with bev_ := c.bev_.create ok }

/-- The test of the parameters. -/
def BadParameter (c : EventClient) (eBase : Bool) : Prop :=
  eBase = false ∨ c.ipaddr_ = [] ∨ c.port_ = 0

instance (c : EventClient) (eBase : Bool) : Decidable (c.BadParameter eBase) :=
  inferInstanceAs (Decidable (_ ∨ _))

def connectServer (c : EventClient) (env : ConnectEnv) : EventClient × Int :=
  if c.BadParameter env.eBase then (c, -3)
  else if ¬ env.timer then (c.newTimer env.timer, -1)
  else if ¬ env.bufferevent then ((c.newTimer env.timer).newBev env.bufferevent, -1)
  else if env.enabled < 0 then ((c.newTimer env.timer).newBev env.bufferevent, env.enabled)
  else ((c.newTimer env.timer).newBev env.bufferevent).startConnect env

/-- The destructor. -/
def destroy (c : EventClient) : EventClient :=
  { c with timev_ := c.timev_.release, bev_ := c.bev_.release, destroyed := true }

end EventClient

inductive ClientAct
  | connectServer (env : ConnectEnv)
  | disConnect
  | tcpClieSetconn
  | connectTimeout
  | onMessage (e : MessageEnd)
  | writeBack
  | onEvent (event : UInt16)
  | destroy

namespace EventClient

def act (c : EventClient) : ClientAct → EventClient
  | .connectServer env => (c.connectServer env).1
  | .disConnect => c.disConnect
  | .tcpClieSetconn => c.tcpClieSetconn
  | .connectTimeout => c.connectTimeout
  | .onMessage e => c.onMessage e
  | .writeBack => c
  | .onEvent event => c.onEvent event
  | .destroy => c.destroy

end EventClient

/-- One client, until its destructor. -/
def clientSystem (ipaddr : Bytes) (port : Int) : Sys EventClient ClientAct where
  init := .new ipaddr port
  next c a := if c.destroyed then none else some (c.act a)

/-- No null pointer was freed or used, and each timer and each bufferevent is freed once or is there
to be freed; behind the destructor each is freed. That none is freed twice is part of `OwnedPtr`. -/
structure Clean (c : EventClient) : Prop where
  timer : c.timev_.Accounted
  bufferevent : c.bev_.Accounted
  atEnd : c.destroyed = true →
    (∀ q < c.timev_.made, q ∈ c.timev_.freed) ∧ ∀ q < c.bev_.made, q ∈ c.bev_.freed

/-- `connectServer` finds no timer and no bufferevent where it creates one, and libevent does not call
back from within a `bufferevent_socket_connect` that fails. -/
def CarefulConnect (c : EventClient) (env : ConnectEnv) : Prop :=
  c.BadParameter env.eBase ∨ c.timev_.ptr = none ∧ (env.timer = true → c.bev_.ptr = none ∧
    (env.bufferevent = true → 0 ≤ env.enabled → 0 ≤ env.connect ∨ env.callback = none))

instance (c : EventClient) (env : ConnectEnv) : Decidable (CarefulConnect c env) :=
  inferInstanceAs (Decidable (_ ∨ _ ∧ (_ → _)))

/-- The condition on a step. -/
def Careful (c : EventClient) : ClientAct → Prop
  | .connectServer env => CarefulConnect c env
  | .disConnect | .tcpClieSetconn | .connectTimeout | .onMessage _ | .writeBack | .onEvent _
  | .destroy => True

instance (c : EventClient) : (a : ClientAct) → Decidable (Careful c a)
  | .connectServer env => inferInstanceAs (Decidable (CarefulConnect c env))
  | .disConnect | .tcpClieSetconn | .connectTimeout | .onMessage _ | .writeBack | .onEvent _
  | .destroy => inferInstanceAs (Decidable True)

/-! ## What each function does to the pointers -/

namespace EventClient

/-- Both pointers are accounted for. -/
def Accounted (c : EventClient) : Prop := c.timev_.Accounted ∧ c.bev_.Accounted

variable {c : EventClient} {env : ConnectEnv}

theorem accounted_disConnect : c.disConnect.Accounted ↔ c.Accounted :=
  and_congr OwnedPtr.accounted_release OwnedPtr.accounted_release

theorem accounted_tcpClieSetconn : c.tcpClieSetconn.Accounted ↔ c.Accounted :=
  and_congr_left' OwnedPtr.accounted_release

theorem accounted_connectTimeout : c.connectTimeout.Accounted ↔ c.Accounted := by
  unfold connectTimeout
  split
  · exact accounted_disConnect
  · rfl

theorem accounted_onMessage (e : MessageEnd) : (c.onMessage e).Accounted ↔ c.Accounted := by
  cases e with
  | outOfTime | noBuffer | notCopied | notDrained => exact accounted_disConnect
  | taken => rfl

theorem accounted_onEvent (event : UInt16) : (c.onEvent event).Accounted ↔ c.Accounted := by
  unfold onEvent
  split
  · exact accounted_disConnect
  · split
    · exact accounted_disConnect
    · split
      · exact accounted_tcpClieSetconn
      · exact accounted_disConnect

/-- Whatever the event is, the timer is gone. -/
theorem timev_onEvent (event : UInt16) : (c.onEvent event).timev_.ptr = none := by
  unfold onEvent
  split_ifs <;> exact OwnedPtr.ptr_release

theorem accounted_afterConnect : (c.afterConnect env).1.Accounted ↔
    (0 ≤ env.connect ∨ c.timev_.ptr ≠ none) ∧ c.Accounted := by
  unfold afterConnect
  by_cases hneg : env.connect < 0
  · rw [if_pos hneg, or_iff_right (Int.not_le.mpr hneg)]
    exact (and_congr_left' OwnedPtr.accounted_free).trans and_assoc
  · rw [if_neg hneg, and_iff_right (.inl (Int.not_lt.mp hneg))]
    split
    · rename_i hsome
      refine and_congr_right' (OwnedPtr.accounted_deref.trans (and_iff_right ?_))
      exact Option.isSome_iff_ne_none.mp hsome
    · rfl

/-- A failed connect frees the timer, which is there unless libevent has called back. -/
theorem accounted_startConnect (ht : c.timev_.ptr.isSome) :
    (c.startConnect env).1.Accounted ↔
      (0 ≤ env.connect ∨ env.callback = none) ∧ c.Accounted := by
  refine accounted_afterConnect.trans (and_congr ?_ ?_)
  · cases hcall : env.callback with
    | none => simp [Option.isSome_iff_ne_none.mp ht]
    | some event => simp [timev_onEvent event]
  · cases env.callback with
    | none => rfl
    | some event => exact accounted_onEvent event

theorem accounted_newTimer (ok : Bool) :
    (c.newTimer ok).Accounted ↔ c.timev_.ptr = none ∧ c.Accounted :=
  (and_congr_left' OwnedPtr.accounted_create).trans and_assoc

theorem accounted_newBev (ok : Bool) :
    (c.newBev ok).Accounted ↔ c.bev_.ptr = none ∧ c.Accounted :=
  (and_congr_right' OwnedPtr.accounted_create).trans and_left_comm

theorem accounted_connectServer : (c.connectServer env).1.Accounted ↔
    CarefulConnect c env ∧ c.Accounted := by
  unfold connectServer CarefulConnect
  by_cases hbad : c.BadParameter env.eBase
  · rw [if_pos hbad, and_iff_right (.inl hbad)]
  rw [if_neg hbad, or_iff_right hbad]
  by_cases htimer : env.timer = true
  · have hsome : (c.newTimer env.timer).timev_.ptr.isSome := OwnedPtr.isSome_create.trans htimer
    -- whatever comes behind the bufferevent, both must have been null
    have hboth : ((c.newTimer env.timer).newBev env.bufferevent).Accounted ↔
        c.bev_.ptr = none ∧ c.timev_.ptr = none ∧ c.Accounted :=
      (accounted_newBev _).trans (and_congr_right' (accounted_newTimer _))
    rw [if_neg (not_not.mpr htimer)]
    by_cases hbev : env.bufferevent = true
    · rw [if_neg (not_not.mpr hbev)]
      by_cases hen : env.enabled < 0
      · rw [if_pos hen, hboth]
        simp only [htimer, hbev, Int.not_le.mpr hen, false_implies, implies_true, true_implies,
          and_true]
        tauto
      · have hstart : (((c.newTimer env.timer).newBev env.bufferevent).startConnect env).1.Accounted ↔
            (0 ≤ env.connect ∨ env.callback = none) ∧
              ((c.newTimer env.timer).newBev env.bufferevent).Accounted :=
          accounted_startConnect hsome
        rw [if_neg hen, hstart, hboth]
        simp only [htimer, hbev, Int.not_lt.mp hen, true_implies]
        tauto
    · rw [if_pos hbev, hboth]
      simp only [htimer, true_implies]
      tauto
  · rw [if_pos htimer, accounted_newTimer]
    tauto

@[simp] theorem destroyed_onEvent (event : UInt16) : (c.onEvent event).destroyed = c.destroyed := by
  unfold onEvent
  split_ifs <;> rfl

theorem destroyed_startConnect : (c.startConnect env).1.destroyed = c.destroyed := by
  have hafter : ∀ c' : EventClient, (c'.afterConnect env).1.destroyed = c'.destroyed := by
    intro c'
    unfold afterConnect
    split_ifs <;> rfl
  refine (hafter _).trans ?_
  cases env.callback with
  | none => rfl
  | some event => exact destroyed_onEvent event

@[simp] theorem destroyed_connectServer : (c.connectServer env).1.destroyed = c.destroyed := by
  unfold connectServer
  split_ifs
  · rfl
  · rfl
  · exact destroyed_startConnect
  · rfl
  · rfl

theorem destroyed_act {a : ClientAct} (ha : a ≠ .destroy) : (c.act a).destroyed = c.destroyed := by
  cases a with
  | connectServer env => exact destroyed_connectServer
  | disConnect | tcpClieSetconn | writeBack => rfl
  | connectTimeout =>
    show c.connectTimeout.destroyed = c.destroyed
    unfold connectTimeout
    split <;> rfl
  | onMessage e => cases e <;> rfl
  | onEvent event => exact destroyed_onEvent event
  | destroy => exact absurd rfl ha

theorem accounted_act (a : ClientAct) : (c.act a).Accounted ↔ Careful c a ∧ c.Accounted := by
  cases a with
  | connectServer env => exact accounted_connectServer
  | disConnect => exact accounted_disConnect.trans (and_iff_right trivial).symm
  | tcpClieSetconn => exact accounted_tcpClieSetconn.trans (and_iff_right trivial).symm
  | connectTimeout => exact accounted_connectTimeout.trans (and_iff_right trivial).symm
  | onMessage e => exact (accounted_onMessage e).trans (and_iff_right trivial).symm
  | writeBack => exact (and_iff_right trivial).symm
  | onEvent event => exact (accounted_onEvent event).trans (and_iff_right trivial).symm
  | destroy => exact accounted_disConnect.trans (and_iff_right trivial).symm

end EventClient

/-! ## Runs -/

theorem clean_iff_of_alive {c : EventClient} (h : c.destroyed = false) : Clean c ↔ c.Accounted := by
  refine ⟨fun hc => ⟨hc.timer, hc.bufferevent⟩, fun hc => ⟨hc.1, hc.2, fun hd => ?_⟩⟩
  rw [h] at hd
  cases hd

/-- The destructor frees what is left. -/
theorem clean_destroy_iff {c : EventClient} : Clean c.destroy ↔ c.Accounted := by
  constructor
  · intro hc
    exact EventClient.accounted_disConnect.mp ⟨hc.timer, hc.bufferevent⟩
  · intro hc
    obtain ⟨htimer, hbev⟩ := EventClient.accounted_disConnect.mpr hc
    exact ⟨htimer, hbev, fun _ => ⟨htimer.all_freed OwnedPtr.ptr_release,
      hbev.all_freed OwnedPtr.ptr_release⟩⟩

/-- What one step does to `Clean`. -/
theorem next_clean_iff {ipaddr : Bytes} {port : Int} (c : EventClient) (a : ClientAct)
    (c' : EventClient) (h : (clientSystem ipaddr port).next c a = some c') :
    Clean c' ↔ Careful c a ∧ Clean c := by
  simp only [clientSystem] at h
  split at h
  · cases h
  rename_i halive
  cases h
  have hc : Clean c ↔ c.Accounted := clean_iff_of_alive (Bool.eq_false_iff.mpr halive)
  have hact : Clean (c.act a) ↔ (c.act a).Accounted := by
    by_cases ha : a = .destroy
    · subst ha
      exact clean_destroy_iff.trans EventClient.accounted_disConnect.symm
    · refine clean_iff_of_alive ?_
      rw [EventClient.destroyed_act ha]
      exact Bool.eq_false_iff.mpr halive
  rw [hact, hc, EventClient.accounted_act]

theorem clean_new (ipaddr : Bytes) (port : Int) : Clean (.new ipaddr port) :=
  ⟨OwnedPtr.accounted_null, OwnedPtr.accounted_null, fun h => Bool.noConfusion h⟩

/-- A run is clean if and only if each of its steps meets the condition. -/
theorem client_clean_iff {ipaddr : Bytes} {port : Int} (calls : List ClientAct) {c : EventClient}
    (h : (clientSystem ipaddr port).run (.new ipaddr port) calls = some c) :
    Clean c ↔ ((clientSystem ipaddr port).only Careful).run (.new ipaddr port) calls = some c := by
  have hrun := Sys.run_only_iff (S := clientSystem ipaddr port) (C := Careful) (I := Clean)
    next_clean_iff calls h
  exact hrun.trans (and_iff_left (clean_new ipaddr port))

/-- A connect, its timeout and the destructor. -/
theorem client_clean_timeout : ∃ c, (clientSystem [49] 80).run (.new [49] 80)
    [.connectServer ⟨true, true, true, 0, none, 0, 5⟩, .connectTimeout, .destroy] = some c ∧
    c.timev_.freed = [0] ∧ Clean c := by
  have hrun : (clientSystem [49] 80).run (.new [49] 80)
    [.connectServer ⟨true, true, true, 0, none, 0, 5⟩, .connectTimeout, .destroy] = some _ := rfl
  exact ⟨_, hrun, rfl, (client_clean_iff _ hrun).mpr rfl⟩

/-- libevent reports an error (`0x20`) from within the connect, which then fails: the timer is freed
again, with a null pointer. And a client that connects a second time: its first timer and bufferevent
are never freed. -/
theorem client_not_clean :
    (∃ c, (clientSystem [49] 80).run (.new [49] 80)
      [.connectServer ⟨true, true, true, 0, some 0x20, -1, 0⟩] = some c ∧
      c.timev_.misused = true ∧ ¬ Clean c) ∧
    ∃ c, (clientSystem [49] 80).run (.new [49] 80)
      [.connectServer ⟨true, true, true, -1, none, 0, 0⟩,
        .connectServer ⟨true, true, true, 0, none, 0, 5⟩, .destroy] = some c ∧
      c.timev_.made = 2 ∧ c.timev_.freed = [1] ∧ ¬ Clean c := by
  refine ⟨⟨_, rfl, rfl, fun h => ?_⟩, ⟨_, rfl, rfl, rfl, fun h => ?_⟩⟩
  · exact absurd h.timer.used (by decide)
  · exact absurd ((h.atEnd rfl).1 0 (by decide)) (by decide)

end LibeventTcpCli
end CmakeFrame
