import CmakeFrame.RedisAsyn.LibeventIo
import CmakeFrame.RedisAsyn.Reconnect
import Mathlib

/-!
# One notification per connection attempt

One client with its loop: connect orders, the contexts that hiredis makes for it, the connect
timers, and the notifications, each of which may give a new order.

* `orders_length_le_one`: what a notification can order; `report` has it as a flag.
* `CtxPhase`, `Closing`: what lives of a context, and what `redisAsyncDisconnect` does to it.
* `attemptSystem`: the client with all that can happen to it.
* `Phase`, `follows`: which calls and notifications follow each other if every attempt is reported
  once; `OneEach`: they do so, and an order finds no context alive.
* `Orderly`: the condition on a step; `Lives`: the invariant; `oneEach`: in every run whose steps all
  meet the condition.
* `failed_context_stays`: an order that comes while a context with `err` set is alive.

hiredis calls `connectCallback` once for each context, or frees it, and `disconnectCallback` at most
once for one that was connected. Commands change nothing of all this and are left out.
-/

namespace CmakeFrame
namespace RedisAsyn

open Lib

/-- A notification orders at most one new connection. -/
theorem orders_length_le_one {mgr : RedisMgr} {svr : RedisSvrInfo} {errMsg : Bytes} {state : ConnEvent}
    {r : RedisMgr × List Effect} (h : redisSvrOnConnect mgr svr errMsg state = some r) :
    (orders r.2).length ≤ 1 := by
  rw [(redisSvrOnConnect_orders svr errMsg h).2]
  split
  · rw [RedisMgr.found, List.length_map]
    cases mgr.reconnectCli svr <;> simp
  · simp

/-! ## Contexts -/

inductive CtxPhase where
  /-- `err` was set from the beginning: it has no callbacks, and nobody frees it. -/
  | failed
  | connecting
  | connected
  /-- `redisAsyncDisconnect` was called while it was connecting; `connectCallback` is to come. -/
  | closing
  /-- `redisAsyncDisconnect` was called and it is connected; `disconnectCallback` is to come. -/
  | leaving
  | dead
  deriving DecidableEq, Repr

/-- What `redisAsyncDisconnect` does: it frees the context without a callback, with the callback
inside of it, or later, when the last reply is there. -/
inductive Closing where
  | silent
  | inside
  | later
  deriving DecidableEq, Repr

/-- What has happened, for the history. -/
inductive Happening where
  /-- `connectServer` is called. -/
  | connect
  /-- `setReleaseState` is called. -/
  | release
  /-- `redisSvrOnConnect` is called. -/
  | report (state : ConnEvent)
  deriving DecidableEq, Repr

/-! ## The system -/

/-- `ctx` are the contexts in the order in which they were made, `timers` the connect timers that may
fire. A `client_` that is not null is the last context, a `timev_` the last timer. `waiting` is how
many connect orders are on their way. -/
structure AttemptState where
  cli : RedisClient
  table : List (Option Unit)
  ctx : Nat → CtxPhase
  ctxNum : Nat
  timers : List Nat
  timerNum : Nat
  waiting : Nat
  log : List Happening

inductive AttemptAct where
  /-- A connect order gets to the client. -/
  | take (io : ConnectIo) (c : Closing) (again : Bool)
  /-- The connect timer `t` fires. -/
  | connectTimeout (t : Nat) (c : Closing) (again again' : Bool)
  /-- hiredis calls back for the context `i`. -/
  | connectCallback (i : Nat) (epoch : UInt64) (ok again : Bool)
  | disconnectCallback (i : Nat) (again : Bool)
  | setReleaseState
  /-- The loop looks after its clients. -/
  | handleSecond (c : Closing) (again : Bool)
  deriving DecidableEq, Repr

/-- What the callbacks report for a client in the state. -/
def ConnState.lost : ConnState → ConnEvent
  | .init => .reset
  | .conn => .disconn

namespace AttemptState

/-- The notification; `again` is whether it orders a new connection. -/
def report (s : AttemptState) (state : ConnEvent) (again : Bool) : AttemptState :=
  { s with
    log := s.log ++ [.report state]
    waiting := if again = true ∧ state ≠ .success then s.waiting + 1 else s.waiting }

def setCtx (s : AttemptState) (i : Nat) (phase : CtxPhase) : AttemptState :=
  { s with ctx := Function.update s.ctx i phase }

/-- `redisAsyncDisconnect(client_)`, before `disConnect` goes on. A callback inside of it finds
`freeState_` already set, and only reports. -/
def redisAsyncDisconnect (c : Closing) (again : Bool) (s : AttemptState) : AttemptState :=
  let i := s.ctxNum - 1
  match s.ctx i, c with
  | .connecting, .silent => s.setCtx i .dead
  | .connecting, .inside => (s.setCtx i .dead).report s.cli.state_.lost again
  | .connecting, .later => s.setCtx i .closing
  | .connected, .silent => s.setCtx i .dead
  | .connected, .inside => (s.setCtx i .dead).report s.cli.state_.lost again
  | .connected, .later => s.setCtx i .leaving
  | .failed, _ => s.setCtx i .dead
  | .closing, _ => s
  | .leaving, _ => s
  | .dead, _ => s

/-- The timers behind `freeTimeEvent`. -/
def timersLeft (s : AttemptState) : List Nat :=
  if s.cli.timev_ then s.timers.erase (s.timerNum - 1) else s.timers

/-- `disConnect(isFree)`. -/
def disConnect (isFree : Bool) (c : Closing) (again : Bool) (s : AttemptState) : AttemptState :=
  match s.cli.freeState_ with
  | .already => s
  | .needFree =>
    let s := { s with timers := s.timersLeft }
    let s := if isFree = true ∧ s.cli.client_ = true then s.redisAsyncDisconnect c again else s
    { s with cli := (s.cli.disConnect isFree).1 }

/-- The contexts and timers that `connectServer` makes. -/
def connectServer (io : ConnectIo) (s : AttemptState) : AttemptState :=
  let s := { s with log := s.log ++ [.connect], cli := (s.cli.connectServer io).2 }
  let made : CtxPhase → AttemptState := fun phase =>
    { s.setCtx s.ctxNum phase with ctxNum := s.ctxNum + 1 }
  match io with
  | .badParam => s
  | .noContext => s
  | .contextErr => made .failed
  | .noTimer => made .connecting
  | .ok => { made .connecting with timers := s.timers ++ [s.timerNum], timerNum := s.timerNum + 1 }

/-- A callback reports that the connection is lost, and the context is freed behind it. -/
def lose (i : Nat) (again : Bool) (s : AttemptState) : AttemptState :=
  ((s.disConnect false .silent false).report s.cli.state_.lost again).setCtx i .dead

/-- `connectCallback` with `REDIS_OK`; the context is then in the phase `phase`. -/
def establish (i : Nat) (phase : CtxPhase) (epoch : UInt64) (again : Bool) (s : AttemptState) :
    AttemptState :=
  AttemptState.report { s.setCtx i phase with
    timers := s.timersLeft, cli := s.cli.setStateConnected epoch } .success again

def next (s : AttemptState) : AttemptAct → Option AttemptState
  | .take io c again =>
    if s.waiting = 0 then none
    else
      let s := { s with waiting := s.waiting - 1 }
      match s.cli.state_ with
      | .init =>
        let s := { s with table := ioAddRedisClient () s.table }
        let ret := (s.cli.connectServer io).1
        some (if ret ≠ 0 then (s.connectServer io).report .reset again else s.connectServer io)
      | .conn => some (s.disConnect true c again)
  | .connectTimeout t c again again' =>
    if t ∈ s.timers then
      let s := { s with timers := s.timers.erase t }
      match s.cli.state_ with
      | .init => some ((s.disConnect true c again).report .reset again')
      | .conn => some s
    else none
  | .connectCallback i epoch ok again =>
    match s.ctx i with
    | .connecting => some (if ok then s.establish i .connected epoch again else s.lose i again)
    | .closing => some (if ok then s.establish i .leaving epoch again else s.lose i again)
    | .failed => none
    | .connected => none
    | .leaving => none
    | .dead => none
  | .disconnectCallback i again =>
    match s.ctx i with
    | .connected => some (s.lose i again)
    | .leaving => some (s.lose i again)
    | .failed => none
    | .connecting => none
    | .closing => none
    | .dead => none
  | .setReleaseState =>
    some { s with cli := s.cli.setReleaseState, log := s.log ++ [.release] }
  | .handleSecond c again =>
    -- a client that was released is disconnected and taken out of the table
    if s.cli.releaseState_ = true ∧ s.table.contains (some ()) = true then
      some { s.disConnect true c again with table := s.table.map fun _ => none }
    else none

end AttemptState

/-- A new client with its first connect order. -/
def attemptSystem (keepAliveSecond : Int32) : Sys AttemptState AttemptAct where
  init :=
    { cli := RedisClient.new keepAliveSecond
      table := []
      ctx := fun _ => .dead
      ctxNum := 0
      timers := []
      timerNum := 0
      waiting := 1
      log := [] }
  next := AttemptState.next

/-! ## The property -/

/-- Where the history of a client stands. -/
inductive Phase where
  | idle
  /-- `connectServer` was called, and nothing is reported. -/
  | trying
  | up
  /-- Released; `live` is whether a success has not been followed by the end of its connection. -/
  | released (live : Bool)
  deriving DecidableEq, Repr

def Phase.step : Phase → Happening → Option Phase
  | .idle, .connect => some .trying
  | .idle, .release => some (.released false)
  | .idle, .report _ => none
  | .trying, .connect => none
  | .trying, .release => some (.released false)
  | .trying, .report .success => some .up
  | .trying, .report .reset => some .idle
  | .trying, .report .disconn => none
  | .up, .connect => none
  | .up, .release => some (.released true)
  | .up, .report .success => none
  | .up, .report .reset => none
  | .up, .report .disconn => some .idle
  -- a connection of a released client may go without a report
  | .released _, .connect => some (.released false)
  | .released live, .release => some (.released live)
  | .released false, .report .success => some (.released true)
  | .released false, .report .reset => some (.released false)
  | .released false, .report .disconn => none
  | .released true, .report .success => none
  | .released true, .report .reset => none
  | .released true, .report .disconn => some (.released false)

/-- The phase behind a history; `none` if an attempt has two reports before a release, a success has
two ends, or a report is of the wrong kind. -/
def follows (log : List Happening) : Option Phase := log.foldlM Phase.step .idle

/-- Every attempt that has ended was reported once, an attempt that has not been reported has its
timer, and an order finds no context alive: it connects beside none, and closes none. -/
structure OneEach (s : AttemptState) : Prop where
  once : follows s.log ≠ none
  timer : follows s.log = some .trying → s.timers ≠ []
  alone : 0 < s.waiting → ∀ i, s.ctx i = .dead

/-! ## The condition -/

/-- A context that is made gets its timer, a context that the timer closes is freed without a
callback, and the one of a released client that is connected not later. -/
def Orderly (s : AttemptState) : AttemptAct → Prop
  | .take io _ _ => s.cli.state_ = .init → io ≠ .contextErr ∧ io ≠ .noTimer
  | .connectTimeout _ c _ _ => s.cli.state_ = .init → c = .silent
  | .connectCallback _ _ _ _ => True
  | .disconnectCallback _ _ => True
  | .setReleaseState => True
  | .handleSecond c _ => s.cli.state_ = .conn → c ≠ .later

instance (s : AttemptState) (a : AttemptAct) : Decidable (Orderly s a) :=
  match a with
  | .take io _ _ =>
    inferInstanceAs (Decidable (s.cli.state_ = .init → io ≠ .contextErr ∧ io ≠ .noTimer))
  | .connectTimeout _ c _ _ => inferInstanceAs (Decidable (s.cli.state_ = .init → c = .silent))
  | .connectCallback _ _ _ _ => instDecidableTrue
  | .disconnectCallback _ _ => instDecidableTrue
  | .setReleaseState => instDecidableTrue
  | .handleSecond c _ => inferInstanceAs (Decidable (s.cli.state_ = .conn → c ≠ .later))

/-! ## The invariant -/

/-- What lives of a client; `closing`, `leaving` and `stuck` only behind a release. -/
inductive Kind where
  | none
  | trying
  | up
  /-- Disconnected while it was connecting; the context is still to call back. -/
  | closing
  /-- Connected behind that. -/
  | leaving
  /-- The connection behind that is gone, and `state_` was left. -/
  | stuck
  deriving DecidableEq, Repr

namespace Kind

def state : Kind → ConnState
  | .none => .init
  | .trying => .init
  | .up => .conn
  | .closing => .init
  | .leaving => .conn
  | .stuck => .conn

def free : Kind → FreeState
  | .none => .already
  | .trying => .needFree
  | .up => .needFree
  | .closing => .already
  | .leaving => .already
  | .stuck => .already

/-- The last context. -/
def phase : Kind → CtxPhase
  | .none => .dead
  | .trying => .connecting
  | .up => .connected
  | .closing => .closing
  | .leaving => .leaving
  | .stuck => .dead

/-- Where the history may stand. -/
def fits : Kind → List Phase
  | .none => [.idle, .released false, .released true]
  | .trying => [.trying, .released false]
  | .up => [.up, .released true]
  | .closing => [.released false]
  | .leaving => [.released true]
  | .stuck => [.released false]

/-- What a lost connection leaves. -/
def lost : Kind → Kind
  | .none => .none
  | .trying => .none
  | .up => .none
  | .closing => .none
  | .leaving => .stuck
  | .stuck => .stuck

end Kind

/-- The client, its contexts and timers are those of the kind: at most one context lives, and an order
waits only if none does. -/
structure Lives (s : AttemptState) (k : Kind) : Prop where
  state : s.cli.state_ = k.state
  free : s.cli.freeState_ = k.free
  client : k.free = .needFree → s.cli.client_ = true
  timev : k = .trying → s.cli.timev_ = true
  timers : s.timers = if k = .trying then [s.timerNum - 1] else []
  last : k.phase ≠ .dead → 0 < s.ctxNum
  ctx : ∀ i, s.ctx i = if i = s.ctxNum - 1 then k.phase else .dead
  waiting : s.waiting ≤ if k.phase = .dead then 1 else 0

/-- The history stands where it may. -/
structure Stands (s : AttemptState) (k : Kind) (p : Phase) : Prop where
  lives : Lives s k
  follows : follows s.log = some p
  fits : p ∈ k.fits
  released : s.cli.releaseState_ = true → ∃ live, p = .released live

section Steps

variable {s s' : AttemptState} {k : Kind} {p : Phase}

theorem follows_append (log log' : List Happening) :
    follows (log ++ log') = (follows log).bind fun p => log'.foldlM Phase.step p := by
  simp [follows, List.foldlM_append]

theorem Stands.one (h : Stands s k p) : OneEach s := by
  refine ⟨by simp [h.follows], fun htry => ?_, fun hw i => ?_⟩
  · cases h.follows.symm.trans htry
    have hk : k = .trying := by
      cases k with
      | trying => rfl
      | none => exact absurd h.fits (by decide)
      | up => exact absurd h.fits (by decide)
      | closing => exact absurd h.fits (by decide)
      | leaving => exact absurd h.fits (by decide)
      | stuck => exact absurd h.fits (by decide)
    rw [h.lives.timers, if_pos hk]
    simp
  · have hdead : k.phase = .dead := by
      by_contra hne
      have := h.lives.waiting
      rw [if_neg hne] at this
      omega
    rw [h.lives.ctx, hdead, ite_self]

theorem Lives.timersLeft (h : Lives s k) : s.timersLeft = [] := by
  unfold AttemptState.timersLeft
  rw [h.timers]
  by_cases hk : k = .trying
  · rw [if_pos hk, if_pos (h.timev hk)]
    simp
  · rw [if_neg hk]
    simp

theorem Lives.waiting_eq (h : Lives s k) (hk : k.phase ≠ .dead) : s.waiting = 0 := by
  have hle := h.waiting
  rw [if_neg hk] at hle
  omega

/-- The client behind a `disConnect` that does something. -/
theorem disConnect_cli {c : RedisClient} (hf : c.freeState_ = .needFree) (isFree : Bool) :
    (c.disConnect isFree).1.state_ = .init ∧ (c.disConnect isFree).1.freeState_ = .already ∧
      (c.disConnect isFree).1.releaseState_ = c.releaseState_ := by
  unfold RedisClient.disConnect
  rw [hf]
  cases isFree <;> exact ⟨rfl, rfl, rfl⟩

theorem disConnect_already (hf : s.cli.freeState_ = .already) (isFree : Bool) (c : Closing)
    (again : Bool) : s.disConnect isFree c again = s := by
  simp only [AttemptState.disConnect, hf]

theorem disConnect_keep (hf : s.cli.freeState_ = .needFree) (c : Closing) (again : Bool) :
    s.disConnect false c again =
      { s with timers := s.timersLeft, cli := (s.cli.disConnect false).1 } := by
  simp only [AttemptState.disConnect, hf, Bool.false_eq_true, false_and, if_false]

/-- No context lives: the state of the client is what is left of it. -/
theorem lives_dead (hk : k = .none ∨ k = .stuck) (hstate : s.cli.state_ = k.state)
    (hfree : s.cli.freeState_ = .already) (htimers : s.timers = []) (hctx : ∀ i, s.ctx i = .dead)
    (hw : s.waiting ≤ 1) : Lives s k := by
  rcases hk with rfl | rfl
  · exact ⟨hstate, hfree, by simp [Kind.free], by simp, by simp [htimers], by simp [Kind.phase],
      by simp [hctx, Kind.phase], by simpa [Kind.phase] using hw⟩
  · exact ⟨hstate, hfree, by simp [Kind.free], by simp, by simp [htimers], by simp [Kind.phase],
      by simp [hctx, Kind.phase], by simpa [Kind.phase] using hw⟩

theorem Lives.update_ctx (h : Lives s k) (phase : CtxPhase) (i : Nat) :
    Function.update s.ctx (s.ctxNum - 1) phase i = if i = s.ctxNum - 1 then phase else .dead := by
  by_cases hi : i = s.ctxNum - 1
  · rw [if_pos hi, hi, Function.update_self]
  · rw [if_neg hi, Function.update_of_ne hi, h.ctx, if_neg hi]

theorem Lives.update_dead (h : Lives s k) (i : Nat) :
    Function.update s.ctx (s.ctxNum - 1) .dead i = .dead := by
  rw [h.update_ctx, ite_self]

theorem report_waiting (hw : s.waiting = 0) (state : ConnEvent) (again : Bool) :
    (s.report state again).waiting ≤ 1 := by
  simp only [AttemptState.report, hw]
  split <;> omega

/-- A lost connection: its callback reports by the state. -/
theorem Lives.lose (h : Lives s k) (hk : k.phase ≠ .dead) (again : Bool) :
    Lives (s.lose (s.ctxNum - 1) again) k.lost ∧
      (s.lose (s.ctxNum - 1) again).log = s.log ++ [.report k.state.lost] ∧
      (s.lose (s.ctxNum - 1) again).cli.releaseState_ = s.cli.releaseState_ := by
  have hw := h.waiting_eq hk
  have hfree := h.free
  cases hf : k.free with
  | needFree =>
    rw [hf] at hfree
    obtain ⟨hstate, hfree', hrel⟩ := disConnect_cli hfree false
    have hnone : k.lost = .none := by
      cases k <;> first | rfl | cases hf
    unfold AttemptState.lose
    rw [disConnect_keep hfree, h.timersLeft, h.state, hnone]
    exact ⟨lives_dead (.inl rfl) hstate hfree' rfl h.update_dead (report_waiting hw _ _), rfl, hrel⟩
  | already =>
    rw [hf] at hfree
    have htimers : s.timers = [] := by
      rw [h.timers, if_neg]
      rintro rfl
      cases hf
    unfold AttemptState.lose
    rw [disConnect_already hfree, h.state]
    refine ⟨lives_dead ?_ ?_ hfree htimers h.update_dead (report_waiting hw _ _), rfl, rfl⟩
    · cases k <;> simp [Kind.lost]
    · cases k with
      | closing => exact h.state
      | leaving => exact h.state
      | none => exact absurd rfl hk
      | stuck => exact absurd rfl hk
      | trying => cases hf
      | up => cases hf

theorem Lives.disConnect_free (h : Lives s k) (hf : k.free = .needFree) (c : Closing) (again : Bool) :
    s.disConnect true c again =
      { AttemptState.redisAsyncDisconnect c again { s with timers := [] } with
        cli := (s.cli.disConnect true).1 } := by
  have hfree : s.cli.freeState_ = .needFree := h.free.trans hf
  have hcli : (AttemptState.redisAsyncDisconnect c again { s with timers := [] }).cli = s.cli := by
    unfold AttemptState.redisAsyncDisconnect
    simp only
    split <;> rfl
  simp only [AttemptState.disConnect, hfree, h.client hf, h.timersLeft, and_self, if_true, hcli]

theorem Lives.alive (_ : Lives s k) (hf : k.free = .needFree) : k.phase ≠ .dead := by
  cases k <;> first | (cases hf; done) | simp [Kind.phase]

/-- A context that lives and is to be freed is connecting or connected. -/
theorem Lives.last_ctx (h : Lives s k) (hf : k.free = .needFree) :
    s.ctx (s.ctxNum - 1) = .connecting ∨ s.ctx (s.ctxNum - 1) = .connected := by
  rw [h.ctx, if_pos rfl]
  cases k with
  | trying => exact .inl rfl
  | up => exact .inr rfl
  | none => cases hf
  | closing => cases hf
  | leaving => cases hf
  | stuck => cases hf

/-- `disConnect(true)` without a callback: nothing is left of an attempt or a connection. -/
theorem Lives.disConnect_silent (h : Lives s k) (hf : k.free = .needFree) (again : Bool) :
    Lives (s.disConnect true .silent again) .none ∧ (s.disConnect true .silent again).log = s.log ∧
      (s.disConnect true .silent again).waiting = 0 ∧
      (s.disConnect true .silent again).cli.releaseState_ = s.cli.releaseState_ := by
  obtain ⟨hstate, hfree, hrel⟩ := disConnect_cli (h.free.trans hf) true
  have hw := h.waiting_eq (h.alive hf)
  have hctx : AttemptState.redisAsyncDisconnect .silent again { s with timers := [] } =
      { s with timers := [], ctx := Function.update s.ctx (s.ctxNum - 1) .dead } := by
    rcases h.last_ctx hf with hl | hl <;> simp only [AttemptState.redisAsyncDisconnect, hl] <;> rfl
  rw [h.disConnect_free hf, hctx]
  exact ⟨lives_dead (.inl rfl) hstate hfree rfl h.update_dead (by simp [hw]), rfl, hw, hrel⟩

/-- With the callback inside of it: it reports by the state. -/
theorem Lives.disConnect_inside (h : Lives s k) (hf : k.free = .needFree) (again : Bool) :
    Lives (s.disConnect true .inside again) .none ∧
      (s.disConnect true .inside again).log = s.log ++ [.report k.state.lost] ∧
      (s.disConnect true .inside again).cli.releaseState_ = s.cli.releaseState_ := by
  obtain ⟨hstate, hfree, hrel⟩ := disConnect_cli (h.free.trans hf) true
  have hw := h.waiting_eq (h.alive hf)
  have hctx : AttemptState.redisAsyncDisconnect .inside again { s with timers := [] } =
      ({ s with timers := [], ctx := Function.update s.ctx (s.ctxNum - 1) .dead } :
        AttemptState).report k.state.lost again := by
    rcases h.last_ctx hf with hl | hl <;>
      simp only [AttemptState.redisAsyncDisconnect, hl, h.state] <;> rfl
  rw [h.disConnect_free hf, hctx]
  exact ⟨lives_dead (.inl rfl) hstate hfree rfl h.update_dead (report_waiting hw _ _), rfl, hrel⟩

/-- An attempt that is still to call back. -/
theorem Lives.disConnect_later (h : Lives s .trying) (again : Bool) :
    Lives (s.disConnect true .later again) .closing ∧ (s.disConnect true .later again).log = s.log ∧
      (s.disConnect true .later again).cli.releaseState_ = s.cli.releaseState_ := by
  obtain ⟨hstate, hfree, hrel⟩ := disConnect_cli h.free true
  have hw := h.waiting_eq (by simp [Kind.phase])
  have hl : s.ctx (s.ctxNum - 1) = .connecting := by rw [h.ctx, if_pos rfl]; rfl
  have hctx : AttemptState.redisAsyncDisconnect .later again { s with timers := [] } =
      { s with timers := [], ctx := Function.update s.ctx (s.ctxNum - 1) .closing } := by
    simp only [AttemptState.redisAsyncDisconnect, hl]
    rfl
  rw [h.disConnect_free rfl, hctx]
  refine ⟨⟨hstate, hfree, by simp [Kind.free], by simp, rfl, fun _ => h.last (by simp [Kind.phase]),
    h.update_ctx _, by simp [hw]⟩, rfl, hrel⟩

/-! ## Steps -/

theorem step_one {e : Happening} {p' : Phase} (h : p.step e = some p') :
    [e].foldlM Phase.step p = some p' := by
  simp [h]

/-- The history goes on. -/
theorem Stands.more (h : Stands s k p) {k' : Kind} {log : List Happening} {p' : Phase}
    (hl : Lives s' k') (hlog : s'.log = s.log ++ log) (hp : log.foldlM Phase.step p = some p')
    (hfits : p' ∈ k'.fits) (hrel : s'.cli.releaseState_ = s.cli.releaseState_)
    (hkeep : (∃ live, p = .released live) → ∃ live, p' = .released live) : Stands s' k' p' := by
  refine ⟨hl, ?_, hfits, fun hr => hkeep (h.released (hrel.symm.trans hr))⟩
  rw [hlog, follows_append, h.follows]
  exact hp

/-- The report of a lost connection fits to what lived. -/
theorem step_lost (hk : k.phase ≠ .dead) (hp : p ∈ k.fits) :
    ∃ p', p.step (.report k.state.lost) = some p' ∧ p' ∈ k.lost.fits ∧
      ((∃ live, p = .released live) → ∃ live, p' = .released live) := by
  cases k <;> rcases p with _ | _ | _ | (_ | _) <;>
    simp_all [Kind.fits, Kind.phase, Kind.state, Kind.lost, ConnState.lost, Phase.step]

/-- Nothing is reported. -/
theorem Stands.same (h : Stands s k p) {k' : Kind} (hl : Lives s' k') (hlog : s'.log = s.log)
    (hfits : p ∈ k'.fits) (hrel : s'.cli.releaseState_ = s.cli.releaseState_) : Stands s' k' p :=
  ⟨hl, hlog ▸ h.follows, hfits, fun hr => h.released (hrel.symm.trans hr)⟩

theorem ctx_alive (h : Lives s k) {i : Nat} (hi : s.ctx i ≠ .dead) :
    i = s.ctxNum - 1 ∧ s.ctx i = k.phase ∧ k.phase ≠ .dead := by
  rw [h.ctx] at hi ⊢
  split at hi
  · rename_i heq
    exact ⟨heq, if_pos heq, hi⟩
  · exact absurd rfl hi

/-- A callback that reports a lost connection. -/
theorem Stands.lose (h : Stands s k p) {i : Nat} (hi : s.ctx i ≠ .dead) (again : Bool) :
    ∃ k' p', Stands (s.lose i again) k' p' := by
  obtain ⟨rfl, -, hk⟩ := ctx_alive h.lives hi
  obtain ⟨hl, hlog, hrel⟩ := h.lives.lose hk again
  obtain ⟨p', hstep, hfits, hkeep⟩ := step_lost hk h.fits
  exact ⟨_, p', h.more hl hlog (step_one hstep) hfits hrel hkeep⟩

/-- What an order finds: no context, and no other order. -/
theorem Lives.taken (h : Lives s k) (hw : s.waiting ≠ 0) :
    (k = .none ∨ k = .stuck) ∧ s.waiting = 1 ∧ ∀ i, s.ctx i = .dead := by
  have hdead : k.phase = .dead := by
    by_contra hne
    exact hw (h.waiting_eq hne)
  have hle := h.waiting
  rw [if_pos hdead] at hle
  refine ⟨?_, by omega, fun i => by rw [h.ctx, hdead, ite_self]⟩
  cases k with
  | none => exact .inl rfl
  | stuck => exact .inr rfl
  | trying => cases hdead
  | up => cases hdead
  | closing => cases hdead
  | leaving => cases hdead

/-- A report about a client of which nothing lives. -/
theorem Lives.report (h : Lives s .none) (hw : s.waiting = 0) (state : ConnEvent) (again : Bool) :
    Lives (s.report state again) .none :=
  { h with waiting := by simpa [Kind.phase] using report_waiting hw state again }

/-- `connectServer` that fails at once makes nothing. -/
theorem Stands.connectFails (h : Stands s .none p) {io : ConnectIo} (hio : io = .badParam ∨ io = .noContext)
    (hw : s.waiting = 0) (again : Bool) :
    ∃ k' p', Stands ((s.connectServer io).report .reset again) k' p' := by
  have hcli : Lives (s.connectServer io) .none ∧ (s.connectServer io).waiting = 0 ∧
      ((s.connectServer io).report .reset again).log = s.log ++ [.connect, .report .reset] ∧
      (s.connectServer io).cli.releaseState_ = s.cli.releaseState_ := by
    rcases hio with rfl | rfl
    · exact ⟨{ h.lives with }, hw, by simp [AttemptState.report, AttemptState.connectServer], rfl⟩
    · exact ⟨{ h.lives with client := by simp [Kind.free] }, hw,
        by simp [AttemptState.report, AttemptState.connectServer], rfl⟩
  obtain ⟨hl, hw', hlog, hrel⟩ := hcli
  have hfits := h.fits
  suffices hp : ∃ p', [Happening.connect, .report .reset].foldlM Phase.step p = some p' ∧
      p' ∈ Kind.none.fits ∧ ((∃ live, p = .released live) → ∃ live, p' = .released live) by
    obtain ⟨p', hstep, hfits', hkeep⟩ := hp
    exact ⟨_, p', h.more (hl.report hw' _ _) hlog hstep hfits' hrel hkeep⟩
  rcases p with _ | _ | _ | (_ | _) <;> simp_all [Kind.fits, Phase.step, List.foldlM]

/-- An attempt begins. -/
theorem Stands.connectStarts (h : Stands s .none p) (hw : s.waiting = 0) (hctx : ∀ i, s.ctx i = .dead) :
    ∃ k' p', Stands (s.connectServer .ok) k' p' := by
  have hl : Lives (s.connectServer .ok) .trying := by
    refine ⟨h.lives.state, rfl, fun _ => rfl, fun _ => rfl, ?_, fun _ => Nat.succ_pos _, fun i => ?_, ?_⟩
    · have htimers : s.timers = [] := h.lives.timers
      simp [AttemptState.connectServer, htimers]
    · by_cases hi : i = s.ctxNum
      · simp [AttemptState.connectServer, AttemptState.setCtx, hi, Kind.phase]
      · simp [AttemptState.connectServer, AttemptState.setCtx, hi, hctx]
    · exact hw.le.trans (Nat.zero_le _)
  have hfits := h.fits
  suffices hp : ∃ p', [Happening.connect].foldlM Phase.step p = some p' ∧
      p' ∈ Kind.trying.fits ∧ ((∃ live, p = .released live) → ∃ live, p' = .released live) by
    obtain ⟨p', hstep, hfits', hkeep⟩ := hp
    exact ⟨_, p', h.more hl rfl hstep hfits' rfl hkeep⟩
  rcases p with _ | _ | _ | (_ | _) <;> simp_all [Kind.fits, Phase.step, List.foldlM]

theorem Stands.take (h : Stands s k p) {io : ConnectIo} {c : Closing} {again : Bool}
    (hc : Orderly s (.take io c again)) (hs : s.next (.take io c again) = some s') :
    ∃ k' p', Stands s' k' p' := by
  simp only [AttemptState.next] at hs
  split at hs
  · cases hs
  rename_i hw
  obtain ⟨hk, hw1, hctx⟩ := h.lives.taken hw
  have hstate := h.lives.state
  have hw0 : s.waiting - 1 = 0 := by omega
  rcases hk with rfl | rfl
  · replace hstate : s.cli.state_ = .init := hstate
    simp only [hstate, Option.some.injEq] at hs
    have h' : Stands { s with waiting := s.waiting - 1, table := ioAddRedisClient () s.table } .none p :=
      { h with lives := { h.lives with waiting := by simp [hw0] } }
    cases io with
    | badParam =>
      rw [← hs]
      exact h'.connectFails (.inl rfl) hw0 again
    | noContext =>
      rw [← hs]
      exact h'.connectFails (.inr rfl) hw0 again
    | contextErr => exact absurd rfl (hc hstate).1
    | noTimer => exact absurd rfl (hc hstate).2
    | ok =>
      rw [← hs]
      exact h'.connectStarts hw0 hctx
  · replace hstate : s.cli.state_ = .conn := hstate
    have hfree : s.cli.freeState_ = .already := h.lives.free
    simp only [hstate, Option.some.injEq] at hs
    rw [@disConnect_already { s with waiting := s.waiting - 1 } hfree] at hs
    subst hs
    exact ⟨.stuck, p, { h with lives := { h.lives with waiting := by simp [hw0] } }⟩

/-- The timer that fires is one that `disConnect` would free. -/
theorem disConnect_fired (hleft : s.timersLeft = []) (hf : s.cli.freeState_ = .needFree) (t : Nat)
    (ht : s.timers.erase t = []) (isFree : Bool) (c : Closing) (again : Bool) :
    AttemptState.disConnect isFree c again { s with timers := s.timers.erase t } =
      s.disConnect isFree c again := by
  have hleft' : AttemptState.timersLeft { s with timers := s.timers.erase t } = [] := by
    simp [AttemptState.timersLeft, ht]
  simp only [AttemptState.disConnect, hf, hleft, hleft']

theorem Stands.connectTimeout (h : Stands s k p) {t : Nat} {c : Closing} {again again' : Bool}
    (hc : Orderly s (.connectTimeout t c again again'))
    (hs : s.next (.connectTimeout t c again again') = some s') : ∃ k' p', Stands s' k' p' := by
  simp only [AttemptState.next] at hs
  split at hs
  · rename_i ht
    -- only an attempt has a timer
    obtain rfl : k = .trying := by
      by_contra hne
      rw [h.lives.timers, if_neg hne] at ht
      cases ht
    have hstate : s.cli.state_ = .init := h.lives.state
    obtain rfl : c = .silent := hc hstate
    have herase : s.timers.erase t = [] := by
      rw [h.lives.timers, if_pos rfl] at ht ⊢
      rw [List.mem_singleton.mp ht]
      simp
    simp only [hstate, Option.some.injEq] at hs
    rw [disConnect_fired h.lives.timersLeft h.lives.free t herase] at hs
    subst hs
    obtain ⟨hl, hlog, hw, hrel⟩ := h.lives.disConnect_silent rfl again
    obtain ⟨p', hstep, hfits, hkeep⟩ := step_lost (k := .trying) (by simp [Kind.phase]) h.fits
    have hlog' : ((s.disConnect true .silent again).report .reset again').log =
        s.log ++ [.report .reset] := by
      rw [AttemptState.report, hlog]
    exact ⟨.none, p', h.more (hl.report hw _ _) hlog' (step_one hstep) hfits hrel hkeep⟩
  · cases hs

/-- What a connection is behind its `connectCallback`. -/
theorem Lives.establish (h : Lives s k) (hk : k.phase ≠ .dead) (k' : Kind)
    (hk' : k = .trying ∧ k' = .up ∨ k = .closing ∧ k' = .leaving) (epoch : UInt64) (again : Bool) :
    Lives (s.establish (s.ctxNum - 1) k'.phase epoch again) k' := by
  have hw := h.waiting_eq hk
  have hleft := h.timersLeft
  have hw' : (s.establish (s.ctxNum - 1) k'.phase epoch again).waiting = 0 := by
    simp [AttemptState.establish, AttemptState.report, AttemptState.setCtx, hw]
  rcases hk' with ⟨rfl, rfl⟩ | ⟨rfl, rfl⟩
  · exact ⟨rfl, h.free, fun _ => h.client rfl, by simp, hleft, fun _ => h.last hk, h.update_ctx _, by simp [hw']⟩
  · exact ⟨rfl, h.free, by simp [Kind.free], by simp, hleft, fun _ => h.last hk, h.update_ctx _, by simp [hw']⟩

theorem Stands.connectCallback (h : Stands s k p) {i : Nat} {epoch : UInt64} {ok again : Bool}
    (hs : s.next (.connectCallback i epoch ok again) = some s') : ∃ k' p', Stands s' k' p' := by
  simp only [AttemptState.next] at hs
  split at hs
  · rename_i hi
    have halive : s.ctx i ≠ .dead := by simp [hi]
    cases ok with
    | false =>
      cases hs
      exact h.lose halive again
    | true =>
      cases hs
      obtain ⟨rfl, hphase, hk⟩ := ctx_alive h.lives halive
      obtain rfl : k = .trying := by
        rw [hi] at hphase
        cases k <;> first | rfl | cases hphase
      have hl := h.lives.establish hk .up (.inl ⟨rfl, rfl⟩) epoch again
      have hfits := h.fits
      suffices hp : ∃ p', [Happening.report .success].foldlM Phase.step p = some p' ∧
          p' ∈ Kind.up.fits ∧ ((∃ live, p = .released live) → ∃ live, p' = .released live) by
        obtain ⟨p', hstep, hfits', hkeep⟩ := hp
        exact ⟨.up, p', h.more hl rfl hstep hfits' rfl hkeep⟩
      rcases p with _ | _ | _ | (_ | _) <;> simp_all [Kind.fits, Phase.step, List.foldlM]
  · rename_i hi
    have halive : s.ctx i ≠ .dead := by simp [hi]
    cases ok with
    | false =>
      cases hs
      exact h.lose halive again
    | true =>
      cases hs
      obtain ⟨rfl, hphase, hk⟩ := ctx_alive h.lives halive
      obtain rfl : k = .closing := by
        rw [hi] at hphase
        cases k <;> first | rfl | cases hphase
      have hl := h.lives.establish hk .leaving (.inr ⟨rfl, rfl⟩) epoch again
      obtain rfl : p = .released false := List.mem_singleton.mp h.fits
      exact ⟨.leaving, .released true, h.more hl rfl rfl (by decide) rfl fun _ => ⟨true, rfl⟩⟩
  · cases hs
  · cases hs
  · cases hs
  · cases hs

theorem Stands.disconnectCallback (h : Stands s k p) {i : Nat} {again : Bool}
    (hs : s.next (.disconnectCallback i again) = some s') : ∃ k' p', Stands s' k' p' := by
  simp only [AttemptState.next] at hs
  split at hs
  · rename_i hi
    cases hs
    exact h.lose (by simp [hi]) again
  · rename_i hi
    cases hs
    exact h.lose (by simp [hi]) again
  · cases hs
  · cases hs
  · cases hs
  · cases hs

theorem Stands.setReleaseState (h : Stands s k p) (hs : s.next .setReleaseState = some s') :
    ∃ k' p', Stands s' k' p' := by
  cases hs
  have hl : Lives { s with cli := s.cli.setReleaseState, log := s.log ++ [.release] } k := { h.lives with }
  have hfits := h.fits
  suffices hp : ∃ p', p.step .release = some p' ∧ p' ∈ k.fits ∧ ∃ live, p' = .released live by
    obtain ⟨p', hstep, hfits', hend⟩ := hp
    refine ⟨k, p', hl, ?_, hfits', fun _ => hend⟩
    simp [follows_append, h.follows, hstep]
  cases k <;> rcases p with _ | _ | _ | (_ | _) <;> simp_all [Kind.fits, Phase.step]

theorem Stands.handleSecond (h : Stands s k p) {c : Closing} {again : Bool}
    (hc : Orderly s (.handleSecond c again)) (hs : s.next (.handleSecond c again) = some s') :
    ∃ k' p', Stands s' k' p' := by
  simp only [AttemptState.next] at hs
  split at hs
  · rename_i hguard
    cases hs
    have hp := h.released hguard.1
    suffices hd : ∃ k' p', Stands (s.disConnect true c again) k' p' by
      obtain ⟨k', p', hd⟩ := hd
      exact ⟨k', p', { hd with lives := { hd.lives with } }⟩
    cases hf : k.free with
    | already =>
      rw [disConnect_already (h.lives.free.trans hf)]
      exact ⟨k, p, h⟩
    | needFree =>
      cases c with
      | silent =>
        obtain ⟨hl, hlog, -, hrel⟩ := h.lives.disConnect_silent hf again
        refine ⟨.none, p, h.same hl hlog ?_ hrel⟩
        obtain ⟨live, rfl⟩ := hp
        cases live <;> decide
      | inside =>
        obtain ⟨hl, hlog, hrel⟩ := h.lives.disConnect_inside hf again
        obtain ⟨p', hstep, -, hkeep⟩ := step_lost (h.lives.alive hf) h.fits
        refine ⟨.none, p', h.more hl hlog (step_one hstep) ?_ hrel hkeep⟩
        obtain ⟨live, rfl⟩ := hkeep hp
        cases live <;> decide
      | later =>
        -- the connection of a connected client goes away at once
        have hstate : k.state = .init := by
          rw [← h.lives.state]
          cases hst : s.cli.state_ with
          | init => rfl
          | conn => exact absurd rfl (hc hst)
        obtain rfl : k = .trying := by
          cases k <;> first | rfl | (cases hf; done) | cases hstate
        obtain ⟨hl, hlog, hrel⟩ := h.lives.disConnect_later again
        have hout : p = .released false := by
          obtain ⟨live, rfl⟩ := hp
          cases live with
          | false => rfl
          | true => exact absurd h.fits (by decide)
        refine ⟨.closing, p, h.same hl hlog ?_ hrel⟩
        rw [hout]
        decide
  · cases hs

theorem Stands.next (h : Stands s k p) {a : AttemptAct} (hc : Orderly s a) (hs : s.next a = some s') :
    ∃ k' p', Stands s' k' p' := by
  cases a with
  | take io c again => exact h.take hc hs
  | connectTimeout t c again again' => exact h.connectTimeout hc hs
  | connectCallback i epoch ok again => exact h.connectCallback hs
  | disconnectCallback i again => exact h.disconnectCallback hs
  | setReleaseState => exact h.setReleaseState hs
  | handleSecond c again => exact h.handleSecond hc hs

/-- In every run whose steps all meet the condition, every attempt is reported once, and no order
finds a context alive. -/
theorem oneEach {keepAliveSecond : Int32}
    (h : ((attemptSystem keepAliveSecond).only Orderly).Reach s) : OneEach s := by
  have h0 : Stands (attemptSystem keepAliveSecond).init .none .idle :=
    ⟨⟨rfl, rfl, by simp [Kind.free], by simp, rfl, by simp [Kind.phase], by simp [attemptSystem, Kind.phase],
      by simp [attemptSystem, Kind.phase]⟩, rfl, by decide, by simp [attemptSystem, RedisClient.new]⟩
  obtain ⟨k, p, hi⟩ := h.inv_only (I := fun s => ∃ k p, Stands s k p) ⟨_, _, h0⟩
    fun _ _ _ ⟨_, _, hi⟩ hc hs => hi.next hc hs
  exact hi.one

end Steps

/-! ## Two runs -/

/-- The first connection is made and lost, and a second attempt runs. -/
def twoAttempts : List AttemptAct :=
  [.take .ok .silent false, .connectCallback 0 5 true false, .disconnectCallback 0 true,
    .take .ok .silent false]

theorem oneEach_twoAttempts : ∃ s, ((attemptSystem 30).only Orderly).run (attemptSystem 30).init
    twoAttempts = some s ∧ follows s.log = some .trying ∧ OneEach s := by
  obtain ⟨s, hs⟩ : ∃ s, ((attemptSystem 30).only Orderly).run (attemptSystem 30).init twoAttempts =
      some s := ⟨_, rfl⟩
  have hone := oneEach (Sys.Reach.init.run _ hs)
  refine ⟨s, hs, ?_, hone⟩
  cases hs
  rfl

/-- `redisAsyncConnect` gives a context with `err` set: the attempt is reported, and the order for the
next one comes while that context is alive. -/
theorem failed_context_stays : ¬ ∀ keepAliveSecond s, (attemptSystem keepAliveSecond).Reach s →
    OneEach s := by
  intro h
  obtain ⟨s, hs⟩ : ∃ s, (attemptSystem 30).run (attemptSystem 30).init
      [.take .contextErr .silent true] = some s := ⟨_, rfl⟩
  have halone := (h 30 s (Sys.Reach.init.run _ hs)).alone
  cases hs
  exact absurd (halone Nat.one_pos 0) (by decide)

end RedisAsyn
end CmakeFrame
