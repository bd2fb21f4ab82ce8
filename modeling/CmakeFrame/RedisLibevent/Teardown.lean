import CmakeFrame.Lib.Post
import CmakeFrame.RedisLibevent.Async

/-!
# The end of a context

What `__redisAsyncFree` does to a context that takes no commands any more.

* `raise`: what a callback can still do to such a context is raise its flags.
* `runCallback_of_closing`, `drain_of_closing`, `runAll_of_closing`: each callback is called once,
  with `NULL`.
* `asyncFree_of_closing`: the whole of it. It comes to an end unless the disconnect function frees or
  disconnects the context once more.
* `freed_iff`: `redisAsyncFree` outside of all callbacks.
-/

namespace CmakeFrame
namespace RedisLibevent

open Lib
open RedisCluster (RedisReply)

variable {F P : Type}

/-- The call of the function of a callback, if it has one. -/
def callOf (cb : RedisCallback F P) (r : Option RedisReply) : List (Event F P) :=
  match cb.fn with
  | none => []
  | some fn => [.called fn cb.privdata r]

def Api.isCommand : Api F P → Bool
  | .command .. => true
  | _ => false

namespace AsyncContext

def raise (c : AsyncContext F P) (d f : Bool) : AsyncContext F P :=
  { c with disconnecting := c.disconnecting || d, freeing := c.freeing || f }

@[simp]
theorem raise_raise (c : AsyncContext F P) (d f d' f' : Bool) :
    (c.raise d f).raise d' f' = c.raise (d || d') (f || f') := by
  simp [raise, Bool.or_assoc]

@[simp]
theorem raise_false (c : AsyncContext F P) : c.raise false false = c := by simp [raise]

theorem closing_raise {c : AsyncContext F P} (h : c.closing = true) (d f : Bool) :
    (c.raise d f).closing = true := by
  simp only [closing, raise, Bool.or_eq_true] at h ⊢
  tauto

/-! ## One call -/

theorem asyncCommand_of_closing {c : AsyncContext F P} (h : c.closing = true) (fn : Option F)
    (privdata : Option P) (cmd : Bytes) : c.asyncCommand fn privdata cmd = .ok (false, c) := by
  rw [asyncCommand, if_pos h]

theorem call_of_closing (tear : AsyncContext F P → Except Fault (AsyncContext F P))
    {c : AsyncContext F P} (h : c.closing = true) (hc : c.inCallback = true) (a : Api F P) :
    ∃ d f, c.call tear a = .ok (c.raise d f) := by
  cases a with
  | command fn privdata cmd =>
    refine ⟨false, false, ?_⟩
    rw [call, asyncCommand_of_closing h, raise_false]
    rfl
  | free => exact ⟨false, true, by simp [call, free, hc, raise]⟩
  | disconnect => exact ⟨true, false, by simp [call, disconnect, hc, raise]⟩

theorem calls_of_closing (tear : AsyncContext F P → Except Fault (AsyncContext F P))
    (as : List (Api F P)) {c : AsyncContext F P} (h : c.closing = true)
    (hc : c.inCallback = true) : ∃ d f, as.foldlM (call tear) c = .ok (c.raise d f) := by
  induction as generalizing c with
  | nil => exact ⟨false, false, by rw [raise_false]; rfl⟩
  | cons a as ih =>
    obtain ⟨d, f, h1⟩ := call_of_closing tear h hc a
    obtain ⟨d', f', h2⟩ := ih (closing_raise h d f) (by simpa [raise] using hc)
    exact ⟨d || d', f || f', by rw [List.foldlM_cons, h1, ← raise_raise]; exact h2⟩

/-! ## The order of the changes -/

section

variable (c : AsyncContext F P) (es es' : List (Event F P)) (cbs cbs' : List (RedisCallback F P))
  (l : CallbackList) (d f : Bool)

@[simp]
theorem extend_closing : (c.extend es).closing = c.closing := rfl

@[simp]
theorem extend_inCallback : (c.extend es).inCallback = c.inCallback := rfl

@[simp]
theorem extend_list : (c.extend es).list l = c.list l := by cases l <;> rfl

@[simp]
theorem extend_extend : (c.extend es).extend es' = c.extend (es ++ es') := by
  simp [extend, List.append_assoc]

@[simp]
theorem extend_nil : c.extend [] = c := by simp [extend]

@[simp]
theorem raise_inCallback : (c.raise d f).inCallback = c.inCallback := rfl

@[simp]
theorem raise_list : (c.raise d f).list l = c.list l := by cases l <;> rfl

@[simp]
theorem raise_extend : (c.raise d f).extend es = (c.extend es).raise d f := rfl

@[simp]
theorem setList_closing : (c.setList cbs l).closing = c.closing := by cases l <;> rfl

@[simp]
theorem setList_inCallback : (c.setList cbs l).inCallback = c.inCallback := by cases l <;> rfl

@[simp]
theorem setList_list : (c.setList cbs l).list l = cbs := by cases l <;> rfl

@[simp]
theorem setList_setList : (c.setList cbs l).setList cbs' l = c.setList cbs' l := by
  cases l <;> rfl

@[simp]
theorem setList_extend : (c.setList cbs l).extend es = (c.extend es).setList cbs l := by
  cases l <;> rfl

@[simp]
theorem raise_setList : (c.raise d f).setList cbs l = (c.setList cbs l).raise d f := by
  cases l <;> rfl

@[simp]
theorem setList_list_self : c.setList (c.list l) l = c := by cases l <;> rfl

end

/-! ## The callbacks -/

theorem runCallback_of_closing (u : User F P) {c : AsyncContext F P} (h : c.closing = true)
    (hc : c.inCallback = false) (cb : RedisCallback F P) (r : Option RedisReply) :
    ∃ d f, c.runCallback u cb r = .ok ((c.extend (callOf cb r)).raise d f) := by
  cases hfn : cb.fn with
  | none => exact ⟨false, false, by simp [runCallback, callOf, hfn]⟩
  | some fn =>
    obtain ⟨d, f, h1⟩ := calls_of_closing (fun _ => .error .reentered)
      (u.react (c.log ++ [.called fn cb.privdata r]))
      (c := push { c with inCallback := true } (.called fn cb.privdata r)) h rfl
    refine ⟨d, f, ?_⟩
    have h2 : react u (push { c with inCallback := true } (.called fn cb.privdata r)) =
        .ok ((push { c with inCallback := true } (.called fn cb.privdata r)).raise d f) := h1
    simp only [runCallback, hfn, h2, callOf]
    show Except.ok _ = _
    simp [raise, push, extend, hc]

/-- What a teardown does to a list of callbacks. -/
def nullCalls (cbs : List (RedisCallback F P)) : List (Event F P) :=
  cbs.flatMap fun cb => callOf cb none

theorem shiftCallback_of_nil {l : CallbackList} {c : AsyncContext F P} (h : c.list l = []) :
    c.shiftCallback l = none := by
  rw [shiftCallback, h]

theorem shiftCallback_of_cons {l : CallbackList} {c : AsyncContext F P} {cb : RedisCallback F P}
    {cbs : List (RedisCallback F P)} (h : c.list l = cb :: cbs) :
    c.shiftCallback l = some (cb, c.setList cbs l) := by
  rw [shiftCallback, h]

theorem drain_of_closing (l : CallbackList) (u : User F P) {c : AsyncContext F P}
    (h : c.closing = true) (hc : c.inCallback = false) :
    ∃ d f, drain l u (c.list l).length c =
      .ok (((c.extend (nullCalls (c.list l))).setList [] l).raise d f) := by
  obtain ⟨cbs, hcbs⟩ : ∃ cbs, c.list l = cbs := ⟨_, rfl⟩
  rw [hcbs]
  induction cbs generalizing c with
  | nil =>
    refine ⟨false, false, ?_⟩
    rw [List.length_nil, drain, shiftCallback_of_nil hcbs]
    have hself : c.setList [] l = c := by rw [← hcbs, setList_list_self]
    simp [nullCalls, hself]
  | cons cb cbs ih =>
    have hs := shiftCallback_of_cons hcbs
    obtain ⟨d, f, h1⟩ := runCallback_of_closing u (c := c.setList cbs l) (by simpa using h)
      (by simpa using hc) cb none
    obtain ⟨d', f', h2⟩ := ih (c := ((c.setList cbs l).extend (callOf cb none)).raise d f)
      (closing_raise (by simpa using h) d f) (by simpa using hc) (by simp)
    refine ⟨d || d', f || f', ?_⟩
    rw [List.length_cons, drain, hs]
    simp only [h1]
    refine Eq.trans h2 ?_
    simp [nullCalls]

theorem runAll_of_closing (u : User F P) (cbs : List (Bytes × RedisCallback F P))
    {c : AsyncContext F P} (h : c.closing = true) (hc : c.inCallback = false) :
    ∃ d f, c.runAll u cbs = .ok ((c.extend (nullCalls (cbs.map Prod.snd))).raise d f) := by
  induction cbs generalizing c with
  | nil => exact ⟨false, false, by simp [runAll, nullCalls]; rfl⟩
  | cons e cbs ih =>
    obtain ⟨d, f, h1⟩ := runCallback_of_closing u h hc e.2 none
    obtain ⟨d', f', h2⟩ := ih (c := (c.extend (callOf e.2 none)).raise d f)
      (closing_raise (by simpa using h) d f) (by simpa using hc)
    refine ⟨d || d', f || f', ?_⟩
    rw [runAll, List.foldlM_cons, h1]
    refine Eq.trans h2 ?_
    simp [nullCalls]

/-! ## The whole of it -/

/-- The calls of the callbacks that are still there. -/
def pendingCalls (u : User F P) (c : AsyncContext F P) : List (Event F P) :=
  nullCalls c.replies ++ nullCalls c.invalid ++
    nullCalls ((u.walk c.channels).map Prod.snd) ++
    nullCalls ((u.walk c.patterns).map Prod.snd)

/-- A context whose callbacks have all been called. -/
def drained (u : User F P) (c : AsyncContext F P) : AsyncContext F P :=
  { c.extend (c.pendingCalls u) with replies := [], invalid := [] }

/-- All but the disconnect function. -/
theorem callbacks_of_closing (u : User F P) {c : AsyncContext F P} (h : c.closing = true)
    (hc : c.inCallback = false) :
    ∃ d f, (do
      let c ← drain .replies u c.replies.length c
      let c ← drain .invalid u c.invalid.length c
      let c ← c.runAll u (u.walk c.channels)
      c.runAll u (u.walk c.patterns)) =
        .ok ((c.drained u).raise d f) := by
  obtain ⟨d₁, f₁, h₁⟩ := drain_of_closing .replies u h hc
  generalize hac₁ : ((c.extend (nullCalls (c.list .replies))).setList [] .replies).raise d₁ f₁ = c₁
    at h₁
  have hcl₁ : c₁.closing = true := by
    subst hac₁
    exact closing_raise (by simpa using h) d₁ f₁
  have hic₁ : c₁.inCallback = false := by
    subst hac₁
    simpa using hc
  obtain ⟨d₂, f₂, h₂⟩ := drain_of_closing .invalid u hcl₁ hic₁
  generalize hac₂ : ((c₁.extend (nullCalls (c₁.list .invalid))).setList [] .invalid).raise d₂ f₂ = c₂
    at h₂
  have hcl₂ : c₂.closing = true := by
    subst hac₂
    exact closing_raise (by simpa using hcl₁) d₂ f₂
  have hic₂ : c₂.inCallback = false := by
    subst hac₂
    simpa using hic₁
  obtain ⟨d₃, f₃, h₃⟩ := runAll_of_closing u (u.walk c₂.channels) hcl₂ hic₂
  generalize hac₃ : (c₂.extend (nullCalls ((u.walk c₂.channels).map Prod.snd))).raise d₃ f₃ = c₃
    at h₃
  have hcl₃ : c₃.closing = true := by
    subst hac₃
    exact closing_raise (by simpa using hcl₂) d₃ f₃
  have hic₃ : c₃.inCallback = false := by
    subst hac₃
    simpa using hic₂
  obtain ⟨d₄, f₄, h₄⟩ := runAll_of_closing u (u.walk c₃.patterns) hcl₃ hic₃
  refine ⟨d₁ || (d₂ || (d₃ || d₄)), f₁ || (f₂ || (f₃ || f₄)), ?_⟩
  have e₁ : drain .replies u c.replies.length c = .ok c₁ := h₁
  have e₂ : drain .invalid u c₁.invalid.length c₁ = .ok c₂ := h₂
  rw [e₁]
  show (drain .invalid u c₁.invalid.length c₁ >>= fun c => _) = _
  rw [e₂]
  show (c₂.runAll u (u.walk c₂.channels) >>= fun c => _) = _
  rw [h₃]
  show c₃.runAll u (u.walk c₃.patterns) = _
  rw [h₄]
  subst hac₃ hac₂ hac₁
  simp [drained, raise, extend, setList, list, pendingCalls, Bool.or_assoc, List.append_assoc]

/-- The disconnect function, behind all callbacks: it can do nothing but fail to send commands. -/
theorem react_of_closing (as : List (Api F P)) {c : AsyncContext F P} (h : c.closing = true)
    (hc : c.inCallback = false) (hr : c.replies = []) :
    as.foldlM (call fun _ => .error .reentered) c =
      if as.all Api.isCommand then .ok c else .error .reentered := by
  induction as with
  | nil => rfl
  | cons a as ih =>
    rw [List.foldlM_cons]
    cases a with
    | command fn privdata cmd =>
      rw [call, asyncCommand_of_closing h]
      exact ih
    | free =>
      have hcall : c.call (fun _ => .error .reentered) .free = .error .reentered := by
        simp [call, free, hc]
      rw [hcall]
      rfl
    | disconnect =>
      have hcall : c.call (fun _ => .error .reentered) .disconnect = .error .reentered := by
        simp [call, disconnect, asyncDisconnect, hc, hr]
      rw [hcall]
      rfl

/-- What the user is told at the end. -/
def endCalls (c : AsyncContext F P) (ok : Bool) : List (Event F P) :=
  if c.onDisconnect && c.connected then [.onDisconnect ok] else []

/-- The disconnect function that is called behind `log` frees nothing. -/
def Quiet (u : User F P) (log : List (Event F P)) (ok : Bool) : Prop :=
  (u.react (log ++ [.onDisconnect ok])).all Api.isCommand

instance (u : User F P) (log : List (Event F P)) (ok : Bool) : Decidable (Quiet u log ok) :=
  inferInstanceAs (Decidable (_ = _))

theorem runDisconnect_of_closing (u : User F P) {c : AsyncContext F P} (h : c.closing = true)
    (hc : c.inCallback = false) (hr : c.replies = []) :
    c.runDisconnect u =
      if c.onDisconnect && c.connected → Quiet u c.log (c.freeing || c.errAc == 0) then
        .ok (c.extend (c.endCalls (c.freeing || c.errAc == 0)))
      else .error .reentered := by
  by_cases hd : (c.onDisconnect && c.connected) = true
  · have hclosing : (c.push (.onDisconnect (c.freeing || c.errAc == 0))).closing = true := h
    rw [runDisconnect, if_pos hd, react, react_of_closing _ hclosing hc hr]
    simp only [hd, endCalls, true_implies, if_true, Quiet]
    rfl
  · rw [runDisconnect, if_neg hd, if_pos (fun hall => absurd hall hd), endCalls, if_neg hd, extend_nil]

/-- The disconnect function, if it is called behind the callbacks, frees nothing. -/
def EndsQuietly (u : User F P) (c : AsyncContext F P) (ok : Bool) : Prop :=
  c.onDisconnect && c.connected → Quiet u (c.log ++ c.pendingCalls u) ok

instance (u : User F P) (c : AsyncContext F P) (ok : Bool) : Decidable (c.EndsQuietly u ok) :=
  inferInstanceAs (Decidable (_ → _))

/-- A context after its end. -/
def ended (u : User F P) (c : AsyncContext F P) (ok : Bool) : AsyncContext F P :=
  { c.extend (c.pendingCalls u ++ c.endCalls ok ++ [.freed]) with
    replies := [], invalid := [], freed := true }

theorem asyncFree_of_closing (u : User F P) {c : AsyncContext F P} (h : c.closing = true)
    (hc : c.inCallback = false) :
    ∃ d f, asyncFree u c =
      if c.EndsQuietly u (c.freeing || f || c.errAc == 0) then
        .ok ((c.ended u (c.freeing || f || c.errAc == 0)).raise d f)
      else .error .reentered := by
  obtain ⟨d, f, h1⟩ := callbacks_of_closing u h hc
  refine ⟨d, f, ?_⟩
  generalize hac₁ : (c.drained u).raise d f = c₁ at h1
  have hcl : c₁.closing = true := by
    subst hac₁
    exact closing_raise (c := c.drained u) h d f
  have hquiet : (c₁.onDisconnect && c₁.connected → Quiet u c₁.log (c₁.freeing || c₁.errAc == 0)) ↔
      c.EndsQuietly u (c.freeing || f || c.errAc == 0) := by
    subst hac₁
    exact Iff.rfl
  have hassoc : asyncFree u c = (do
      let c ← (do
        let c ← drain .replies u c.replies.length c
        let c ← drain .invalid u c.invalid.length c
        let c ← c.runAll u (u.walk c.channels)
        c.runAll u (u.walk c.patterns))
      let c ← c.runDisconnect u
      return { c with freed := true }.push .freed) := by
    simp only [asyncFree, bind_assoc]
  rw [hassoc, h1]
  show (c₁.runDisconnect u >>= fun c => _) = _
  rw [runDisconnect_of_closing u hcl (by subst hac₁; exact hc) (by subst hac₁; rfl)]
  by_cases hq : c.EndsQuietly u (c.freeing || f || c.errAc == 0)
  · rw [if_pos (hquiet.mpr hq), if_pos hq]
    subst hac₁
    show Except.ok _ = Except.ok _
    simp [ended, drained, endCalls, raise, push, extend, List.append_assoc]
  · rw [if_neg (fun h => hq (hquiet.mp h)), if_neg hq]
    rfl

/-- `redisAsyncFree` outside of all callbacks. -/
theorem free_eq (u : User F P) {c : AsyncContext F P} (hc : c.inCallback = false) :
    ∃ d, c.free (asyncFree u) =
      if c.EndsQuietly u true then .ok ((c.ended u true).raise d true)
      else .error .reentered := by
  obtain ⟨d, f, h1⟩ := asyncFree_of_closing u (c := { c with freeing := true }) (by simp [closing]) hc
  refine ⟨d, ?_⟩
  have hok : (true || f || c.errAc == 0) = true := by simp
  have hended : ({ c with freeing := true }.ended u true).raise d f = (c.ended u true).raise d true := by
    simp [ended, raise, extend, pendingCalls, endCalls]
  rw [free, if_neg (by simp [hc]), h1, ← hended]
  simp only [hok]
  rfl

end AsyncContext

open AsyncContext

/-- `redisAsyncFree` outside of all callbacks comes to an end exactly when the disconnect function of a
connected context does not free or disconnect it once more, and then every callback that was left has
been called once with `NULL`. -/
theorem free_ends_iff (u : User F P) (c : AsyncContext F P) (hc : c.inCallback = false) :
    ((∃ c', step u c (.api .free) = .ok c') ↔ c.EndsQuietly u true) ∧
      ∀ c', step u c (.api .free) = .ok c' →
        c'.freed = true ∧ c'.log = c.log ++ c.pendingCalls u ++ c.endCalls true ++ [.freed] := by
  obtain ⟨d, h⟩ := free_eq u hc
  have hstep : step u c (.api .free) = c.free (asyncFree u) := rfl
  rw [hstep, h]
  by_cases hq : c.EndsQuietly u true
  · rw [if_pos hq]
    refine ⟨⟨fun _ => hq, fun _ => ⟨_, rfl⟩⟩, ?_⟩
    rintro c' ⟨⟩
    simp [ended, raise, extend, List.append_assoc]
  · rw [if_neg hq]
    exact ⟨⟨(by rintro ⟨c', ⟨⟩⟩), fun h => absurd h hq⟩, by rintro c' ⟨⟩⟩

/-- A user whose disconnect function makes the calls `onDisconnect`. -/
def disconnectUser (onDisconnect : List (Api Nat Nat)) : User Nat Nat where
  react log :=
    match log.getLast? with
    | some (.onDisconnect _) => onDisconnect
    | _ => []
  walk l := l
  walk_perm l := List.Perm.refl l

/-- A connected context with a request that is not answered and a channel. -/
def waitingContext : AsyncContext Nat Nat :=
  { AsyncContext.init true true with
    connected := true
    replies := [⟨some 1, none, 1⟩]
    channels := [([99], ⟨some 2, none, 1⟩)] }

/-- A disconnect function that does nothing, and one that frees the context. -/
theorem free_ends_iff_waiting :
    (∃ c', step (disconnectUser []) waitingContext (.api .free) = .ok c' ∧ c'.freed = true ∧
      c'.log = [.called 1 none none, .called 2 none none, .onDisconnect true, .freed]) ∧
    ¬ ∃ c', step (disconnectUser [.free]) waitingContext (.api .free) = .ok c' := by
  constructor
  · obtain ⟨hends, hlog⟩ := free_ends_iff (disconnectUser []) waitingContext rfl
    obtain ⟨c', hc'⟩ := hends.mpr (by decide)
    obtain ⟨hfreed, heq⟩ := hlog c' hc'
    exact ⟨c', hc', hfreed, heq⟩
  · rw [(free_ends_iff (disconnectUser [.free]) waitingContext rfl).1]
    decide

end RedisLibevent
end CmakeFrame
