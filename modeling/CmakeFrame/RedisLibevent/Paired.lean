import CmakeFrame.RedisLibevent.CommandText
import CmakeFrame.RedisLibevent.Teardown

/-!
# Replies and their callbacks

The contexts on which no channel is subscribed and nothing is monitored.

* `accepted`, `answers`, `calls`: what the events of a context say. `answersTo`: the calls that a list
  of callbacks comes to when each is given its own reply.
* `Settled`, `Paired`: the callback of each accepted command is called with the reply of the same number.
  `Outcome`: the same, until the end.
* `Blamed`: who a fault is due to.
* `step_outcome`: one step. `answered_in_order`, `step_ok`: whole runs.
* `disconnect_completes`: the end of a context that was disconnected, with subscriptions or without.
-/

namespace CmakeFrame
namespace RedisLibevent

open Lib
open RedisCluster (RedisReply)

variable {F P : Type}

/-! ## What the events say -/

def accepted (log : List (Event F P)) : List (RedisCallback F P × Bytes) :=
  log.filterMap fun
    | .accepted cb cmd => some (cb, cmd)
    | _ => none

def answers (log : List (Event F P)) : List RedisReply :=
  log.filterMap fun
    | .reply r => some r
    | _ => none

def calls (log : List (Event F P)) : List (F × Option P × Option RedisReply) :=
  log.filterMap fun
    | .called fn privdata r => some (fn, privdata, r)
    | _ => none

/-- The calls for a list of callbacks, each with its own reply. -/
def answersTo (cbs : List (RedisCallback F P)) (rs : List (Option RedisReply)) :
    List (F × Option P × Option RedisReply) :=
  (cbs.zip rs).filterMap fun e => e.1.fn.map fun fn => (fn, e.1.privdata, e.2)

section

variable (log log' : List (Event F P))

@[simp]
theorem accepted_append : accepted (log ++ log') = accepted log ++ accepted log' :=
  List.filterMap_append

@[simp]
theorem answers_append : answers (log ++ log') = answers log ++ answers log' := List.filterMap_append

@[simp]
theorem calls_append : calls (log ++ log') = calls log ++ calls log' := List.filterMap_append

@[simp]
theorem accepted_callOf (cb : RedisCallback F P) (r : Option RedisReply) :
    accepted (callOf cb r) = [] := by
  unfold callOf
  split <;> rfl

@[simp]
theorem answers_callOf (cb : RedisCallback F P) (r : Option RedisReply) :
    answers (callOf cb r) = [] := by
  unfold callOf
  split <;> rfl

theorem calls_callOf (cb : RedisCallback F P) (r : Option RedisReply) :
    calls (callOf cb r) = answersTo [cb] [r] := by
  unfold callOf answersTo
  split <;> rename_i h <;> simp [calls, h]

theorem answersTo_append {cbs : List (RedisCallback F P)} {rs : List (Option RedisReply)}
    (h : cbs.length = rs.length) (cbs' : List (RedisCallback F P)) (rs' : List (Option RedisReply)) :
    answersTo (cbs ++ cbs') (rs ++ rs') = answersTo cbs rs ++ answersTo cbs' rs' := by
  simp [answersTo, List.zip_append h]

/-- Callbacks behind those that have a reply are not called. -/
theorem answersTo_append_left {cbs : List (RedisCallback F P)} {rs : List (Option RedisReply)}
    (h : rs.length ≤ cbs.length) (cbs' : List (RedisCallback F P)) :
    answersTo (cbs ++ cbs') rs = answersTo cbs rs := by
  have hz : (cbs ++ cbs').zip rs = cbs.zip rs := by
    conv_lhs => rw [← List.append_nil rs]
    induction rs generalizing cbs with
    | nil => simp
    | cons r rs ih =>
      cases cbs with
      | nil => simp at h
      | cons cb cbs =>
        have hle : rs.length ≤ cbs.length := by simpa using h
        simpa using ih hle
  simp [answersTo, hz]

theorem calls_nullCalls (cbs : List (RedisCallback F P)) :
    calls (AsyncContext.nullCalls cbs) = answersTo cbs (List.replicate cbs.length none) := by
  induction cbs with
  | nil => rfl
  | cons cb cbs ih =>
    have hsplit : answersTo (cb :: cbs) (List.replicate (cbs.length + 1) none) =
        answersTo [cb] [none] ++ answersTo cbs (List.replicate cbs.length none) :=
      @answersTo_append _ _ [cb] [none] rfl cbs _
    rw [List.length_cons, hsplit, ← ih, ← calls_callOf, ← calls_append]
    rfl

@[simp]
theorem accepted_nullCalls (cbs : List (RedisCallback F P)) :
    accepted (AsyncContext.nullCalls cbs) = [] := by
  induction cbs with
  | nil => rfl
  | cons cb cbs ih =>
    rw [AsyncContext.nullCalls, List.flatMap_cons, accepted_append, accepted_callOf]
    exact ih

@[simp]
theorem answers_nullCalls (cbs : List (RedisCallback F P)) :
    answers (AsyncContext.nullCalls cbs) = [] := by
  induction cbs with
  | nil => rfl
  | cons cb cbs ih =>
    rw [AsyncContext.nullCalls, List.flatMap_cons, answers_append, answers_callOf]
    exact ih

end

/-- Replies behind the last callback. -/
theorem answersTo_append_right {cbs : List (RedisCallback F P)} {rs : List (Option RedisReply)}
    (h : cbs.length ≤ rs.length) (rs' : List (Option RedisReply)) :
    answersTo cbs (rs ++ rs') = answersTo cbs rs := by
  have hz : cbs.zip (rs ++ rs') = cbs.zip rs := by
    induction cbs generalizing rs with
    | nil => simp
    | cons cb cbs ih =>
      cases rs with
      | nil => simp at h
      | cons r rs =>
        have hle : cbs.length ≤ rs.length := by simpa using h
        simpa using ih hle
  simp [answersTo, hz]

/-- The callbacks that are left are all given `NULL`. -/
theorem answersTo_rest (cbs : List (RedisCallback F P)) (rs : List (Option RedisReply)) :
    answersTo cbs rs ++
        answersTo (cbs.drop rs.length) (List.replicate (cbs.drop rs.length).length none) =
      answersTo cbs (rs ++ List.replicate (cbs.length - rs.length) none) := by
  rcases Nat.le_total rs.length cbs.length with h | h
  · have hlen : (cbs.take rs.length).length = rs.length := by simp [h]
    have hsplit : cbs.take rs.length ++ cbs.drop rs.length = cbs := List.take_append_drop _ _
    calc answersTo cbs rs ++ answersTo (cbs.drop rs.length) (List.replicate _ none)
        = answersTo (cbs.take rs.length) rs ++
            answersTo (cbs.drop rs.length) (List.replicate (cbs.length - rs.length) none) := by
          rw [← answersTo_append_left (le_of_eq hlen.symm) (cbs.drop rs.length), hsplit,
            List.length_drop]
      _ = answersTo cbs (rs ++ List.replicate (cbs.length - rs.length) none) := by
          rw [← answersTo_append hlen, hsplit]
  · rw [List.drop_eq_nil_of_le h, Nat.sub_eq_zero_of_le h]
    simp [answersTo]

/-! ## Contexts without subscriptions -/

def Api.regular : Api F P → Bool
  | .command _ _ cmd => RedisLibevent.regular cmd
  | _ => true

def User.Regular (u : User F P) : Prop := ∀ log, ∀ a ∈ u.react log, a.regular = true

/-- The connect and the disconnect function only send commands. -/
def User.Polite (u : User F P) : Prop :=
  ∀ log ok, (u.react (log ++ [.onConnect ok])).all Api.isCommand ∧
    (u.react (log ++ [.onDisconnect ok])).all Api.isCommand

variable {b : Bool}

/-- Each reply so far was given to its own callback, or there was none left for it, and the commands are
on the wire in the order of the callbacks. -/
structure Settled (b : Bool) (c : AsyncContext F P) : Prop where
  subscribed : c.subscribed = false
  monitoring : c.monitoring = false
  invalid : c.invalid = []
  channels : c.channels = []
  patterns : c.patterns = []
  queue : c.replies = ((accepted c.log).map Prod.fst).drop (answers c.log).length
  calls : calls c.log = answersTo ((accepted c.log).map Prod.fst) ((answers c.log).map some)
  wire : c.sent ++ c.obuf = ((accepted c.log).map Prod.snd).flatten
  function : c.onDisconnect = b

structure Paired (b : Bool) (c : AsyncContext F P) : Prop extends Settled b c where
  count : (answers c.log).length ≤ (accepted c.log).length
  writing : c.obuf ≠ [] → c.writing = true
  unlocked : c.wmutex = false
  alive : c.freed = false

/-- The callbacks without a reply were called with `NULL`, and behind them the disconnect function if the
context was connected. -/
structure Finished (u : User F P) (b : Bool) (c : AsyncContext F P) : Prop where
  freed : c.freed = true
  calls : calls c.log = answersTo ((accepted c.log).map Prod.fst)
    ((answers c.log).map some ++
      List.replicate ((accepted c.log).length - (answers c.log).length) none)
  wire : c.sent ++ c.obuf = ((accepted c.log).map Prod.snd).flatten
  told : b = true → c.connected = true → ∃ log ok,
    c.log = log ++ [.onDisconnect ok, .freed] ∧ AsyncContext.Quiet u log ok

def Outcome (u : User F P) (b : Bool) (c : AsyncContext F P) : Prop :=
  Paired b c ∧ c.inCallback = false ∨ Finished u b c

/-- A fault is due to the user, or it is an assertion that a reply broke that nobody asked for. -/
def Blamed (u : User F P) (unasked : Prop) (e : Fault) : Prop :=
  ¬ u.Polite ∨ e = .assertion ∧ unasked

/-! ## The end -/

theorem finished_of_closing (u : User F P) {c : AsyncContext F P} (hs : Settled b c)
    (h : c.closing = true) (hc : c.inCallback = false) (unasked : Prop) :
    Post (AsyncContext.asyncFree u c) (Blamed u unasked) (Finished u b) := by
  obtain ⟨d, f, heq⟩ := AsyncContext.asyncFree_of_closing u h hc
  rw [heq]
  by_cases hq : c.EndsQuietly u (c.freeing || f || c.errAc == 0)
  · rw [if_pos hq, post_ok]
    have hwalk : u.walk [] = [] := List.perm_nil.mp (u.walk_perm [])
    have hpending : c.pendingCalls u = AsyncContext.nullCalls c.replies := by
      simp [AsyncContext.pendingCalls, hs.invalid, hs.channels, hs.patterns, hwalk,
        AsyncContext.nullCalls]
    have hend : ∀ ok, accepted (c.endCalls ok) = [] ∧ answers (c.endCalls ok) = [] ∧
        calls (c.endCalls ok) = [] := by
      intro ok
      unfold AsyncContext.endCalls
      split <;> exact ⟨rfl, rfl, rfl⟩
    obtain ⟨hacc, hans, hcalls⟩ := hend (c.freeing || f || c.errAc == 0)
    generalize hlog : c.pendingCalls u ++ c.endCalls (c.freeing || f || c.errAc == 0) ++ [.freed] =
      es
    have hes : accepted es = [] ∧ answers es = [] ∧
        calls es = answersTo c.replies (List.replicate c.replies.length none) := by
      subst hlog
      rw [hpending]
      refine ⟨?_, ?_, ?_⟩
      · simp only [accepted_append, accepted_nullCalls, hacc, List.nil_append]
        rfl
      · simp only [answers_append, answers_nullCalls, hans, List.nil_append]
        rfl
      · simp only [calls_append, calls_nullCalls, hcalls, List.append_nil]
        exact List.append_nil _
    have hrest := answersTo_rest ((accepted c.log).map Prod.fst) ((answers c.log).map some)
    rw [List.length_map, ← hs.queue, ← hs.calls] at hrest
    refine ⟨rfl, ?_, ?_, fun hon hcon => ?_⟩
    · show calls (c.log ++ _) = answersTo ((accepted (c.log ++ _)).map Prod.fst)
        ((answers (c.log ++ _)).map some ++ List.replicate
          ((accepted (c.log ++ _)).length - (answers (c.log ++ _)).length) none)
      rw [hlog, calls_append, accepted_append, answers_append, hes.1, hes.2.1, hes.2.2, hrest]
      simp
    · show c.sent ++ c.obuf = ((accepted (c.log ++ _)).map Prod.snd).flatten
      rw [hlog, accepted_append, hes.1, List.append_nil]
      exact hs.wire
    · have hcalled : (c.onDisconnect && c.connected) = true := by
        rw [hs.function.trans hon, show c.connected = true from hcon]
        rfl
      refine ⟨_, _, ?_, hq hcalled⟩
      show c.log ++ (c.pendingCalls u ++ c.endCalls _ ++ [.freed]) = _
      rw [AsyncContext.endCalls, if_pos hcalled]
      simp
  · rw [if_neg hq, post_error]
    refine .inl fun hp => hq fun _ => ?_
    exact (hp _ _).2

/-- `__redisAsyncDisconnect` of a context that takes no commands, or that an error has ended. -/
theorem finished_of_disconnect (u : User F P) {c : AsyncContext F P} (hs : Settled b c)
    (h : c.closing = true ∧ c.replies = [] ∨ c.err ≠ 0) (hc : c.inCallback = false)
    (unasked : Prop) :
    Post (c.asyncDisconnect (AsyncContext.asyncFree u)) (Blamed u unasked) (Finished u b) := by
  unfold AsyncContext.asyncDisconnect
  by_cases he : c.err = 0
  · obtain ⟨hcl, hr⟩ := h.resolve_right (fun hne => hne he)
    rw [if_pos he, if_pos (by simp [hr])]
    exact finished_of_closing u (c := { c with errAc := c.err }) ⟨hs.subscribed, hs.monitoring,
      hs.invalid, hs.channels, hs.patterns, hs.queue, hs.calls, hs.wire, hs.function⟩ hcl hc unasked
  · rw [if_neg he]
    exact finished_of_closing u (c := { c with errAc := c.err, disconnecting := true })
      ⟨hs.subscribed, hs.monitoring, hs.invalid, hs.channels, hs.patterns, hs.queue, hs.calls, hs.wire, hs.function⟩
      rfl hc unasked

/-! ## Calls of the user -/

/-- What a call can do to a context that it does not end. -/
structure Grown (b : Bool) (c c' : AsyncContext F P) : Prop where
  paired : Paired b c'
  inCallback : c'.inCallback = c.inCallback
  err : c'.err = c.err
  more : c.replies.length ≤ c'.replies.length

theorem Grown.trans {c c' c'' : AsyncContext F P} (h : Grown b c c') (h' : Grown b c' c'') :
    Grown b c c'' :=
  ⟨h'.paired, h'.inCallback.trans h.inCallback, h'.err.trans h.err, h.more.trans h'.more⟩

/-- Fields that say nothing about the commands can change. -/
theorem Paired.of_eq {c c' : AsyncContext F P} (h : Paired b c)
    (hsub : c'.subscribed = c.subscribed) (hmon : c'.monitoring = c.monitoring)
    (hinv : c'.invalid = c.invalid) (hch : c'.channels = c.channels)
    (hpat : c'.patterns = c.patterns) (hrep : c'.replies = c.replies) (hlog : c'.log = c.log)
    (hsent : c'.sent = c.sent) (hobuf : c'.obuf = c.obuf) (hwr : c'.writing = c.writing)
    (hmu : c'.wmutex = c.wmutex) (hfr : c'.freed = c.freed)
    (hod : c'.onDisconnect = c.onDisconnect) : Paired b c' where
  subscribed := hsub.trans h.subscribed
  monitoring := hmon.trans h.monitoring
  invalid := hinv.trans h.invalid
  channels := hch.trans h.channels
  patterns := hpat.trans h.patterns
  queue := by rw [hrep, hlog, h.queue]
  calls := by rw [hlog, h.calls]
  wire := by rw [hsent, hobuf, hlog, h.wire]
  function := hod.trans h.function
  count := by rw [hlog]; exact h.count
  writing := by rw [hobuf, hwr]; exact h.writing
  unlocked := hmu.trans h.unlocked
  alive := hfr.trans h.alive

theorem Paired.push_other {c : AsyncContext F P} (h : Paired b c) {e : Event F P}
    (ha : accepted [e] = []) (hr : answers [e] = []) (hc : calls [e] = []) : Paired b (c.push e) where
  subscribed := h.subscribed
  monitoring := h.monitoring
  invalid := h.invalid
  channels := h.channels
  patterns := h.patterns
  queue := by
    show c.replies = ((accepted (c.log ++ [e])).map Prod.fst).drop (answers (c.log ++ [e])).length
    rw [accepted_append, answers_append, ha, hr, List.append_nil, List.append_nil, h.queue]
  calls := by
    show RedisLibevent.calls (c.log ++ [e]) = answersTo ((accepted (c.log ++ [e])).map Prod.fst)
      ((answers (c.log ++ [e])).map some)
    rw [accepted_append, answers_append, calls_append, ha, hr, hc, List.append_nil, List.append_nil,
      List.append_nil, h.calls]
  wire := by
    show c.sent ++ c.obuf = ((accepted (c.log ++ [e])).map Prod.snd).flatten
    rw [accepted_append, ha, List.append_nil, h.wire]
  function := h.function
  count := by
    show (answers (c.log ++ [e])).length ≤ (accepted (c.log ++ [e])).length
    rw [accepted_append, answers_append, ha, hr, List.append_nil, List.append_nil]
    exact h.count
  writing := h.writing
  unlocked := h.unlocked
  alive := h.alive

/-- A command is queued and appended. -/
theorem Paired.push_command {c : AsyncContext F P} (h : Paired b c) (cb : RedisCallback F P)
    (cmd : Bytes) :
    Paired b (AsyncContext.push { c.pushCallback .replies cb with
      obuf := c.obuf ++ cmd, writing := true } (.accepted cb cmd)) where
  subscribed := h.subscribed
  monitoring := h.monitoring
  invalid := h.invalid
  channels := h.channels
  patterns := h.patterns
  queue := by
    show c.replies ++ [cb] = ((accepted (c.log ++ [.accepted cb cmd])).map Prod.fst).drop
      (answers (c.log ++ [.accepted cb cmd])).length
    have ha : answers [.accepted (F := F) (P := P) cb cmd] = [] := rfl
    rw [accepted_append, answers_append, ha, List.append_nil, List.map_append,
      List.drop_append_of_le_length (by simpa using h.count), ← h.queue]
    rfl
  calls := by
    show RedisLibevent.calls (c.log ++ [.accepted cb cmd]) =
      answersTo ((accepted (c.log ++ [.accepted cb cmd])).map Prod.fst)
        ((answers (c.log ++ [.accepted cb cmd])).map some)
    have ha : answers [.accepted (F := F) (P := P) cb cmd] = [] := rfl
    have hc : RedisLibevent.calls [.accepted (F := F) (P := P) cb cmd] = [] := rfl
    rw [accepted_append, answers_append, calls_append, ha, hc, List.append_nil, List.append_nil,
      List.map_append, answersTo_append_left (by simpa using h.count), h.calls]
  wire := by
    show c.sent ++ (c.obuf ++ cmd) =
      ((accepted (c.log ++ [.accepted cb cmd])).map Prod.snd).flatten
    rw [accepted_append, List.map_append, List.flatten_append, ← h.wire, List.append_assoc]
    simp [accepted]
  function := h.function
  count := by
    show (answers (c.log ++ [.accepted cb cmd])).length ≤
      (accepted (c.log ++ [.accepted cb cmd])).length
    have hle := h.count
    simp only [answers_append, accepted_append, List.length_append]
    exact Nat.add_le_add hle (Nat.zero_le 1)
  writing := fun _ => rfl
  unlocked := h.unlocked
  alive := h.alive

theorem asyncCommand_grown {c : AsyncContext F P} (h : Paired b c) (fn : Option F)
    (privdata : Option P) {cmd : Bytes} (hcmd : regular cmd = true) (E : Fault → Prop) :
    Post (c.asyncCommand fn privdata cmd) E fun r => Grown b c r.2 := by
  by_cases hcl : c.closing = true
  · rw [AsyncContext.asyncCommand_of_closing hcl]
    exact ⟨h, rfl, rfl, le_refl _⟩
  · rw [AsyncContext.asyncCommand, if_neg hcl]
    unfold regular at hcmd
    cases hk : commandKind cmd with
    | error e => simp [hk] at hcmd
    | ok kind =>
      cases kind with
      | unsubscribe =>
        show Post (if c.subscribed = true then _ else _) _ _
        rw [if_neg (by simp [h.subscribed])]
        exact ⟨h, rfl, rfl, le_refl _⟩
      | other =>
        show Post (if c.subscribed = true then _ else _) _ _
        rw [if_neg (by simp [h.subscribed]), AsyncContext.append,
          if_neg (show ¬ (c.pushCallback .replies _).wmutex = true from by
            show ¬ c.wmutex = true
            simp [h.unlocked])]
        exact ⟨h.push_command _ cmd, rfl, rfl, by
          show c.replies.length ≤ (c.replies ++ [_]).length
          simp⟩
      | subscribe p names => simp [hk] at hcmd
      | monitor => simp [hk] at hcmd

/-- A call inside of a callback. -/
theorem call_grown (tear : AsyncContext F P → Except Fault (AsyncContext F P))
    {c : AsyncContext F P} (h : Paired b c) (hc : c.inCallback = true) {a : Api F P}
    (ha : a.regular = true) (E : Fault → Prop) : Post (c.call tear a) E (Grown b c) := by
  cases a with
  | command fn privdata cmd =>
    exact (asyncCommand_grown h fn privdata ha E).map fun _ hg => hg
  | free =>
    rw [AsyncContext.call, AsyncContext.free, if_pos hc]
    exact ⟨h.of_eq rfl rfl rfl rfl rfl rfl rfl rfl rfl rfl rfl rfl rfl, rfl, rfl, le_refl _⟩
  | disconnect =>
    rw [AsyncContext.call, AsyncContext.disconnect, if_neg (by simp [hc])]
    exact ⟨h.of_eq rfl rfl rfl rfl rfl rfl rfl rfl rfl rfl rfl rfl rfl, rfl, rfl, le_refl _⟩

theorem calls_grown (tear : AsyncContext F P → Except Fault (AsyncContext F P))
    {c : AsyncContext F P} (h : Paired b c) (hc : c.inCallback = true) {as : List (Api F P)}
    (ha : ∀ a ∈ as, a.regular = true) (E : Fault → Prop) :
    Post (as.foldlM (AsyncContext.call tear) c) E (Grown b c) := by
  refine Post.foldlM (fun c' a hmem hg => ?_) ⟨h, rfl, rfl, le_refl _⟩
  exact (call_grown tear hg.paired (hg.inCallback.trans hc) (ha a hmem) E).imp fun _ => hg.trans

/-! ## Replies -/

/-- The next callback is called with the next reply. -/
theorem Paired.answer {c : AsyncContext F P} (h : Paired b c) {cb : RedisCallback F P}
    {cbs : List (RedisCallback F P)} (hr : c.replies = cb :: cbs) (r : RedisReply) :
    Paired b ((c.extend (.reply r :: callOf cb (some r))).setList cbs .replies) := by
  have hacc : accepted (.reply r :: callOf cb (some r)) = [] := accepted_callOf cb (some r)
  have hans : answers (.reply r :: callOf cb (some r)) = [r] := by
    show r :: answers (callOf cb (some r)) = [r]
    rw [answers_callOf]
  have hcalls : calls (.reply r :: callOf cb (some r)) = answersTo [cb] [some r] :=
    calls_callOf cb (some r)
  -- the callbacks before `cb` have a reply each
  have hdrop := h.queue.symm.trans hr
  have hlt : (answers c.log).length < ((accepted c.log).map Prod.fst).length := by
    by_contra hle
    rw [List.drop_eq_nil_of_le (not_lt.mp hle)] at hdrop
    cases hdrop
  have htake : ((accepted c.log).map Prod.fst) =
      ((accepted c.log).map Prod.fst).take (answers c.log).length ++ ([cb] ++ cbs) := by
    conv_lhs => rw [← List.take_append_drop (answers c.log).length ((accepted c.log).map Prod.fst)]
    rw [hdrop]
    rfl
  have htl : (((accepted c.log).map Prod.fst).take (answers c.log).length).length =
      ((answers c.log).map some).length := by
    simp only [List.length_take, List.length_map] at hlt ⊢
    omega
  refine ⟨⟨h.subscribed, h.monitoring, h.invalid, h.channels, h.patterns, ?_, ?_, ?_, h.function⟩, ?_,
    h.writing, h.unlocked, h.alive⟩
  · show cbs = ((accepted (c.log ++ _)).map Prod.fst).drop (answers (c.log ++ _)).length
    rw [accepted_append, answers_append, hacc, hans, List.append_nil, List.length_append,
      ← List.drop_drop, hdrop]
    rfl
  · show calls (c.log ++ _) =
      answersTo ((accepted (c.log ++ _)).map Prod.fst) ((answers (c.log ++ _)).map some)
    rw [accepted_append, answers_append, calls_append, hacc, hans, hcalls, List.append_nil,
      List.map_append, h.calls]
    generalize htk : ((accepted c.log).map Prod.fst).take (answers c.log).length = tk at htake htl
    rw [htake, answersTo_append_left htl.ge, answersTo_append htl, List.map_cons, List.map_nil,
      @answersTo_append_left _ _ [cb] [some r] (le_refl _)]
  · show c.sent ++ c.obuf = ((accepted (c.log ++ _)).map Prod.snd).flatten
    rw [accepted_append, hacc, List.append_nil, h.wire]
  · show (answers (c.log ++ _)).length ≤ (accepted (c.log ++ _)).length
    rw [accepted_append, answers_append, hacc, hans, List.append_nil, List.length_append]
    simpa using hlt

/-- A reply that no callback is left for. -/
theorem Paired.spontaneous {c : AsyncContext F P} (h : Paired b c) (hr : c.replies = [])
    (r : RedisReply) (err : Nat) : Settled b { c.push (.reply r) with err := err } := by
  have hdrop := h.queue.symm.trans hr
  have hle : ((accepted c.log).map Prod.fst).length ≤ (answers c.log).length :=
    List.drop_eq_nil_iff.mp hdrop
  have hacc : accepted [.reply (F := F) (P := P) r] = [] := rfl
  have hans : answers [.reply (F := F) (P := P) r] = [r] := rfl
  have hcalls : calls [.reply (F := F) (P := P) r] = [] := rfl
  refine ⟨h.subscribed, h.monitoring, h.invalid, h.channels, h.patterns, ?_, ?_, ?_, h.function⟩
  · show c.replies = ((accepted (c.log ++ _)).map Prod.fst).drop (answers (c.log ++ _)).length
    rw [hr, accepted_append, answers_append, hacc, hans, List.append_nil, List.length_append,
      List.drop_eq_nil_of_le (hle.trans (Nat.le_add_right _ _))]
  · show calls (c.log ++ _) =
      answersTo ((accepted (c.log ++ _)).map Prod.fst) ((answers (c.log ++ _)).map some)
    rw [accepted_append, answers_append, calls_append, hacc, hans, hcalls, List.append_nil,
      List.append_nil, List.map_append, answersTo_append_right (by simpa using hle), h.calls]
  · show c.sent ++ c.obuf = ((accepted (c.log ++ _)).map Prod.snd).flatten
    rw [accepted_append, hacc, List.append_nil, h.wire]

/-- The callback of a reply, and what it calls itself. -/
theorem runCallback_answer (u : User F P) (hu : u.Regular) {c : AsyncContext F P} (h : Paired b c)
    (hc : c.inCallback = false) {cb : RedisCallback F P} {cbs : List (RedisCallback F P)}
    (hr : c.replies = cb :: cbs) (r : RedisReply) (E : Fault → Prop) :
    Post (((c.push (.reply r)).setList cbs .replies).runCallback u cb (some r)) E fun c' =>
      Paired b c' ∧ c'.inCallback = false ∧ cbs.length ≤ c'.replies.length := by
  have hp := h.answer hr r
  cases hfn : cb.fn with
  | none =>
    rw [AsyncContext.runCallback, hfn]
    simp only [callOf, hfn] at hp
    exact ⟨hp, hc, le_refl _⟩
  | some fn =>
    rw [AsyncContext.runCallback, hfn]
    simp only [callOf, hfn] at hp
    have hg := calls_grown (fun _ => .error .reentered)
      (c := { (c.extend [.reply r, .called fn cb.privdata (some r)]).setList cbs .replies with
        inCallback := true })
      (hp.of_eq rfl rfl rfl rfl rfl rfl rfl rfl rfl rfl rfl rfl rfl) rfl
      (hu (c.log ++ [.reply r, .called fn cb.privdata (some r)])) E
    have hreact : Post (AsyncContext.react u (AsyncContext.push
        { (c.push (.reply r)).setList cbs .replies with inCallback := true }
        (.called fn cb.privdata (some r)))) E fun c' => Paired b c' ∧ cbs.length ≤ c'.replies.length := by
      have hpush : AsyncContext.push
          { (c.push (.reply r)).setList cbs .replies with inCallback := true }
          (.called fn cb.privdata (some r)) =
          { (c.extend [.reply r, .called fn cb.privdata (some r)]).setList cbs .replies with
            inCallback := true } := by
        simp [AsyncContext.push, AsyncContext.extend, AsyncContext.setList]
      rw [hpush]
      exact hg.imp fun _ hg => ⟨hg.paired, hg.more⟩
    refine hreact.bind fun c' hac' => ?_
    exact ⟨hac'.1.of_eq rfl rfl rfl rfl rfl rfl rfl rfl rfl rfl rfl rfl rfl, rfl, hac'.2⟩

theorem Blamed.mono {u : User F P} {p q : Prop} {e : Fault} (h : Blamed u p e) (hpq : p → q) :
    Blamed u q e :=
  h.imp_right fun ⟨he, hp⟩ => ⟨he, hpq hp⟩

/-- By induction on the replies. Each takes one callback from the queue, so a reply that finds it empty
was not asked for. -/
theorem processCallbacks_outcome (u : User F P) (hu : u.Regular) (last : Option {e : Nat // e ≠ 0})
    (rs : List RedisReply) {c : AsyncContext F P} (h : Paired b c) (hc : c.inCallback = false)
    (cb : RedisCallback F P) :
    Post (AsyncContext.processCallbacks u last c cb rs)
      (Blamed u (c.replies.length < rs.length)) (Outcome u b) := by
  induction rs generalizing c cb with
  | nil =>
    cases last with
    | some e =>
      rw [AsyncContext.processCallbacks]
      exact (finished_of_disconnect u (c := { c with err := e.1 })
        ⟨h.subscribed, h.monitoring, h.invalid, h.channels, h.patterns, h.queue, h.calls, h.wire, h.function⟩
        (.inr e.2) hc _).imp fun _ => .inr
    | none =>
      rw [AsyncContext.processCallbacks]
      split_ifs with hd hm
      · simp only [Bool.and_eq_true, List.isEmpty_iff] at hd
        exact (finished_of_disconnect u h.toSettled
          (.inl ⟨by simp [AsyncContext.closing, hd.1.1], hd.2⟩) hc _).imp fun _ => .inr
      · exact absurd hm (by simp [h.monitoring])
      · exact .inl ⟨h, hc⟩
  | cons r rs ih =>
    rw [AsyncContext.processCallbacks]
    cases hr : c.replies with
    | nil =>
      have hshift : (c.push (.reply r)).shiftCallback .replies = none :=
        AsyncContext.shiftCallback_of_nil hr
      simp only [hshift]
      split_ifs with he hs
      · exact (finished_of_disconnect u (h.spontaneous hr r 2) (.inr (Nat.succ_ne_zero 1)) hc _).imp
          fun _ => Or.inr
      · exact .inr ⟨rfl, by simp⟩
      · exact absurd (show (!(c.subscribed || c.monitoring)) = true by simp [h.subscribed, h.monitoring])
          hs
      · exact absurd (show (!(c.subscribed || c.monitoring)) = true by simp [h.subscribed, h.monitoring])
          hs
    | cons cb' cbs =>
      have hshift : (c.push (.reply r)).shiftCallback .replies =
          some (cb', (c.push (.reply r)).setList cbs .replies) :=
        AsyncContext.shiftCallback_of_cons hr
      simp only [hshift]
      refine (runCallback_answer u hu h hc hr r _).bind fun c' hc' => ?_
      obtain ⟨hp, hic, hle⟩ := hc'
      split_ifs with hf
      · simp only [Bool.and_eq_true] at hf
        exact (finished_of_closing u hp.toSettled (by simp [AsyncContext.closing, hf.2]) hic _).imp
          fun _ => .inr
      · refine (ih hp hic cb').mono (fun e he => he.mono fun hlt => ?_) fun _ => id
        simp only [List.length_cons]
        omega

/-! ## One step -/

/-- A call outside of all callbacks. -/
theorem call_outcome (u : User F P) {c : AsyncContext F P} (h : Paired b c)
    (hc : c.inCallback = false) {a : Api F P} (ha : a.regular = true) (unasked : Prop) :
    Post (c.call (AsyncContext.asyncFree u) a) (Blamed u unasked) fun c' =>
      Grown b c c' ∨ a.isCommand = false ∧ Finished u b c' := by
  cases a with
  | command fn privdata cmd =>
    exact (asyncCommand_grown h fn privdata ha _).map fun _ hg => .inl hg
  | free =>
    rw [AsyncContext.call, AsyncContext.free, if_neg (by simp [hc])]
    exact (finished_of_closing u (c := { c with freeing := true })
      ⟨h.subscribed, h.monitoring, h.invalid, h.channels, h.patterns, h.queue, h.calls, h.wire, h.function⟩
      (by simp [AsyncContext.closing]) hc _).imp fun _ hf => .inr ⟨rfl, hf⟩
  | disconnect =>
    rw [AsyncContext.call, AsyncContext.disconnect]
    split_ifs with hd
    · simp only [hc, Bool.not_false, Bool.true_and, List.isEmpty_iff] at hd
      exact (finished_of_disconnect u (c := { c with disconnecting := true })
        ⟨h.subscribed, h.monitoring, h.invalid, h.channels, h.patterns, h.queue, h.calls, h.wire, h.function⟩
        (.inl ⟨rfl, hd⟩) hc _).imp fun _ hf => .inr ⟨rfl, hf⟩
    · exact .inl ⟨h.of_eq rfl rfl rfl rfl rfl rfl rfl rfl rfl rfl rfl rfl rfl, rfl, rfl, le_refl _⟩

theorem asyncFree_freed (u : User F P) (c : AsyncContext F P) :
    Post (AsyncContext.asyncFree u c) (fun _ => True) (·.freed = true) := by
  have triv : ∀ r : Except Fault (AsyncContext F P), Post r (fun _ => True) fun _ => True :=
    fun r => by cases r <;> trivial
  unfold AsyncContext.asyncFree
  refine (triv _).bind fun c _ => (triv _).bind fun c _ => (triv _).bind fun c _ => ?_
  exact (triv _).bind fun c _ => (triv _).bind fun c _ => rfl

theorem append_freed (c : AsyncContext F P) (cb : RedisCallback F P) (cmd : Bytes) :
    Post (c.append cb cmd) (fun _ => True) fun r => r.2.freed = c.freed := by
  unfold AsyncContext.append
  split
  · trivial
  · rfl

theorem asyncCommand_freed (c : AsyncContext F P) (fn : Option F) (privdata : Option P)
    (cmd : Bytes) :
    Post (c.asyncCommand fn privdata cmd) (fun _ => True) fun r => r.2.freed = c.freed := by
  unfold AsyncContext.asyncCommand
  split
  · rfl
  · have hk : Post (commandKind cmd) (fun _ => True) fun _ => True := by
      cases commandKind cmd <;> trivial
    refine hk.bind fun kind _ => ?_
    split
    · exact append_freed _ _ _
    · exact append_freed _ _ _
    · split
      · exact append_freed _ _ _
      · rfl
    · exact append_freed _ _ _
    · split <;> exact append_freed _ _ _

/-- What is freed stays so. -/
theorem call_freed (u : User F P) {c : AsyncContext F P} (h : c.freed = true) (a : Api F P) :
    Post (c.call (AsyncContext.asyncFree u) a) (fun _ => True) (·.freed = true) := by
  cases a with
  | command fn privdata cmd =>
    exact (asyncCommand_freed c fn privdata cmd).map fun _ hr => hr.trans h
  | free =>
    rw [AsyncContext.call, AsyncContext.free]
    split
    · exact h
    · exact asyncFree_freed u _
  | disconnect =>
    rw [AsyncContext.call, AsyncContext.disconnect]
    split
    · unfold AsyncContext.asyncDisconnect
      split
      · split
        · exact asyncFree_freed u _
        · trivial
      · exact asyncFree_freed u _
    · exact h

/-- The connect function. -/
theorem runConnect_grown (u : User F P) (hu : u.Regular) {c : AsyncContext F P} (h : Paired b c)
    (hc : c.inCallback = false) (ok : Bool) (unasked : Prop) :
    Post (c.runConnect u ok) (Blamed u unasked) (Grown b c) := by
  unfold AsyncContext.runConnect
  split
  · have hpush : Paired b (c.push (.onConnect ok)) := h.push_other rfl rfl rfl
    have hloop : Post ((u.react (c.push (.onConnect ok)).log).foldlM
        (AsyncContext.call (AsyncContext.asyncFree u)) (c.push (.onConnect ok))) (Blamed u unasked)
        fun c' => Grown b c c' ∨ ¬ u.Polite ∧ c'.freed = true := by
      refine Post.foldlM (fun c' a hmem hor => ?_) (.inl ⟨hpush, rfl, rfl, le_refl _⟩)
      rcases hor with hg | ⟨hn, hf⟩
      · refine (call_outcome u hg.paired (hg.inCallback.trans hc) (hu _ a hmem) unasked).imp ?_
        rintro c'' (hg' | ⟨hcmd, hfin⟩)
        · exact .inl (hg.trans hg')
        · refine .inr ⟨fun hp => ?_, hfin.freed⟩
          have hall := List.all_eq_true.mp (hp c.log ok).1 a hmem
          rw [hcmd] at hall
          cases hall
      · exact (call_freed u hf a).mono (fun _ _ => .inl hn) fun _ hf' => .inr ⟨hn, hf'⟩
    refine hloop.bind fun c' hor => ?_
    rcases hor with hg | ⟨hn, hf⟩
    · rw [if_neg (by simp [hg.paired.alive])]
      exact hg
    · rw [if_pos hf]
      exact .inl hn
  · exact ⟨h, rfl, rfl, le_refl _⟩

/-- The first lines of both handlers. -/
theorem whenConnected_outcome (u : User F P) (hu : u.Regular) {c : AsyncContext F P} (h : Paired b c)
    (hc : c.inCallback = false) (check : AsyncContext.SocketCheck) {unasked : Prop}
    {go : AsyncContext F P → Except Fault (AsyncContext F P)}
    (hgo : ∀ c', Paired b c' → c'.inCallback = false → c.replies.length ≤ c'.replies.length →
      Post (go c') (Blamed u unasked) (Outcome u b)) :
    Post (c.whenConnected u check go) (Blamed u unasked) (Outcome u b) := by
  unfold AsyncContext.whenConnected
  split
  · exact hgo c h hc (le_refl _)
  · cases check with
    | inProgress => exact .inl ⟨h, hc⟩
    | failed err =>
      have hrun := runConnect_grown u hu (c := { c with err := err.1 })
        (h.of_eq rfl rfl rfl rfl rfl rfl rfl rfl rfl rfl rfl rfl rfl) hc false unasked
      have hend : Post (AsyncContext.handleConnect u c (.failed err)) (Blamed u unasked)
          fun r => r.1 = false ∧ Finished u b r.2 := by
        refine hrun.bind fun c' hg => ?_
        have hne : c'.err ≠ 0 := by
          rw [hg.err]
          exact err.2
        exact (finished_of_disconnect u hg.paired.toSettled (.inr hne) (hg.inCallback.trans hc)
          unasked).bind fun c'' hf => ⟨rfl, hf⟩
      refine hend.bind fun ⟨ready, c'⟩ ⟨hready, hf⟩ => ?_
      rw [show ready = false from hready]
      exact .inr hf
    | ready =>
      have hrun := runConnect_grown u hu (c := { c with connected := true })
        (h.of_eq rfl rfl rfl rfl rfl rfl rfl rfl rfl rfl rfl rfl rfl) hc true unasked
      have hend : Post (AsyncContext.handleConnect u c .ready) (Blamed u unasked)
          fun r => r.1 = true ∧ Paired b r.2 ∧ r.2.inCallback = false ∧
            c.replies.length ≤ r.2.replies.length :=
        hrun.bind fun c' hg => ⟨rfl, hg.paired, hg.inCallback.trans hc, hg.more⟩
      refine hend.bind fun ⟨ready, c'⟩ ⟨hready, hp, hic, hle⟩ => ?_
      rw [show ready = true from hready]
      exact hgo c' hp hic hle

/-- More replies than there are callbacks without one. -/
def Step.Unasked (c : AsyncContext F P) : Step F P → Prop
  | .read _ (.data rs _) => c.replies.length < rs.length
  | _ => False

def Step.regular : Step F P → Bool
  | .api a => a.regular
  | _ => true

theorem handleWrite_outcome (u : User F P) {c : AsyncContext F P} (h : Paired b c)
    (hc : c.inCallback = false) (w : AsyncContext.WriteResult) (unasked : Prop) :
    Post (do
      let c := { c with wmutex := true }
      let c ← match w with
        | .failed err => AsyncContext.asyncDisconnect (AsyncContext.asyncFree u) { c with err := err.1 }
        | .wrote n =>
          let rest := c.obuf.drop n
          .ok { c with sent := c.sent ++ c.obuf.take n, obuf := rest,
                        writing := !rest.isEmpty, reading := true }
      return { c with wmutex := false }) (Blamed u unasked) (Outcome u b) := by
  cases w with
  | failed err =>
    refine (finished_of_disconnect u (c := { c with wmutex := true, err := err.1 })
      ⟨h.subscribed, h.monitoring, h.invalid, h.channels, h.patterns, h.queue, h.calls, h.wire, h.function⟩
      (.inr err.2) hc unasked).bind fun c' hf => ?_
    exact .inr ⟨hf.freed, hf.calls, hf.wire, hf.told⟩
  | wrote n =>
    refine .inl ⟨⟨⟨h.subscribed, h.monitoring, h.invalid, h.channels, h.patterns, h.queue, h.calls, ?_,
      h.function⟩, h.count, fun hne => ?_, rfl, h.alive⟩, hc⟩
    · show (c.sent ++ c.obuf.take n) ++ c.obuf.drop n = _
      rw [List.append_assoc, List.take_append_drop, h.wire]
    · simpa [List.isEmpty_iff] using hne

theorem step_outcome (u : User F P) (hu : u.Regular) {c : AsyncContext F P} (h : Paired b c)
    (hc : c.inCallback = false) (a : Step F P) (ha : a.regular = true) :
    Post (step u c a) (Blamed u (a.Unasked c)) (Outcome u b) := by
  cases a with
  | api a =>
    refine (call_outcome u h hc ha _).imp ?_
    rintro c' (hg | ⟨-, hf⟩)
    · exact .inl ⟨hg.paired, hg.inCallback.trans hc⟩
    · exact .inr hf
  | read check r =>
    rw [step, AsyncContext.handleRead]
    refine whenConnected_outcome u hu h hc check fun c' hp hic hle => ?_
    cases r with
    | failed err =>
      exact (finished_of_disconnect u (c := { c' with err := err.1 })
        ⟨hp.subscribed, hp.monitoring, hp.invalid, hp.channels, hp.patterns, hp.queue, hp.calls,
          hp.wire, hp.function⟩ (.inr err.2) hic _).imp fun _ => .inr
    | data rs last =>
      refine (processCallbacks_outcome u hu last rs (c := { c' with reading := true })
        (hp.of_eq rfl rfl rfl rfl rfl rfl rfl rfl rfl rfl rfl rfl rfl) hic ⟨none, none, 0⟩).mono
        (fun e he => he.mono fun hlt => ?_) fun _ => id
      exact lt_of_le_of_lt hle hlt
  | write check w =>
    rw [step, AsyncContext.handleWrite]
    refine whenConnected_outcome u hu h hc check fun c' hp hic hle => ?_
    rw [if_neg (by simp [hp.unlocked])]
    exact handleWrite_outcome u hp hic w _

/-! ## Runs -/

theorem paired_init (onConnect onDisconnect : Bool) :
    Paired onDisconnect (AsyncContext.init (F := F) (P := P) onConnect onDisconnect) :=
  ⟨⟨rfl, rfl, rfl, rfl, rfl, rfl, rfl, rfl, rfl⟩, le_refl _, fun h => absurd rfl h, rfl, rfl⟩

/-- The runs whose commands neither subscribe nor monitor. -/
def plainSys (u : User F P) (onConnect onDisconnect : Bool) : Sys (AsyncContext F P) (Step F P) :=
  (sys u onConnect onDisconnect).only fun _ a => a.regular = true

theorem reach_outcome (u : User F P) (hu : u.Regular) (onConnect onDisconnect : Bool)
    {c : AsyncContext F P} (h : (plainSys u onConnect onDisconnect).Reach c) :
    Outcome u onDisconnect c := by
  refine Sys.Reach.inv_only (.inl ⟨paired_init _ _, rfl⟩) (fun c a c' ho ha hs => ?_) h
  simp only [sys] at hs
  split at hs
  · cases hs
  · rename_i hfr
    obtain ⟨hp, hc⟩ := ho.resolve_right fun hf => hfr hf.freed
    have hok : step u c a = .ok c' := by
      cases hr : step u c a with
      | error e => simp [hr, Except.toOption] at hs
      | ok c₁ =>
        simp only [hr, Except.toOption, Option.some.injEq] at hs
        rw [hs]
    exact (step_outcome u hu hp hc a ha).of_ok hok

/-- However the calls, the callbacks and the events of the socket come: the callback of the `n`-th
accepted command is called once, with the `n`-th reply, or with `NULL` when the context ends before that,
and the commands go out in the order in which they were accepted. -/
theorem answered_in_order (u : User F P) (hu : u.Regular) (onConnect onDisconnect : Bool)
    (c : AsyncContext F P) (h : (plainSys u onConnect onDisconnect).Reach c) :
    calls c.log = answersTo ((accepted c.log).map Prod.fst) ((answers c.log).map some ++
        List.replicate (if c.freed then (accepted c.log).length - (answers c.log).length else 0) none) ∧
      (c.freed = false → c.replies = ((accepted c.log).map Prod.fst).drop (answers c.log).length ∧
        (c.obuf ≠ [] → c.writing = true)) ∧
      c.sent ++ c.obuf = ((accepted c.log).map Prod.snd).flatten := by
  rcases reach_outcome u hu onConnect onDisconnect h with ⟨hp, -⟩ | hf
  · refine ⟨?_, fun _ => ⟨hp.queue, hp.writing⟩, hp.wire⟩
    rw [hp.alive, hp.calls]
    simp
  · refine ⟨?_, fun hfr => absurd hf.freed (by simp [hfr]), hf.wire⟩
    rw [hf.freed, if_pos rfl]
    exact hf.calls

/-- `GET k`. -/
def getCommand : Bytes := formatArgv [[71, 69, 84], [107]]

/-- A user whose first callback sends one more command. -/
def chattyUser : User Nat Unit where
  react log := if (calls log).length = 1 then [.command (some 2) none getCommand] else []
  walk l := l
  walk_perm l := List.Perm.refl l

theorem chattyUser_regular : chattyUser.Regular := by
  have hget : regular getCommand = true := by decide
  intro log a ha
  change a ∈ if (calls log).length = 1 then [Api.command (some 2) none getCommand] else [] at ha
  split at ha
  · rw [List.mem_singleton.mp ha]
    exact hget
  · cases ha

/-- A connection, a command and its reply, and the end of the context before the second one is answered. -/
theorem answered_in_order_twice : ∃ c : AsyncContext Nat Unit,
    calls c.log = [(1, none, some (.string [118])), (2, none, none)] ∧
      calls c.log = answersTo ((accepted c.log).map Prod.fst) ((answers c.log).map some ++
        List.replicate (if c.freed then (accepted c.log).length - (answers c.log).length else 0)
          none) := by
  obtain ⟨c, hrun, hcalls⟩ : ∃ c, (plainSys chattyUser true true).run (.init true true)
      [.read .ready (.data [] none), .api (.command (some 1) none getCommand),
        .write .ready (.wrote 20), .read .ready (.data [.string [118]] none), .api .free] = some c ∧
      calls c.log = [(1, none, some (.string [118])), (2, none, none)] := ⟨_, rfl, rfl⟩
  have hreach : (plainSys chattyUser true true).Reach c := Sys.Reach.init.run _ hrun
  exact ⟨c, hcalls, (answered_in_order chattyUser chattyUser_regular true true c hreach).1⟩

/-- No assertion fails, no context is used or freed twice and the mutex is not taken twice, as long as the
server sends no reply that was not asked for and the connect and disconnect functions free nothing. -/
theorem step_ok (u : User F P) (hu : u.Regular) (hp : u.Polite) (onConnect onDisconnect : Bool)
    (c : AsyncContext F P) (h : (plainSys u onConnect onDisconnect).Reach c) (hf : c.freed = false)
    (a : Step F P) (ha : a.regular = true) (hasked : ¬ a.Unasked c) :
    ∃ c', step u c a = .ok c' := by
  obtain ⟨hpair, hc⟩ := (reach_outcome u hu onConnect onDisconnect h).resolve_right fun hfin => by
    rw [hfin.freed] at hf
    cases hf
  have hstep : Post (step u c a) (fun _ => False) _ := (step_outcome u hu hpair hc a ha).mono
    (fun e he => he.elim (fun hn => hn hp) fun ⟨_, hu⟩ => hasked hu) fun _ => id
  obtain ⟨c', hok, -⟩ := hstep.exists_ok
  exact ⟨c', hok⟩

theorem chattyUser_polite : chattyUser.Polite := by
  intro log ok
  have hall : ∀ log, (chattyUser.react log).all Api.isCommand = true := by
    intro log
    show (if (calls log).length = 1 then [Api.command (some 2) none getCommand] else []).all _ = true
    split <;> rfl
  exact ⟨hall _, hall _⟩

theorem step_ok_twice : ∃ c c', step chattyUser c (.read .ready (.data [.string [118]] none)) = .ok c' ∧
    calls c.log = [] := by
  obtain ⟨c, hrun, hfreed, hcalls, hone⟩ :
      ∃ c, (plainSys chattyUser true true).run (.init true true)
        [.read .ready (.data [] none), .api (.command (some 1) none getCommand)] = some c ∧
      c.freed = false ∧ calls c.log = [] ∧ c.replies.length = 1 := ⟨_, rfl, rfl, rfl, rfl⟩
  have hreach : (plainSys chattyUser true true).Reach c := Sys.Reach.init.run _ hrun
  obtain ⟨c', hok⟩ := step_ok chattyUser chattyUser_regular chattyUser_polite true true c hreach hfreed
    (.read .ready (.data [.string [118]] none)) rfl
    (show ¬ c.replies.length < 1 from by rw [hone]; decide)
  exact ⟨c, c', hok, hcalls⟩

/-! ## A clean disconnect -/

theorem accepted_pendingCalls (u : User F P) (c : AsyncContext F P) :
    accepted (c.pendingCalls u) = [] := by
  simp [AsyncContext.pendingCalls]

/-- A context that takes no commands comes to its end, and none was accepted until then. -/
theorem asyncFree_completes (u : User F P) (hq : ∀ log ok, AsyncContext.Quiet u log ok)
    {c : AsyncContext F P} (h : c.closing = true) (hc : c.inCallback = false) :
    ∃ c', AsyncContext.asyncFree u c = .ok c' ∧ c'.freed = true ∧
      accepted c'.log = accepted c.log := by
  obtain ⟨d, f, heq⟩ := AsyncContext.asyncFree_of_closing u h hc
  have hquiet : c.EndsQuietly u (c.freeing || f || c.errAc == 0) := fun _ => hq _ _
  rw [if_pos hquiet] at heq
  refine ⟨_, heq, rfl, ?_⟩
  have hend : ∀ ok, accepted (c.endCalls ok ++ [.freed]) = [] := by
    intro ok
    unfold AsyncContext.endCalls
    split <;> rfl
  show accepted (c.log ++ (c.pendingCalls u ++ c.endCalls _ ++ [.freed])) = _
  rw [List.append_assoc, accepted_append, accepted_append, accepted_pendingCalls, hend,
    List.append_nil, List.append_nil]

/-- By induction on the replies that are missing: each takes its callback off the queue, and a callback
can add none. -/
theorem processCallbacks_completes (u : User F P) (hq : ∀ log ok, AsyncContext.Quiet u log ok)
    (rs : List RedisReply) {c : AsyncContext F P} (hd : c.disconnecting = true)
    (hc : c.inCallback = false) (ho : c.obuf = []) (hlen : c.replies.length = rs.length)
    (cb : RedisCallback F P) :
    ∃ c', AsyncContext.processCallbacks u none c cb rs = .ok c' ∧ c'.freed = true ∧
      accepted c'.log = accepted c.log := by
  have hcl : c.closing = true := by simp [AsyncContext.closing, hd]
  induction rs generalizing c cb with
  | nil =>
    have hr : c.replies = [] := List.length_eq_zero_iff.mp hlen
    rw [AsyncContext.processCallbacks, if_pos (by simp [hd, ho, hr]), AsyncContext.asyncDisconnect]
    split
    · rw [if_pos (by simp [hr])]
      exact asyncFree_completes u hq (c := { c with errAc := c.err }) hcl hc
    · exact asyncFree_completes u hq (c := { c with errAc := c.err, disconnecting := true })
        (by simp [AsyncContext.closing]) hc
  | cons r rs ih =>
    obtain ⟨cb', cbs, hr⟩ : ∃ cb' cbs, c.replies = cb' :: cbs :=
      List.exists_cons_of_ne_nil fun h => by simp [h] at hlen
    have hshift : (c.push (.reply r)).shiftCallback .replies =
        some (cb', (c.push (.reply r)).setList cbs .replies) :=
      AsyncContext.shiftCallback_of_cons hr
    obtain ⟨d, f, hrun⟩ := AsyncContext.runCallback_of_closing u
      (c := (c.push (.reply r)).setList cbs .replies) hcl hc cb' (some r)
    have hacc : ∀ c' : AsyncContext F P, accepted c'.log =
        accepted ((((c.push (.reply r)).setList cbs .replies).extend (callOf cb' (some r))).raise
          d f).log → accepted c'.log = accepted c.log := by
      intro c' h
      rw [h]
      show accepted ((c.log ++ [.reply r]) ++ callOf cb' (some r)) = _
      rw [accepted_append, accepted_append, accepted_callOf, List.append_nil]
      exact List.append_nil _
    have hdis : ((((c.push (.reply r)).setList cbs .replies).extend (callOf cb' (some r))).raise
        d f).disconnecting = true := by
      show (c.disconnecting || d) = true
      rw [hd, Bool.true_or]
    rw [AsyncContext.processCallbacks]
    simp only [hshift, hrun, bind, Except.bind]
    split
    · obtain ⟨c', h1, h2, h3⟩ := asyncFree_completes u hq
        (c := (((c.push (.reply r)).setList cbs .replies).extend (callOf cb' (some r))).raise d f)
        (by rw [AsyncContext.closing, hdis, Bool.true_or]) hc
      exact ⟨c', h1, h2, hacc c' h3⟩
    · obtain ⟨c', h1, h2, h3⟩ := ih
        (c := (((c.push (.reply r)).setList cbs .replies).extend (callOf cb' (some r))).raise d f)
        hdis hc ho
        (by
          show cbs.length = rs.length
          simpa [hr] using hlen)
        cb' (by rw [AsyncContext.closing, hdis, Bool.true_or])
      exact ⟨c', h1, h2, hacc c' h3⟩

/-- Once `redisAsyncDisconnect` was called and the output is flushed, the read that brings the last replies
that are missing ends the context, in whatever modes it is. No command was accepted until then. -/
theorem disconnect_completes (u : User F P) (hq : ∀ log ok, AsyncContext.Quiet u log ok)
    (c : AsyncContext F P) (hd : c.disconnecting = true) (hcon : c.connected = true)
    (hc : c.inCallback = false) (ho : c.obuf = []) (check : AsyncContext.SocketCheck)
    (rs : List RedisReply) (hlen : c.replies.length = rs.length) :
    ∃ c', step u c (.read check (.data rs none)) = .ok c' ∧ c'.freed = true ∧
      accepted c'.log = accepted c.log := by
  rw [step, AsyncContext.handleRead, AsyncContext.whenConnected, if_pos hcon]
  exact processCallbacks_completes u hq rs (c := { c with reading := true }) hd hc ho hlen
    ⟨none, none, 0⟩

/-- Two requests wait for their replies when the context is disconnected. -/
theorem disconnect_completes_two : ∃ c c' : AsyncContext Nat Unit, c.freed = false ∧
    step chattyUser c (.read .ready (.data [.nil, .nil] none)) = .ok c' ∧ c'.freed = true := by
  obtain ⟨c, hrun, hfreed, hd, hcon, hc, ho, hlen⟩ :
      ∃ c : AsyncContext Nat Unit, (plainSys chattyUser true true).run (.init true true)
        [.read .ready (.data [] none), .api (.command (some 1) none getCommand),
          .api (.command (some 2) none getCommand), .write .ready (.wrote 40), .api .disconnect] =
            some c ∧
      c.freed = false ∧ c.disconnecting = true ∧ c.connected = true ∧ c.inCallback = false ∧
        c.obuf = [] ∧ c.replies.length = 2 := ⟨_, rfl, rfl, rfl, rfl, rfl, rfl, rfl⟩
  obtain ⟨c', hok, hf, -⟩ := disconnect_completes chattyUser (fun _ _ => (chattyUser_polite _ _).2) c
    hd hcon hc ho .ready [.nil, .nil] hlen
  exact ⟨c, c', hfreed, hok, hf⟩

end RedisLibevent
end CmakeFrame
