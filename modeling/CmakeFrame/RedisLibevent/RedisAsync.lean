import CmakeFrame.RedisLibevent.Paired

/-!
# The connections of `RedisAsync`

`redislibevent/RedisAsync.cpp`: what the class does with one of its contexts.

* `connUser`: `connectCallback`, `disconnectCallback` and `respondCallback`.
* `requestNum`: the count of requests that `RedisBlockClear` waits for.
* `ended_by_error`: a connected context comes to its end by an error only.
* `requestNum_drained`: what is left of the count when every request is answered.
-/

namespace CmakeFrame
namespace RedisLibevent

open Lib

variable {F P : Type}

/-- What the class does when it is called. `RedisOnConnection` frees a context of `conns_` once more when
it is told of its clean end, `respondCallback` calls the application, which can send requests. -/
def connUser (app : List (Event F P) → List (Api F P)) : User F P where
  react log :=
    match log.getLast? with
    | some (.onDisconnect true) => [.free]
    | some (.called ..) => (app log).filter Api.isCommand
    | _ => []
  walk l := l
  walk_perm l := List.Perm.refl l

/-- `requestNum`: `set` and `hmset` count a request that was accepted, and `respondCallback` one that it
is called for. The variable is static, without a lock: this is its value when one thread uses one
context. -/
def requestNum : List (Event F P) → Int
  | [] => 0
  | .accepted .. :: log => requestNum log + 1
  | .called .. :: log => requestNum log - 1
  | _ :: log => requestNum log

theorem connUser_regular {app : List (Event F P) → List (Api F P)}
    (h : ∀ log, ∀ a ∈ app log, a.regular = true) : (connUser app).Regular := by
  intro log a ha
  simp only [connUser] at ha
  split at ha
  · rw [List.mem_singleton.mp ha]
    rfl
  · exact h log a (List.mem_of_mem_filter ha)
  · cases ha

/-- In every run of a context that `RedisConnect` made: when a connected context has come to its end, it
was told an error. It is never closed. -/
theorem ended_by_error (app : List (Event F P) → List (Api F P))
    (happ : ∀ log, ∀ a ∈ app log, a.regular = true) (ac : AsyncContext F P)
    (h : (plainSys (connUser app) true true).Reach ac) (hcon : ac.connected = true)
    (hf : ac.freed = true) :
    ∃ log, ac.log = log ++ [.onDisconnect false, .freed] := by
  rcases reach_outcome _ (connUser_regular happ) true true h with ⟨hp, -⟩ | hfin
  · exact absurd hf (by simp [hp.alive])
  · obtain ⟨log, ok, hlog, hquiet⟩ := hfin.told rfl hcon
    cases ok with
    | false => exact ⟨log, hlog⟩
    | true =>
      have hfree : (connUser app).react (log ++ [.onDisconnect true]) = [.free] := by
        simp [connUser]
      rw [AsyncContext.Quiet, hfree] at hquiet
      cases hquiet

/-- A connected context whose peer closes the connection. -/
theorem ended_by_error_eof : ∃ (ac : AsyncContext Nat Unit) (log : List (Event Nat Unit)),
    calls ac.log = [(1, none, none)] ∧ ac.log = log ++ [.onDisconnect false, .freed] := by
  obtain ⟨ac, hrun, hcalls, hcon, hfreed⟩ :
      ∃ ac : AsyncContext Nat Unit, (plainSys (connUser fun _ => []) true true).run (.init true true)
        [.read .ready (.data [] none), .api (.command (some 1) none getCommand),
          .read .ready (.failed ⟨3, by decide⟩)] = some ac ∧
      calls ac.log = [(1, none, none)] ∧ ac.connected = true ∧ ac.freed = true :=
    ⟨_, rfl, rfl, rfl, rfl⟩
  have hreach : (plainSys (connUser fun _ => []) true true).Reach ac := Sys.Reach.init.run _ hrun
  obtain ⟨log, hlog⟩ := ended_by_error (fun _ => []) (by simp) ac hreach hcon hfreed
  exact ⟨ac, log, hcalls, hlog⟩

theorem requestNum_eq (log : List (Event F P)) :
    requestNum log = (accepted log).length - (calls log).length := by
  induction log with
  | nil => rfl
  | cons e log ih =>
    cases e <;> simp only [requestNum, accepted, calls, List.filterMap_cons, List.length_cons] <;>
      simp only [accepted, calls] at ih <;> omega

theorem answersTo_length {cbs : List (RedisCallback F P)} {rs : List (Option RedisCluster.RedisReply)}
    (h : cbs.length ≤ rs.length) :
    (answersTo cbs rs).length = cbs.countP fun cb => cb.fn.isSome := by
  induction cbs generalizing rs with
  | nil => rfl
  | cons cb cbs ih =>
    cases rs with
    | nil => simp at h
    | cons r rs =>
      have hle : cbs.length ≤ rs.length := by simpa using h
      have hcons : answersTo (cb :: cbs) (r :: rs) = answersTo [cb] [r] ++ answersTo cbs rs :=
        @answersTo_append _ _ [cb] [r] rfl cbs rs
      rw [hcons, List.length_append, ih hle, List.countP_cons]
      cases hfn : cb.fn <;> simp [answersTo, hfn, Nat.add_comm]

/-- When every accepted request has been answered, or the context is gone, the count is what was sent
without a function. `RedisBlockClear` goes on if there was no such request, and waits for ever else. -/
theorem requestNum_drained (u : User F P) (hu : u.Regular) (onConnect onDisconnect : Bool)
    (ac : AsyncContext F P) (h : (plainSys u onConnect onDisconnect).Reach ac)
    (hr : ac.freed = true ∨ ac.replies = []) :
    requestNum ac.log = ((accepted ac.log).map Prod.fst).countP fun cb => cb.fn.isNone := by
  have hcount : ∀ cbs : List (RedisCallback F P),
      cbs.length = (cbs.countP fun cb => cb.fn.isSome) + cbs.countP fun cb => cb.fn.isNone := by
    intro cbs
    rw [List.length_eq_countP_add_countP fun cb : RedisCallback F P => cb.fn.isSome]
    congr 1
    refine List.countP_congr fun cb _ => ?_
    cases cb.fn <;> simp
  obtain ⟨rs, hcalls, hle⟩ : ∃ rs, calls ac.log = answersTo ((accepted ac.log).map Prod.fst) rs ∧
      ((accepted ac.log).map Prod.fst).length ≤ rs.length := by
    rcases reach_outcome u hu onConnect onDisconnect h with ⟨hp, -⟩ | hfin
    · refine ⟨_, hp.calls, ?_⟩
      have hnil := hr.resolve_left (by simp [hp.alive])
      simpa using List.drop_eq_nil_iff.mp (hp.queue.symm.trans hnil)
    · refine ⟨_, hfin.calls, ?_⟩
      simp only [List.length_map, List.length_append, List.length_replicate]
      omega
  have hlen := hcount ((accepted ac.log).map Prod.fst)
  rw [List.length_map] at hlen
  rw [requestNum_eq, hcalls, answersTo_length hle, hlen]
  omega

/-- Two requests, one of them without a function, that are both answered. -/
theorem requestNum_drained_two : ∃ ac : AsyncContext Nat Unit, requestNum ac.log = 1 ∧
    requestNum ac.log = ((accepted ac.log).map Prod.fst).countP fun cb => cb.fn.isNone := by
  obtain ⟨ac, hrun, hnum, hr⟩ :
      ∃ ac : AsyncContext Nat Unit, (plainSys chattyUser true true).run (.init true true)
        [.read .ready (.data [] none), .api (.command (some 1) none getCommand),
          .api (.command none none getCommand),
          .read .ready (.data [.string [118], .nil] none),
          .read .ready (.data [.nil] none)] = some ac ∧
      requestNum ac.log = 1 ∧ ac.replies = [] := ⟨_, rfl, rfl, rfl⟩
  have hreach : (plainSys chattyUser true true).Reach ac := Sys.Reach.init.run _ hrun
  exact ⟨ac, hnum,
    requestNum_drained chattyUser chattyUser_regular true true ac hreach (.inr hr)⟩

end RedisLibevent
end CmakeFrame
