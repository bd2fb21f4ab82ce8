import CmakeFrame.CurlHttpCli.Exit

/-!
# The connections of a URL

The queue of a URL should hold its idle connections. A call that finds one takes only the number of
its loop from it: nobody calls `setHttpConnInfo`, so the loop makes a new connection, and the one that
was taken is in no queue any more.

A pool changes by whole operations (a request is processed, a transfer is complete, a connection is
swept), so the steps of a loop are whole turns here.

* `idle`, `existing`, `serving`: the connections of a URL.
* `Pooled`: what the pool of a URL should be.
* `Untouched`: the condition on a step; `PoolInv`: the invariant; `pool_conserved`: in every run whose
  steps all meet the condition.
* `idle_connection_lost`: a call that finds an idle connection.
-/

namespace CmakeFrame
namespace CurlHttp

open Lib

/-- The queue of the URL `u`. -/
def UrlMap.idle (urlMap : UrlMap) (u : Bytes) : List ConnId :=
  match urlMap u with
  | none => []
  | some q => q.queue

/-- A pointer to a connection, followed. -/
def connAt (loops : List AsyncCurlHttp) (id : ConnId) : Option ConnInfo :=
  loops[id.ioThreadSubindex]?.bind fun l => l.conns[id.conn]?

/-- How many connections were made for `u`. -/
def existing (loops : List AsyncCurlHttp) (u : Bytes) : Nat :=
  (loops.map fun l => l.conns.countP fun c => c.reqUrl = u).sum

/-- How many connections for `u` have a request. -/
def serving (loops : List AsyncCurlHttp) (u : Bytes) : Nat :=
  (loops.map fun l => l.conns.countP fun c => c.reqUrl = u ∧ c.reqInfo ≠ none).sum

/-- The pool of `u`, which may have `m` connections. -/
structure Pooled (u : Bytes) (m : Nat) (s : CurlHttpCli) : Prop where
  /-- A connection is idle, once, or it serves one request for `u` that is nowhere else. -/
  conns : ∀ id c, connAt s.loops id = some c → c.reqUrl = u →
    (c.reqInfo = none ∧ (s.urlMap.idle u).count id = 1) ∨
    ((s.urlMap.idle u).count id = 0 ∧ ∃ r sess, c.reqInfo = some r ∧ s.reqs r = some sess ∧
      sess.httpRequestUrl = u ∧ s.places r = [.bound id.ioThreadSubindex id.conn])
  /-- A connection that was popped serves the request that it was popped for. -/
  popped : ∀ r c id, s.calls[r]? = some c → c.req.httpRequestUrl = u → c.conn = some id →
    ∀ loop conn, .bound loop conn ∈ s.places r → id = ⟨loop, conn⟩
  atMost : existing s.loops u ≤ m
  /-- A call waits only while all connections are in use. -/
  waits : ∀ (r : Nat) c q, s.calls[r]? = some c → c.req.httpRequestUrl = u → c.pc = .pop →
    s.urlMap u = some q → q.httpcliConnPop = .wait → serving s.loops u = m

/-! ## The condition -/

/-- The URL of the connection that a step of loop `i` makes. -/
def CurlHttpCli.newConn (s : CurlHttpCli) (i : Nat) : LoopEvent → Option Bytes
  | .turn (.ok _) _ =>
    match s.loops[i]? with
    | none => none
    | some l =>
      match l.pc, l.queue with
      | .requet (_ + 1) _, req :: _ =>
        match s.reqs req with
        | none => none
        | some sess => if sess.supported then some sess.httpRequestUrl else none
      | _, _ => none
  | .read | .socket | .done _ _ | .noMsg | .turn _ _ | .forEach | .leave _ | .finish => none

/-- The connection that a step of loop `i` gives back, and the URL that it is given back for. -/
def CurlHttpCli.backConn (s : CurlHttpCli) (i : Nat) : LoopEvent → Option (ConnInfo × Bytes)
  | .done k eff_url => (connAt s.loops ⟨i, k⟩).map fun c => (c, cstr eff_url)
  | .forEach =>
    match s.loops[i]? with
    | none => none
    | some l =>
      match l.pc with
      | .forEach k seconds _ =>
        match l.conns[k]? with
        | none => none
        | some c => if c.isOut seconds then some (c, cstr c.reqUrl) else none
      | _ => none
  | .read | .socket | .noMsg | .turn _ _ | .leave _ | .finish => none

/-- The condition on a step, as far as `u` is concerned: a call finds no idle connection, `queueSize_`
of a new queue is below `m`, a connection is made while there are less than `m`, and it is given back
to the queue of its own URL. -/
def Untouched (cfg : Config) (u : Bytes) (m : Nat) (s : CurlHttpCli) : CurlAct → Prop
  | .call i => ∀ c ∈ s.calls[i]?, c.req.httpRequestUrl = u →
      (c.pc = .pop → s.urlMap.idle u = []) ∧ (c.pc = .insert → cfg.garbage u < m)
  | .loop i e => (s.newConn i e = some u → existing s.loops u < m) ∧
      ∀ b ∈ s.backConn i e, b.1.reqUrl = u ↔ b.2 = u
  | .rsp | .wake | .exit => True

instance (cfg : Config) (u : Bytes) (m : Nat) (s : CurlHttpCli) :
    (a : CurlAct) → Decidable (Untouched cfg u m s a)
  | .call i => inferInstanceAs (Decidable (∀ c ∈ s.calls[i]?, _))
  | .loop _ _ => inferInstanceAs (Decidable (_ ∧ _))
  | .rsp | .wake | .exit => inferInstanceAs (Decidable True)

/-! ## The invariant -/

/-- A connection without a request is not with libcurl and has no time to run out. -/
def ConnInfo.Rests (c : ConnInfo) : Prop := c.reqInfo = none → c.added = false ∧ c.outSecond = 0

/-- A connection is made for the URL of its request. -/
def ConnInfo.Fits (reqs : Nat → Option HttpReqSession) (c : ConnInfo) : Prop :=
  ∀ r ∈ c.reqInfo, ∃ sess ∈ reqs r, sess.httpRequestUrl = c.reqUrl

/-- 1 if `id` is a connection for `u` without a request. -/
def idleAt (loops : List AsyncCurlHttp) (u : Bytes) (id : ConnId) : Nat :=
  match connAt loops id with
  | none => 0
  | some c => ind (c.reqUrl = u ∧ c.reqInfo = none)

/-- The queue of `u`, if there is one. -/
def QueueOk (m : Nat) (q : HttpConnInfoQueue) : Prop :=
  (q.maxSize = 0 ∨ q.maxSize = m) ∧ (q.queue = [] → q.maxSize = m → q.queueSize < m)

structure PoolInv (reqs : List HttpReqSession) (u : Bytes) (m : Nat) (s : CurlHttpCli) : Prop where
  conserved : Conserved s
  same : s.calls.map (·.req) = reqs
  rests : ∀ id c, connAt s.loops id = some c → c.Rests ∧ c.Fits fun r => reqs[r]?
  idle : ∀ id, (s.urlMap.idle u).count id = idleAt s.loops u id
  atMost : existing s.loops u ≤ m
  queue : ∀ q, s.urlMap u = some q → QueueOk m q
  popped : ∀ (r : Nat) c, s.calls[r]? = some c → c.req.httpRequestUrl = u → c.conn = none

/-! ## Calls -/

section

variable {cfg : Config} {reqs : List HttpReqSession} {u : Bytes} {m : Nat} {s s' : CurlHttpCli}
  {loops : List AsyncCurlHttp} {l l' : AsyncCurlHttp} {i : Nat} {c : Call}

theorem connAt_set_of_ne {id : ConnId} (h : id.ioThreadSubindex ≠ i) :
    connAt (loops.set i l') id = connAt loops id := by
  unfold connAt
  rw [List.getElem?_set_ne h.symm]

theorem connAt_set_self (hl : loops[i]? = some l) (k : Nat) :
    connAt (loops.set i l') ⟨i, k⟩ = l'.conns[k]? := by
  have hlt : i < loops.length := (List.getElem?_eq_some_iff.mp hl).1
  simp only [connAt]
  rw [List.getElem?_set_self hlt]
  rfl

theorem connAt_self (hl : loops[i]? = some l) (k : Nat) : connAt loops ⟨i, k⟩ = l.conns[k]? := by
  simp only [connAt]
  rw [hl]
  rfl

/-- A loop goes on with the same connections. -/
theorem connAt_set (hl : loops[i]? = some l) (h : l'.conns = l.conns) (id : ConnId) :
    connAt (loops.set i l') id = connAt loops id := by
  obtain ⟨j, k⟩ := id
  rcases eq_or_ne j i with rfl | hne
  · rw [connAt_set_self hl, connAt_self hl, h]
  · exact connAt_set_of_ne hne

theorem existing_set (hl : loops[i]? = some l) (l' : AsyncCurlHttp) :
    existing (loops.set i l') u + l.conns.countP (fun c => c.reqUrl = u) =
      existing loops u + l'.conns.countP fun c => c.reqUrl = u :=
  sum_map_set (fun l : AsyncCurlHttp => l.conns.countP fun c : ConnInfo => c.reqUrl = u) hl l'

/-- What the invariant reads is as before, but for the calls. -/
theorem PoolInv.congr (hi : PoolInv reqs u m s) (hcons : Conserved s')
    (hsame : s'.calls.map (·.req) = s.calls.map (·.req))
    (hconn : ∀ id, connAt s'.loops id = connAt s.loops id)
    (hexisting : existing s'.loops u = existing s.loops u)
    (hidle : s'.urlMap.idle u = s.urlMap.idle u)
    (hqueue : ∀ q, s'.urlMap u = some q → QueueOk m q)
    (hpopped : ∀ (r : Nat) c, s'.calls[r]? = some c → c.req.httpRequestUrl = u → c.conn = none) :
    PoolInv reqs u m s' where
  conserved := hcons
  same := hsame.trans hi.same
  rests id c hc := hi.rests id c (by rw [← hconn]; exact hc)
  idle id := by
    unfold idleAt
    rw [hidle, hconn]
    exact hi.idle id
  atMost := by
    rw [hexisting]
    exact hi.atMost
  queue := hqueue
  popped := hpopped

/-- Call `i` goes on, and no connection is touched. -/
theorem PoolInv.setCall (hi : PoolInv reqs u m s) (hcons : Conserved s') (hc : s.calls[i]? = some c)
    {pc : CallPc} {conn : Option ConnId} (hcalls : s'.calls = s.calls.set i { c with pc, conn })
    (hconn : c.req.httpRequestUrl = u → conn = none)
    (hat : ∀ id, connAt s'.loops id = connAt s.loops id)
    (hexisting : existing s'.loops u = existing s.loops u)
    (hidle : s'.urlMap.idle u = s.urlMap.idle u)
    (hqueue : ∀ q, s'.urlMap u = some q → QueueOk m q) : PoolInv reqs u m s' := by
  refine hi.congr hcons ?_ hat hexisting hidle hqueue fun r d hd hu => ?_
  · rw [hcalls]
    exact map_set_of_eq hc rfl
  · rw [hcalls] at hd
    rcases set_cases hd with ⟨-, rfl⟩ | ⟨-, hd⟩
    · exact hconn hu
    · exact hi.popped r d hd hu

theorem idle_update_of_ne {urlMap : UrlMap} {v : Bytes} (h : v ≠ u) (q : Option HttpConnInfoQueue) :
    UrlMap.idle (Function.update urlMap v q) u = urlMap.idle u := by
  unfold UrlMap.idle
  rw [Function.update_of_ne h.symm]

theorem idle_insert {urlMap : UrlMap} (garbage : Bytes → Nat) (v : Bytes) (maxSize : Nat) :
    (urlMap.insert garbage v maxSize).idle u = urlMap.idle u := by
  unfold UrlMap.insert
  split
  · rfl
  · rename_i hnone
    rcases eq_or_ne v u with rfl | hne
    · simp [UrlMap.idle, hnone]
    · exact idle_update_of_ne hne _

theorem insert_cases {urlMap : UrlMap} {garbage : Bytes → Nat} {v : Bytes} {maxSize : Nat}
    {q : HttpConnInfoQueue} (h : urlMap.insert garbage v maxSize u = some q) :
    urlMap u = some q ∨ (v = u ∧ q = ⟨maxSize, garbage v, []⟩) := by
  cases hv : urlMap v with
  | some q' =>
    simp only [UrlMap.insert, hv] at h
    exact .inl h
  | none =>
    simp only [UrlMap.insert, hv] at h
    rcases eq_or_ne v u with rfl | hne
    · rw [Function.update_self] at h
      cases h
      exact .inr ⟨rfl, rfl⟩
    · rw [Function.update_of_ne hne.symm] at h
      exact .inl h

/-- A step of a call keeps the invariant. -/
theorem PoolInv.callStep (hi : PoolInv reqs u m s) (hreqs : ∀ req ∈ reqs, req.httpRequestUrl = u →
      req.httpUrlmaxConns = m) (hc : s.calls[i]? = some c)
    (ha : Untouched cfg u m s (.call i)) (h : callStep cfg s i c = some s') :
    PoolInv reqs u m s' := by
  have hcons := hi.conserved.callStep hc h
  have ha := ha c hc
  have hnone := hi.popped i c hc
  obtain ⟨req, pc, conn⟩ := c
  cases pc with
  | called | find | add =>
    cases h
    exact hi.setCall hcons hc rfl hnone (fun _ => rfl) rfl rfl hi.queue
  | waiting =>
    simp only [CurlHttp.callStep] at h
    split at h
    · cases h
      exact hi.setCall hcons hc rfl hnone (fun _ => rfl) rfl rfl hi.queue
    · cases h
  | pop =>
    simp only [CurlHttp.callStep] at h
    split at h
    · cases h
    · rename_i q hq
      split at h
      · cases h
      · cases h
        exact hi.setCall hcons hc rfl hnone (fun _ => rfl) rfl rfl hi.queue
      · rename_i popped q' hpop
        have hne : req.httpRequestUrl ≠ u := by
          intro hu
          have hidle := (ha hu).1 rfl
          rw [hu] at hq
          simp only [UrlMap.idle, hq] at hidle
          rw [HttpConnInfoQueue.httpcliConnPop, hidle] at hpop
          simp only at hpop
          split at hpop <;> cases hpop
        cases h
        refine hi.setCall hcons hc rfl (fun hu => absurd hu hne) (fun _ => rfl) rfl
          (idle_update_of_ne hne _) fun q hq => hi.queue q ?_
        exact (Function.update_of_ne hne.symm _ _).symm.trans hq
  | insert =>
    cases h
    refine hi.setCall hcons hc rfl hnone (fun _ => rfl) rfl (idle_insert _ _ _) fun q hq => ?_
    rcases insert_cases hq with hq | ⟨hu, rfl⟩
    · exact hi.queue q hq
    · refine ⟨.inr ?_, fun _ _ => ?_⟩
      · refine hreqs req ?_ hu
        rw [← hi.same]
        exact List.mem_map.mpr ⟨_, List.mem_of_getElem? hc, rfl⟩
      · show cfg.garbage req.httpRequestUrl < m
        rw [hu]
        exact (ha hu).2 rfl
  | pick =>
    cases h
    exact hi.setCall hcons hc rfl hnone (fun _ => rfl) rfl rfl hi.queue
  | push index =>
    simp only [CurlHttp.callStep] at h
    split at h
    · cases h
    · rename_i l hl
      split at h
      · cases h
        exact hi.setCall hcons hc rfl hnone (fun _ => rfl) rfl rfl hi.queue
      · split at h
        · cases h
        · cases h
          refine hi.setCall hcons hc rfl hnone (connAt_set hl rfl) ?_ rfl hi.queue
          exact Nat.add_right_cancel (existing_set hl (l.push i))
  | wakeup index =>
    simp only [CurlHttp.callStep] at h
    split at h
    · cases h
    · rename_i l hl
      split at h
      · cases h
      · cases h
        refine hi.setCall hcons hc rfl hnone (connAt_set hl rfl) ?_ rfl hi.queue
        exact Nat.add_right_cancel (existing_set hl l.wakeup)
  | refuse =>
    cases h
    exact hi.setCall hcons hc rfl hnone (fun _ => rfl) rfl rfl hi.queue
  | returned ret => cases h

/-! ## Loops -/

/-- Loop `i` goes on with the same connections. -/
theorem PoolInv.setLoop (hi : PoolInv reqs u m s) (hcons : Conserved s')
    (hl : s.loops[i]? = some l) (hloops : s'.loops = s.loops.set i l') (hconns : l'.conns = l.conns)
    (hcalls : s'.calls = s.calls) (hmap : s'.urlMap = s.urlMap) : PoolInv reqs u m s' := by
  refine hi.congr hcons (by rw [hcalls]) (fun id => ?_) ?_ (by rw [hmap]) (by rw [hmap]; exact hi.queue)
    (by rw [hcalls]; exact hi.popped)
  · rw [hloops]
    exact connAt_set hl hconns id
  · have hset := existing_set (u := u) hl l'
    rw [hconns] at hset
    rw [hloops]
    exact Nat.add_right_cancel hset

theorem connAt_append_of_some {d c : ConnInfo} (hl : loops[i]? = some l)
    (hconns : l'.conns = l.conns ++ [d]) {id : ConnId} (h : connAt loops id = some c) :
    connAt (loops.set i l') id = some c := by
  obtain ⟨j, k⟩ := id
  rcases eq_or_ne j i with rfl | hne
  · rw [connAt_self hl] at h
    rw [connAt_set_self hl, hconns, List.getElem?_append_left (List.getElem?_eq_some_iff.mp h).1, h]
  · rw [connAt_set_of_ne hne, h]

theorem connAt_append {d c : ConnInfo} (hl : loops[i]? = some l)
    (hconns : l'.conns = l.conns ++ [d]) {id : ConnId}
    (h : connAt (loops.set i l') id = some c) :
    (id = ⟨i, l.conns.length⟩ ∧ c = d) ∨ connAt loops id = some c := by
  obtain ⟨j, k⟩ := id
  rcases eq_or_ne j i with rfl | hne
  · rw [connAt_set_self hl, hconns, List.getElem?_append] at h
    split at h
    · exact .inr ((connAt_self hl k).trans h)
    · have hk : k - l.conns.length = 0 := by
        have := (List.getElem?_eq_some_iff.mp h).1
        simp only [List.length_singleton] at this
        omega
      rw [hk] at h
      cases h
      exact .inl ⟨by rw [show k = l.conns.length by omega], rfl⟩
  · rw [connAt_set_of_ne hne] at h
    exact .inr h

/-- A connection is made. -/
theorem PoolInv.bind (hi : PoolInv reqs u m s) (hcons : Conserved s') (hl : s.loops[i]? = some l)
    {d : ConnInfo} {r : Nat} (hd : d.reqInfo = some r) (hfits : d.Fits fun r => reqs[r]?)
    (hlt : d.reqUrl = u → existing s.loops u < m)
    (hloops : s'.loops = s.loops.set i l') (hconns : l'.conns = l.conns ++ [d])
    (hcalls : s'.calls = s.calls) (hmap : s'.urlMap = s.urlMap) : PoolInv reqs u m s' where
  conserved := hcons
  same := by rw [hcalls, hi.same]
  rests id c hc := by
    rw [hloops] at hc
    rcases connAt_append hl hconns hc with ⟨rfl, rfl⟩ | hold
    · refine ⟨fun hnone => ?_, hfits⟩
      rw [hd] at hnone
      cases hnone
    · exact hi.rests id c hold
  idle id := by
    rw [hmap, hi.idle, hloops]
    unfold idleAt
    cases hold : connAt s.loops id with
    | some c => rw [connAt_append_of_some hl hconns hold]
    | none =>
      cases hnew : connAt (s.loops.set i l') id with
      | none => rfl
      | some c =>
        rcases connAt_append hl hconns hnew with ⟨-, rfl⟩ | hc
        · simp [ind, hd]
        · rw [hold] at hc
          cases hc
  atMost := by
    have hset := existing_set (u := u) hl l'
    rw [hconns, List.countP_append, List.countP_singleton] at hset
    have hle := hi.atMost
    rw [hloops]
    split at hset
    · rename_i hu
      have := hlt (by simpa using hu)
      omega
    · omega
  queue := by
    rw [hmap]
    exact hi.queue
  popped := by
    rw [hcalls]
    exact hi.popped

/-! ## A connection goes back -/

theorem idle_return (urlMap : UrlMap) (garbage : Bytes → Nat) (r : Return) (u : Bytes) :
    (urlMap.returnUrlConnInfo garbage i r).idle u =
      if r.url = u then urlMap.idle u ++ [⟨i, r.conn⟩] else urlMap.idle u := by
  by_cases hu : r.url = u
  · rw [if_pos hu]
    subst hu
    cases hq : urlMap r.url <;>
      simp [UrlMap.returnUrlConnInfo, UrlMap.idle, hq, HttpConnInfoQueue.httpcliConnInsert]
  · rw [if_neg hu]
    cases hq : urlMap r.url <;>
      simp [UrlMap.returnUrlConnInfo, UrlMap.idle, hq, Function.update_of_ne (Ne.symm hu)]

theorem queue_return {urlMap : UrlMap} {garbage : Bytes → Nat} {r : Return}
    (h : ∀ q, urlMap u = some q → QueueOk m q) {q : HttpConnInfoQueue}
    (hq : urlMap.returnUrlConnInfo garbage i r u = some q) : QueueOk m q := by
  rcases eq_or_ne r.url u with rfl | hne
  · cases hold : urlMap r.url with
    | some q' =>
      simp only [UrlMap.returnUrlConnInfo, hold, Function.update_self] at hq
      cases hq
      exact ⟨(h q' hold).1, fun hnil => by simp [HttpConnInfoQueue.httpcliConnInsert] at hnil⟩
    | none =>
      simp only [UrlMap.returnUrlConnInfo, hold, Function.update_self] at hq
      cases hq
      exact ⟨.inl rfl, fun hnil => by simp [HttpConnInfoQueue.httpcliConnInsert] at hnil⟩
  · refine h q ?_
    cases hold : urlMap r.url <;>
      simpa only [UrlMap.returnUrlConnInfo, hold, Function.update_of_ne hne.symm] using hq

theorem connAt_reinit (hl : loops[i]? = some l) {k : Nat} {d : ConnInfo}
    (hd : l.conns[k]? = some d) (hconns : l'.conns = l.conns.set k d.reinit) (id : ConnId) :
    connAt (loops.set i l') id = if id = ⟨i, k⟩ then some d.reinit else connAt loops id := by
  obtain ⟨j, n⟩ := id
  rcases eq_or_ne j i with rfl | hne
  · rw [connAt_set_self hl, connAt_self hl, hconns]
    rcases eq_or_ne n k with rfl | hnk
    · rw [List.getElem?_set_self (List.getElem?_eq_some_iff.mp hd).1, if_pos rfl]
    · rw [List.getElem?_set_ne hnk.symm, if_neg]
      intro heq
      cases heq
      exact hnk rfl
  · rw [connAt_set_of_ne hne, if_neg]
    intro heq
    cases heq
    exact hne rfl

/-- Connection `k` of loop `i` has answered its request and goes back to the queue of `url`. -/
theorem PoolInv.finish (hi : PoolInv reqs u m s) (hcons : Conserved s') (hl : s.loops[i]? = some l)
    {k : Nat} {d : ConnInfo} {r : Return} {garbage : Bytes → Nat} (hd : l.conns[k]? = some d)
    (hbound : d.reqInfo ≠ none) (hurl : d.reqUrl = u ↔ r.url = u) (hk : r.conn = k)
    (hloops : s'.loops = s.loops.set i l') (hconns : l'.conns = l.conns.set k d.reinit)
    (hcalls : s'.calls = s.calls) (hmap : s'.urlMap = s.urlMap.returnUrlConnInfo garbage i r) :
    PoolInv reqs u m s' where
  conserved := hcons
  same := by rw [hcalls, hi.same]
  rests id c hc := by
    rw [hloops, connAt_reinit hl hd hconns] at hc
    split at hc
    · cases hc
      exact ⟨fun _ => ⟨rfl, rfl⟩, fun r hr => by cases hr⟩
    · exact hi.rests id c hc
  idle id := by
    have hbefore := hi.idle id
    have hat : connAt s.loops ⟨i, k⟩ = some d := (connAt_self hl k).trans hd
    rw [hmap, idle_return, hk, hloops]
    unfold idleAt at hbefore ⊢
    rw [connAt_reinit hl hd hconns]
    by_cases hid : id = ⟨i, k⟩
    · subst hid
      have hzero : ind (d.reqUrl = u ∧ d.reqInfo = none) = 0 := if_neg fun h => hbound h.2
      rw [hat] at hbefore
      simp only [hzero] at hbefore
      rw [if_pos rfl]
      show _ = ind (d.reqUrl = u ∧ none = none)
      by_cases hu : r.url = u
      · rw [if_pos hu, List.count_append, hbefore]
        simp [ind, hurl.mpr hu]
      · rw [if_neg hu, hbefore]
        simp [ind, hurl, hu]
    · rw [if_neg hid]
      by_cases hu : r.url = u
      · rw [if_pos hu, List.count_append, hbefore]
        simp [Ne.symm hid]
      · rw [if_neg hu, hbefore]
  atMost := by
    have hset := existing_set (u := u) hl l'
    have hcount := countP_set (fun c : ConnInfo => c.reqUrl = u) hd d.reinit
    have hsame : d.reinit.reqUrl = d.reqUrl := rfl
    rw [hconns] at hset
    rw [hsame] at hcount
    have hle := hi.atMost
    rw [hloops]
    omega
  queue q hq := by
    rw [hmap] at hq
    exact queue_return hi.queue hq
  popped := by
    rw [hcalls]
    exact hi.popped

/-- A step of a loop keeps the invariant. -/
theorem PoolInv.loopStep {e : LoopEvent} (hi : PoolInv reqs u m s)
    (ha : Untouched cfg u m s (.loop i e)) (h : loopStep cfg s i e = some s') :
    PoolInv reqs u m s' := by
  have hcons := hi.conserved.next (a := .loop i e) h
  unfold CurlHttp.loopStep at h
  split at h
  · cases h
  · rename_i l hl
    obtain ⟨f, hf, rfl⟩ := Option.map_eq_some_iff.mp h
    obtain ⟨hnew, hback⟩ := ha
    have hrests : ∀ {k : Nat} {d : ConnInfo}, l.conns[k]? = some d → d.Rests := by
      intro k d hd
      exact (hi.rests ⟨i, k⟩ d ((connAt_self hl k).trans hd)).1
    cases AsyncCurlHttp.step_steps hf with
    | read | socket | noMsg | spent | empty | skip | swept | leave | respond =>
      exact hi.setLoop hcons hl rfl rfl rfl rfl
    | bind added seconds left handler req rest sess hpc hq hsess hsupported =>
      have hnew' : s.newConn i (.turn (.ok added) seconds) = some sess.httpRequestUrl := by
        simp [CurlHttpCli.newConn, hl, hpc, hq, hsess, hsupported]
      refine hi.bind hcons hl rfl (fun r hr => ?_) (fun hu => hnew ?_) rfl rfl rfl rfl
      · cases hr
        refine ⟨sess, ?_, rfl⟩
        show reqs[req]? = some sess
        rw [← hi.same, List.getElem?_map]
        exact hsess
      · rw [hnew']
        exact congrArg some hu
    | done k d eff_url hpc hd hadded =>
      have hbound : d.reqInfo ≠ none := by
        intro hnone
        have := (hrests hd hnone).1
        rw [hadded] at this
        cases this
      refine hi.finish hcons hl hd hbound (hback (d, cstr eff_url) ?_) rfl rfl rfl rfl rfl
      simp [CurlHttpCli.backConn, connAt_self hl, hd]
    | out k seconds handler d hpc hd hout =>
      have hbound : d.reqInfo ≠ none := by
        intro hnone
        have := (hrests hd hnone).2
        simp [ConnInfo.isOut, this] at hout
      refine hi.finish hcons hl hd hbound (hback (d, cstr d.reqUrl) ?_) rfl rfl rfl rfl rfl
      simp [CurlHttpCli.backConn, hl, hpc, hd, hout]

/-- Every step that meets the condition keeps the invariant. -/
theorem PoolInv.next (hi : PoolInv reqs u m s)
    (hreqs : ∀ req ∈ reqs, req.httpRequestUrl = u → req.httpUrlmaxConns = m) {a : CurlAct}
    (ha : Untouched cfg u m s a) (h : s.next cfg a = some s') : PoolInv reqs u m s' := by
  have hcons := hi.conserved.next h
  cases a with
  | call i =>
    simp only [CurlHttpCli.next] at h
    split at h
    · cases h
    · rename_i c hc
      exact hi.callStep hreqs hc ha h
  | loop i e => exact hi.loopStep ha h
  | rsp =>
    obtain ⟨asyncNum, responses, calledBack, rsp, rfl⟩ := rspStep_cases h
    exact hi.congr hcons rfl (fun _ => rfl) rfl rfl hi.queue hi.popped
  | wake =>
    rcases wakeStep_cases h with ⟨wake, rfl⟩ | ⟨j, l, hl, rfl⟩
    · exact hi.congr hcons rfl (fun _ => rfl) rfl rfl hi.queue hi.popped
    · exact hi.setLoop hcons hl rfl rfl rfl rfl
  | exit =>
    rcases exitStep_cases h with ⟨isExit, threadExit, rspExit, exit, rfl⟩ | ⟨j, l, hl, rfl⟩
    · exact hi.congr hcons rfl (fun _ => rfl) rfl rfl hi.queue hi.popped
    · exact hi.setLoop hcons hl rfl rfl rfl rfl

theorem init_poolInv (cfg : Config) (ioThreadNum : Nat) (reqs : List HttpReqSession) (u : Bytes)
    (m : Nat) : PoolInv reqs u m (curlSystem cfg ioThreadNum reqs).init := by
  have hat : ∀ id, connAt (curlSystem cfg ioThreadNum reqs).init.loops id = none := by
    intro id
    simp only [connAt, curlSystem, List.getElem?_replicate]
    split <;> rfl
  refine ⟨init_conserved cfg ioThreadNum reqs, by simp [curlSystem, Function.comp_def],
    fun id c hc => ?_, fun id => ?_, ?_, fun q hq => (by cases hq), fun r c hc _ => ?_⟩
  · rw [hat] at hc
    cases hc
  · unfold idleAt
    rw [hat]
    rfl
  · simp [curlSystem, existing, AsyncCurlHttp.ready]
  · simp only [curlSystem, List.getElem?_map, Option.map_eq_some_iff] at hc
    obtain ⟨req, -, rfl⟩ := hc
    rfl

theorem bound_mem_places {id : ConnId} {d : ConnInfo} {r : Nat} (hheads : Heads s.loops)
    (hd : connAt s.loops id = some d) (hr : d.reqInfo = some r) :
    .bound id.ioThreadSubindex id.conn ∈ s.places r := by
  obtain ⟨j, k⟩ := id
  obtain ⟨l, hl, hd⟩ := Option.bind_eq_some_iff.mp hd
  have hloop : (l, j) ∈ s.loops.zipIdx := List.mem_zipIdx_iff_getElem?.mpr hl
  have hconn : (d, k) ∈ l.conns.zipIdx := List.mem_zipIdx_iff_getElem?.mpr hd
  have hnone : l.pc.finished = none := IoPc.finished_of_head (hheads l (List.mem_of_getElem? hl))
  have hplace : Place.bound j k ∈ l.places j r :=
    List.mem_append_right _
      (List.mem_flatMap.mpr ⟨(d, k), hconn, mem_mark.mpr ⟨hr, by simp [hnone]⟩⟩)
  simp only [CurlHttpCli.places, List.mem_append]
  exact .inl (.inr (List.mem_flatMap.mpr ⟨(l, j), hloop, hplace⟩))

/-- Between whole turns, a connection that has a request is the only place of it. -/
theorem Conserved.places_bound {id : ConnId} {d : ConnInfo} {r : Nat} (hi : Conserved s)
    (hheads : Heads s.loops) (hd : connAt s.loops id = some d) (hr : d.reqInfo = some r) :
    s.places r = [.bound id.ioThreadSubindex id.conn] := by
  have hmem := bound_mem_places hheads hd hr
  obtain ⟨hin, hout, -⟩ := hi.accounted
  have hcounted : s.isCounted r := by
    by_contra hnot
    rw [hout r hnot] at hmem
    cases hmem
  obtain ⟨p, -, hp | ⟨loop, conn, hp, hanswered⟩⟩ := hin r hcounted
  · rw [hp, List.mem_singleton] at hmem
    rw [hp, hmem]
  · rw [hp, List.mem_pair] at hmem
    rcases hmem with hstale | rfl
    · cases hstale
    · cases hanswered

theorem PoolInv.pooled (hi : PoolInv reqs u m s) (hheads : Heads s.loops) : Pooled u m s where
  conns id c hc hu := by
    have hidle := hi.idle id
    have hfits := (hi.rests id c hc).2
    unfold idleAt at hidle
    rw [hc] at hidle
    cases hr : c.reqInfo with
    | none => exact .inl ⟨rfl, by simpa [ind, hu, hr] using hidle⟩
    | some r =>
      obtain ⟨sess, hsess, hurl⟩ := hfits r hr
      refine .inr ⟨by simpa [ind, hr] using hidle, r, sess, rfl, ?_, hurl.trans hu, ?_⟩
      · have hsess : reqs[r]? = some sess := hsess
        rwa [← hi.same, List.getElem?_map] at hsess
      · exact hi.conserved.places_bound hheads hc hr
  popped r c id hc hu hconn := by
    rw [hi.popped r c hc hu] at hconn
    cases hconn
  atMost := hi.atMost
  waits r c q _ _ _ hq hwait := by
    obtain ⟨hmax, hlt⟩ := hi.queue q hq
    unfold HttpConnInfoQueue.httpcliConnPop at hwait
    split at hwait
    · cases hwait
    · rename_i hnil
      split at hwait
      · rename_i hfull
        obtain ⟨hpos, hle⟩ : 0 < q.maxSize ∧ q.maxSize ≤ q.queueSize := by
          simpa [HttpConnInfoQueue.isFull] using hfull
        have hmaxSize : q.maxSize = m := hmax.resolve_left (by omega)
        have := hlt hnil hmaxSize
        omega
      · cases hwait

/-- In every run whose steps all meet the condition, for a URL that is always asked for with the same
maximum. -/
theorem pool_conserved {ioThreadNum : Nat}
    (hreqs : ∀ req ∈ reqs, req.httpRequestUrl = u → req.httpUrlmaxConns = m)
    (h : ((curlSystem cfg ioThreadNum reqs).only (Untouched cfg u m)).Reach s) : Pooled u m s := by
  have hi : PoolInv reqs u m s :=
    Sys.Reach.inv_only (init_poolInv cfg ioThreadNum reqs u m)
      (fun _ _ _ hi ha hs => hi.next hreqs ha hs) h
  have hheads : Heads s.loops :=
    Sys.Reach.inv_only (I := fun s => Heads s.loops) (init_heads cfg ioThreadNum reqs)
      (fun _ _ _ hi _ hs => hi.next hs) h
  exact hi.pooled hheads

end

/-! ## A connection that is found -/

/-- A request is served, and its connection goes back to the queue of its URL. -/
def servedRun : List CurlAct :=
  List.flatten [pushRun, [.call 0, .loop 0 .read, .loop 0 (.turn (.ok true) 100)],
    [.loop 0 (.turn .newError 100), .loop 0 .forEach, .loop 0 .forEach, .loop 0 (.leave 1)],
    [.loop 0 .socket, .loop 0 (.done 0 [104])]]

theorem pool_conserved_served :
    ∃ s, (plainSystem.only (Untouched plainConfig [104] 1)).run plainSystem.init servedRun = some s ∧
      s.urlMap.idle [104] = [⟨0, 0⟩] ∧ Pooled [104] 1 s := by
  have hmap : ((plainSystem.only (Untouched plainConfig [104] 1)).run plainSystem.init servedRun).map
      (fun s => s.urlMap.idle [104]) = some [⟨0, 0⟩] := by decide +kernel
  obtain ⟨s, hrun, hidle⟩ := Option.map_eq_some_iff.mp hmap
  exact ⟨s, hrun, hidle, pool_conserved (by simp [plainRequest]) (Sys.Reach.init.run _ hrun)⟩

/-- Two calls for one URL, which may have one connection. -/
def pairSystem : Sys CurlHttpCli CurlAct := curlSystem plainConfig 1 [plainRequest, plainRequest]

/-- When the first request is served, the second call takes the idle connection, and the loop makes
another one. -/
def idleRun : List CurlAct :=
  List.flatten [servedRun,
    [.loop 0 .noMsg, .loop 0 (.turn .newError 101), .loop 0 .forEach, .loop 0 .forEach],
    [.loop 0 (.leave 0)], List.replicate 6 (.call 1),
    [.loop 0 .read, .loop 0 (.turn (.ok true) 102)]]

/-- Then the first connection is neither idle nor in use, and there are two. -/
theorem idle_connection_lost :
    ¬ ∀ cfg ioThreadNum reqs u m s, (∀ req ∈ reqs, req.httpRequestUrl = u → req.httpUrlmaxConns = m) →
      0 < m → cfg.garbage u = 0 → (curlSystem cfg ioThreadNum reqs).Reach s → Pooled u m s := by
  intro h
  have hmap : (pairSystem.run pairSystem.init idleRun).map
      (fun s => (connAt s.loops ⟨0, 0⟩, s.urlMap.idle [104], existing s.loops [104])) =
      some (some ⟨false, none, [104], 0, false⟩, [], 2) := by decide +kernel
  obtain ⟨s, hrun, heq⟩ := Option.map_eq_some_iff.mp hmap
  obtain ⟨hconn, hrest⟩ := Prod.mk.inj heq
  obtain ⟨hidle, -⟩ := Prod.mk.inj hrest
  have hpooled : Pooled [104] 1 s :=
    h plainConfig 1 [plainRequest, plainRequest] _ _ _ (by simp [plainRequest]) Nat.one_pos rfl
      (Sys.Reach.init.run _ hrun)
  rcases hpooled.conns ⟨0, 0⟩ _ hconn rfl with ⟨-, honce⟩ | ⟨-, r, sess, hreq, -⟩
  · rw [hidle] at honce
    cases honce
  · cases hreq

end CurlHttp
end CmakeFrame
