import CmakeFrame.CurlHttpCli.ConnPool

/-!
# The queue that a connection goes back to

A connection is made for the URL of its request, and `connInfoFromUrl` looks for it under that URL.
`check_multi_info` gives it back under the effective URL that libcurl reports, `httpcliConnForEach`
under the text of `connInfoReqUrl()`. A step of a loop is a whole turn.

* `backId`: the connection that a step gives back. `PutBack`: into which queue.
* `Served`: every connection was made for a URL that was asked for, and serves a request for it.
* `OwnUrl`: the condition on a step. `connections_put_back_iff`: the connection goes back to the queue
  of its URL exactly then, and in runs of such steps only URLs that were asked for have a queue.
* `redirected_elsewhere`: a redirect.
-/

namespace CmakeFrame
namespace CurlHttp

open Lib

/-- A call for `u` has begun. -/
def CurlHttpCli.Requested (s : CurlHttpCli) (u : Bytes) : Prop :=
  ∃ (r : Nat) (c : Call), s.calls[r]? = some c ∧ c.pc ≠ .called ∧ c.req.httpRequestUrl = u

/-- The connection that a step of loop `i` gives back. -/
def CurlHttpCli.backId (s : CurlHttpCli) (i : Nat) : LoopEvent → Option ConnId
  | .done k _ => some ⟨i, k⟩
  | .forEach =>
    match s.loops[i]? with
    | none => none
    | some l =>
      match l.pc with
      | .forEach k seconds _ =>
        match l.conns[k]? with
        | none => none
        | some c => if c.isOut seconds then some ⟨i, k⟩ else none
      | _ => none
  | .read | .socket | .noMsg | .turn _ _ | .leave _ | .finish => none

/-- The connection is in the queue of `u` now, behind all others, and no other queue has changed. -/
def PutBack (s s' : CurlHttpCli) (id : ConnId) (u : Bytes) : Prop :=
  s'.urlMap.idle u = s.urlMap.idle u ++ [id] ∧ ∀ v, v ≠ u → s'.urlMap v = s.urlMap v

/-- The condition on a step: a connection is given back under the URL that it was made for. -/
def OwnUrl (s : CurlHttpCli) : CurlAct → Prop
  | .loop i e => ∀ b ∈ s.backConn i e, b.2 = b.1.reqUrl
  | .call _ | .rsp | .wake | .exit => True

instance (s : CurlHttpCli) : (a : CurlAct) → Decidable (OwnUrl s a)
  | .loop _ _ => inferInstanceAs (Decidable (∀ b ∈ _, _))
  | .call _ | .rsp | .wake | .exit => inferInstanceAs (Decidable True)

/-! ## The invariant -/

/-- Call `r` has begun. -/
def Begun (calls : List Call) (r : Nat) : Prop := ∃ c, calls[r]? = some c ∧ c.pc ≠ .called

/-- Every call is there with its request, and has begun if it had. -/
def Later (calls calls' : List Call) : Prop :=
  ∀ (r : Nat) (c : Call), calls[r]? = some c →
    ∃ c', calls'[r]? = some c' ∧ c'.req = c.req ∧ (c.pc ≠ .called → c'.pc ≠ .called)

/-- What holds of a connection. -/
structure ConnInfo.Made (s : CurlHttpCli) (c : ConnInfo) : Prop where
  requested : s.Requested c.reqUrl
  rests : c.Rests
  fits : c.Fits s.reqs

structure Served (s : CurlHttpCli) : Prop where
  queued : ∀ (i : Nat) l, s.loops[i]? = some l → ∀ r ∈ l.queue, Begun s.calls r
  conns : ∀ id c, connAt s.loops id = some c → c.Made s

section

variable {cfg : Config} {s s' : CurlHttpCli} {i : Nat} {c : Call}

theorem Later.refl (calls : List Call) : Later calls calls := fun _ c hc => ⟨c, hc, rfl, id⟩

theorem Later.begun {calls calls' : List Call} (h : Later calls calls') {r : Nat}
    (hr : Begun calls r) : Begun calls' r := by
  obtain ⟨c, hc, hpc⟩ := hr
  obtain ⟨c', hc', -, hpc'⟩ := h r c hc
  exact ⟨c', hc', hpc' hpc⟩

theorem Later.requested (h : Later s.calls s'.calls) {u : Bytes} (hu : s.Requested u) :
    s'.Requested u := by
  obtain ⟨r, c, hc, hpc, rfl⟩ := hu
  obtain ⟨c', hc', hreq, hpc'⟩ := h r c hc
  exact ⟨r, c', hc', hpc' hpc, by rw [hreq]⟩

theorem Later.reqs (h : Later s.calls s'.calls) {r : Nat} {sess : HttpReqSession}
    (hr : s.reqs r = some sess) : s'.reqs r = some sess := by
  obtain ⟨c, hc, rfl⟩ := Option.map_eq_some_iff.mp hr
  obtain ⟨c', hc', hreq, -⟩ := h r c hc
  exact Option.map_eq_some_iff.mpr ⟨c', hc', hreq⟩

theorem Later.made (h : Later s.calls s'.calls) {c : ConnInfo} (hc : c.Made s) : c.Made s' where
  requested := h.requested hc.requested
  rests := hc.rests
  fits r hr := by
    obtain ⟨sess, hsess, hurl⟩ := hc.fits r hr
    exact ⟨sess, h.reqs hsess, hurl⟩

/-- What one step has to show. -/
theorem Served.later (hi : Served s) (h : Later s.calls s'.calls)
    (hqueue : ∀ (j : Nat) l', s'.loops[j]? = some l' → ∀ r ∈ l'.queue,
      (∃ l, s.loops[j]? = some l ∧ r ∈ l.queue) ∨ Begun s'.calls r)
    (hconns : ∀ id c, connAt s'.loops id = some c → connAt s.loops id = some c ∨ c.Made s') :
    Served s' where
  queued j l' hl' r hr := by
    rcases hqueue j l' hl' r hr with ⟨l, hl, hrl⟩ | hr
    · exact h.begun (hi.queued j l hl r hrl)
    · exact hr
  conns id c hc := by
    rcases hconns id c hc with hold | hnew
    · exact h.made (hi.conns id c hold)
    · exact hnew

/-- One loop goes on with the same connections. -/
theorem Served.setLoop (hi : Served s) (h : Later s.calls s'.calls) {j : Nat}
    {l l' : AsyncCurlHttp} (hl : s.loops[j]? = some l) (hloops : s'.loops = s.loops.set j l')
    (hconns : l'.conns = l.conns) (hqueue : ∀ r ∈ l'.queue, r ∈ l.queue ∨ Begun s'.calls r) :
    Served s' := by
  refine hi.later h (fun n m hm r hr => ?_) fun id c hc => ?_
  · rw [hloops] at hm
    rcases set_cases hm with ⟨rfl, rfl⟩ | ⟨-, hm⟩
    · rcases hqueue r hr with hr | hr
      · exact .inl ⟨l, hl, hr⟩
      · exact .inr hr
    · exact .inl ⟨m, hm, hr⟩
  · rw [hloops, connAt_set hl hconns] at hc
    exact .inl hc

theorem Served.sameLoops (hi : Served s) (h : Later s.calls s'.calls) (hloops : s'.loops = s.loops) :
    Served s' := by
  refine hi.later h (fun j l hl r hr => ?_) fun id c hc => ?_
  · rw [hloops] at hl
    exact .inl ⟨l, hl, hr⟩
  · rw [hloops] at hc
    exact .inl hc

/-! ## Calls -/

/-- After its first step a call is never before it again. -/
theorem callStep_calls (h : callStep cfg s i c = some s') :
    ∃ pc conn, pc ≠ .called ∧ s'.calls = s.calls.set i { c with pc, conn } := by
  obtain ⟨req, pc, conn⟩ := c
  cases pc with
  | called =>
    cases h
    refine ⟨if s.isExit then .returned (-2) else .waiting, conn, ?_, rfl⟩
    split <;> simp
  | waiting =>
    simp only [callStep] at h
    split at h
    · cases h
      exact ⟨.find, conn, by simp, rfl⟩
    · cases h
  | find =>
    cases h
    refine ⟨if (s.urlMap req.httpRequestUrl).isSome then .pop else .add, conn, ?_, rfl⟩
    split <;> simp
  | pop =>
    simp only [callStep] at h
    split at h
    · cases h
    · split at h
      · cases h
      · cases h
        exact ⟨.add, conn, by simp, rfl⟩
      · rename_i popped q _
        cases h
        exact ⟨.push popped.ioThreadSubindex, some popped, by simp, rfl⟩
  | add =>
    cases h
    refine ⟨if (s.urlMap req.httpRequestUrl).isSome then .pick else .insert, conn, ?_, rfl⟩
    split <;> simp
  | insert =>
    cases h
    exact ⟨.pick, conn, by simp, rfl⟩
  | pick =>
    cases h
    exact ⟨.push (s.lastIndex.toNat % s.loops.length), conn, by simp, rfl⟩
  | push index =>
    simp only [callStep] at h
    split at h
    · cases h
    · split at h
      · cases h
        exact ⟨.refuse, conn, by simp, rfl⟩
      · split at h
        · cases h
        · cases h
          exact ⟨.wakeup index, conn, by simp, rfl⟩
  | wakeup index =>
    simp only [callStep] at h
    split at h
    · cases h
    · split at h
      · cases h
      · cases h
        exact ⟨.returned 0, conn, by simp, rfl⟩
  | refuse =>
    cases h
    exact ⟨.returned (-1), conn, by simp, rfl⟩
  | returned ret => cases h

theorem callStep_later (hc : s.calls[i]? = some c) (h : callStep cfg s i c = some s') :
    Later s.calls s'.calls ∧ ∃ c', s'.calls[i]? = some c' ∧ c'.req = c.req ∧ c'.pc ≠ .called := by
  obtain ⟨pc, conn, hpc, hcalls⟩ := callStep_calls h
  have hlt : i < s.calls.length := (List.getElem?_eq_some_iff.mp hc).1
  have hself : s'.calls[i]? = some { c with pc, conn } := by
    rw [hcalls, List.getElem?_set_self hlt]
  refine ⟨fun r d hd => ?_, _, hself, rfl, hpc⟩
  rcases eq_or_ne r i with rfl | hne
  · rw [hc] at hd
    cases hd
    exact ⟨_, hself, rfl, fun _ => hpc⟩
  · exact ⟨d, by rw [hcalls, List.getElem?_set_ne hne.symm, hd], rfl, id⟩

/-- A call makes a queue for its own URL only. -/
theorem callStep_urlMap {u : Bytes} (h : callStep cfg s i c = some s') (hu : s'.urlMap u ≠ none) :
    s.urlMap u ≠ none ∨ c.req.httpRequestUrl = u := by
  obtain ⟨req, pc, conn⟩ := c
  rcases eq_or_ne req.httpRequestUrl u with hreq | hne
  · exact .inr hreq
  refine .inl ?_
  cases pc with
  | called | find | add | pick | refuse =>
    cases h
    exact hu
  | waiting =>
    simp only [callStep] at h
    split at h <;> cases h
    exact hu
  | pop =>
    simp only [callStep] at h
    split at h
    · cases h
    · split at h
      · cases h
      · cases h
        exact hu
      · cases h
        intro hnone
        exact hu ((Function.update_of_ne hne.symm _ _).trans hnone)
  | insert =>
    cases h
    obtain ⟨q, hq⟩ := Option.ne_none_iff_exists'.mp hu
    rcases insert_cases hq with hold | ⟨hurl, -⟩
    · simp [hold]
    · exact absurd hurl hne
  | push index =>
    simp only [callStep] at h
    split at h
    · cases h
    · split at h
      · cases h
        exact hu
      · split at h <;> cases h
        exact hu
  | wakeup index =>
    simp only [callStep] at h
    split at h
    · cases h
    · split at h <;> cases h
      exact hu
  | returned ret => cases h

theorem Served.callStep (hi : Served s) (hc : s.calls[i]? = some c)
    (h : callStep cfg s i c = some s') : Served s' := by
  obtain ⟨hlater, c', hc', -, hbegun⟩ := callStep_later hc h
  cases callStep_effect h with
  | move | asyncReq | refuse => exact hi.sameLoops hlater rfl
  | push index l hpc hl hexit =>
    refine hi.setLoop hlater hl rfl rfl fun r hr => ?_
    rcases List.mem_append.mp hr with hr | hr
    · exact .inl hr
    · rw [List.mem_singleton] at hr
      subst hr
      exact .inr ⟨c', hc', hbegun⟩
  | wakeup index l hpc hl => exact hi.setLoop hlater hl rfl rfl fun r hr => .inl hr

/-! ## Loops -/

/-- Connection `k` of loop `i` has answered its request. -/
theorem Served.finish (hi : Served s) {l l' : AsyncCurlHttp} (hl : s.loops[i]? = some l) {k : Nat}
    {d : ConnInfo} (hd : l.conns[k]? = some d) (hcalls : s'.calls = s.calls)
    (hloops : s'.loops = s.loops.set i l') (hconns : l'.conns = l.conns.set k d.reinit)
    (hqueue : l'.queue = l.queue) : Served s' := by
  have hlater : Later s.calls s'.calls := hcalls ▸ Later.refl _
  refine hi.later hlater (fun j m hm r hr => ?_) fun id c hc => ?_
  · rw [hloops] at hm
    rcases set_cases hm with ⟨rfl, rfl⟩ | ⟨-, hm⟩
    · exact .inl ⟨l, hl, hqueue ▸ hr⟩
    · exact .inl ⟨m, hm, hr⟩
  · rw [hloops, connAt_reinit hl hd hconns] at hc
    split at hc
    · cases hc
      have hmade := hlater.made (hi.conns ⟨i, k⟩ d ((connAt_self hl k).trans hd))
      exact .inr ⟨hmade.requested, fun _ => ⟨rfl, rfl⟩, fun r hr => (by cases hr)⟩
    · exact .inl hc

theorem Served.loopStep {e : LoopEvent} (hi : Served s) (h : loopStep cfg s i e = some s') :
    Served s' := by
  unfold CurlHttp.loopStep at h
  split at h
  · cases h
  · rename_i l hl
    obtain ⟨f, hf, rfl⟩ := Option.map_eq_some_iff.mp h
    have hlater : Later s.calls (s.apply cfg i f).calls := Later.refl _
    cases AsyncCurlHttp.step_steps hf with
    | read | socket | noMsg | spent | empty | skip | swept | leave =>
      exact hi.setLoop hlater hl rfl rfl fun r hr => .inl hr
    | respond setup seconds left handler req rest hpc hq =>
      refine hi.setLoop hlater hl rfl rfl fun r hr => .inl ?_
      rw [hq]
      exact .tail _ hr
    | bind added seconds left handler req rest sess hpc hq hsess hsupported =>
      have hreq : Begun s.calls req := hi.queued i l hl req (by rw [hq]; exact .head _)
      refine hi.later hlater (fun j m hm r hr => ?_) fun id c hc => ?_
      · rcases set_cases hm with ⟨rfl, rfl⟩ | ⟨-, hm⟩
        · exact .inl ⟨l, hl, by rw [hq]; exact .tail _ hr⟩
        · exact .inl ⟨m, hm, hr⟩
      · rcases connAt_append hl rfl hc with ⟨-, rfl⟩ | hold
        · -- the new connection: its request was taken from the queue
          obtain ⟨call, hcall, hbegun⟩ := hreq
          have hurl : call.req = sess := by
            have hsess : s.calls[req]?.map (·.req) = some sess := hsess
            rw [hcall] at hsess
            exact Option.some_inj.mp hsess
          refine .inr ⟨⟨req, call, hcall, hbegun, by rw [hurl]⟩,
            fun hnone => (by cases hnone), ?_⟩
          intro r hr
          cases hr
          exact ⟨sess, hsess, rfl⟩
        · exact .inl hold
    | done k c eff_url hpc hc hadded => exact hi.finish hl hc rfl rfl rfl rfl
    | out k seconds handler c hpc hc hout => exact hi.finish hl hc rfl rfl rfl rfl

theorem Served.next {a : CurlAct} (hi : Served s) (h : s.next cfg a = some s') : Served s' := by
  cases a with
  | call i =>
    simp only [CurlHttpCli.next] at h
    split at h
    · cases h
    · rename_i c hc
      exact hi.callStep hc h
  | loop i e => exact hi.loopStep h
  | rsp =>
    obtain ⟨asyncNum, responses, calledBack, rsp, rfl⟩ := rspStep_cases h
    exact hi.sameLoops (Later.refl _) rfl
  | wake =>
    rcases wakeStep_cases h with ⟨wake, rfl⟩ | ⟨j, l, hl, rfl⟩
    · exact hi.sameLoops (Later.refl _) rfl
    · exact hi.setLoop (Later.refl _) hl rfl rfl fun r hr => .inl hr
  | exit =>
    rcases exitStep_cases h with ⟨isExit, threadExit, rspExit, exit, rfl⟩ | ⟨j, l, hl, rfl⟩
    · exact hi.sameLoops (Later.refl _) rfl
    · exact hi.setLoop (Later.refl _) hl rfl rfl fun r hr => .inl hr

theorem init_served (cfg : Config) (ioThreadNum : Nat) (reqs : List HttpReqSession) :
    Served (curlSystem cfg ioThreadNum reqs).init where
  queued i l hl r hr := by
    simp only [curlSystem, List.getElem?_replicate] at hl
    split at hl <;> cases hl
    cases hr
  conns id c hc := by
    simp only [connAt, curlSystem, List.getElem?_replicate] at hc
    split at hc <;> cases hc

/-! ## A connection goes back -/

/-- A step that gives a connection back finds it with its request. -/
theorem backConn_made {e : LoopEvent} {id : ConnId} {c : ConnInfo} {url : Bytes} (hi : Served s)
    (hid : s.backId i e = some id) (hc : s.backConn i e = some (c, url)) :
    id.ioThreadSubindex = i ∧ c.Made s := by
  cases e with
  | read | socket | noMsg | turn | leave | finish => cases hid
  | done k eff_url =>
    cases hid
    obtain ⟨d, hd, heq⟩ := Option.map_eq_some_iff.mp hc
    cases heq
    exact ⟨rfl, hi.conns _ _ hd⟩
  | forEach =>
    simp only [CurlHttpCli.backId, CurlHttpCli.backConn] at hid hc
    split at hid
    · cases hid
    · rename_i l hl
      split at hid
      · rename_i k seconds handler hpc
        split at hid
        · cases hid
        · rename_i d hd
          split at hid
          · rename_i hout
            simp only [hl, hpc, hd, hout, if_true] at hc
            cases hid
            cases hc
            exact ⟨rfl, hi.conns ⟨i, k⟩ _ ((connAt_self hl k).trans hd)⟩
          · cases hid
      · cases hid

/-- What a step does that gives a connection back. -/
theorem loopStep_back {e : LoopEvent} {id : ConnId} {c : ConnInfo} {url : Bytes}
    (h : loopStep cfg s i e = some s') (hid : s.backId i e = some id)
    (hc : s.backConn i e = some (c, url)) :
    (c.added = true ∨ c.outSecond ≠ 0) ∧
      s'.urlMap = s.urlMap.returnUrlConnInfo cfg.garbage i ⟨url, id.conn, c.isNew⟩ := by
  unfold CurlHttp.loopStep at h
  split at h
  · cases h
  · rename_i l hl
    obtain ⟨f, hf, rfl⟩ := Option.map_eq_some_iff.mp h
    cases e with
    | read | socket | noMsg | turn | leave | finish => cases hid
    | done k eff_url =>
      cases hid
      cases AsyncCurlHttp.step_steps hf with
      | done _ d _ hpc hd hadded =>
        simp only [CurlHttpCli.backConn, connAt_self hl, hd, Option.map_some] at hc
        cases hc
        exact ⟨.inl hadded, rfl⟩
    | forEach =>
      simp only [CurlHttpCli.backId, CurlHttpCli.backConn, hl] at hid hc
      split at hid
      · rename_i k seconds handler hpc
        split at hid
        · cases hid
        · rename_i d hd
          split at hid
          · rename_i hout
            simp only [hpc, hd, hout, if_true] at hc
            cases hid
            cases hc
            simp only [AsyncCurlHttp.step, hpc, hd, hout, if_true] at hf
            cases hf
            refine ⟨.inr ?_, rfl⟩
            intro h0
            simp [ConnInfo.isOut, h0] at hout
          · cases hid
      · cases hid

/-! ## The queues -/

/-- Every URL with a queue was asked for. -/
def CurlHttpCli.Asked (s : CurlHttpCli) : Prop := ∀ u, s.urlMap u ≠ none → s.Requested u

theorem return_ne_none {urlMap : UrlMap} {garbage : Bytes → Nat} {r : Return} {v : Bytes} :
    urlMap.returnUrlConnInfo garbage i r v ≠ none ↔ urlMap v ≠ none ∨ v = r.url := by
  rcases eq_or_ne v r.url with rfl | hne
  · cases hq : urlMap r.url <;> simp [UrlMap.returnUrlConnInfo, hq]
  · cases hq : urlMap r.url <;> simp [UrlMap.returnUrlConnInfo, hq, hne]

theorem loopStep_calls {e : LoopEvent} (h : loopStep cfg s i e = some s') : s'.calls = s.calls := by
  unfold CurlHttp.loopStep at h
  split at h
  · cases h
  · obtain ⟨f, -, rfl⟩ := Option.map_eq_some_iff.mp h
    rfl

/-- A loop makes a queue only for the URL that a connection is given back under. -/
theorem loopStep_urlMap {e : LoopEvent} {v : Bytes} (h : loopStep cfg s i e = some s')
    (hv : s'.urlMap v ≠ none) : s.urlMap v ≠ none ∨ ∃ b ∈ s.backConn i e, v = b.2 := by
  unfold CurlHttp.loopStep at h
  split at h
  · cases h
  · rename_i l hl
    obtain ⟨f, hf, rfl⟩ := Option.map_eq_some_iff.mp h
    cases AsyncCurlHttp.step_steps hf with
    | read | socket | noMsg | spent | empty | respond | bind | skip | swept | leave => exact .inl hv
    | done k d eff_url hpc hd hadded =>
      rcases return_ne_none.mp hv with hold | rfl
      · exact .inl hold
      · refine .inr ⟨(d, cstr eff_url), ?_, rfl⟩
        simp [CurlHttpCli.backConn, connAt_self hl, hd]
    | out k seconds handler d hpc hd hout =>
      rcases return_ne_none.mp hv with hold | rfl
      · exact .inl hold
      · refine .inr ⟨(d, cstr d.reqUrl), ?_, rfl⟩
        simp [CurlHttpCli.backConn, hl, hpc, hd, hout]

theorem backConn_requested {e : LoopEvent} {c : ConnInfo} {url : Bytes} (hi : Served s)
    (hc : s.backConn i e = some (c, url)) : s.Requested c.reqUrl := by
  cases e with
  | read | socket | noMsg | turn | leave | finish => cases hc
  | done k eff_url =>
    obtain ⟨d, hd, heq⟩ := Option.map_eq_some_iff.mp hc
    cases heq
    exact (hi.conns _ _ hd).requested
  | forEach =>
    simp only [CurlHttpCli.backConn] at hc
    split at hc
    · cases hc
    · rename_i l hl
      split at hc
      · rename_i k seconds handler hpc
        split at hc
        · cases hc
        · rename_i d hd
          split at hc <;> cases hc
          exact (hi.conns ⟨i, k⟩ _ ((connAt_self hl k).trans hd)).requested
      · cases hc

/-- Every step that meets the condition makes queues only for what was asked for. -/
theorem asked_next {a : CurlAct} (hi : Served s) (hasked : s.Asked) (ha : OwnUrl s a)
    (h : s.next cfg a = some s') : s'.Asked := by
  intro v hv
  cases a with
  | call i =>
    simp only [CurlHttpCli.next] at h
    split at h
    · cases h
    · rename_i c hc
      obtain ⟨hlater, c', hc', hreq, hpc⟩ := callStep_later hc h
      rcases callStep_urlMap h hv with hold | rfl
      · exact hlater.requested (hasked v hold)
      · exact ⟨i, c', hc', hpc, by rw [hreq]⟩
  | loop i e =>
    have hcalls : s'.calls = s.calls := loopStep_calls h
    have hlater : Later s.calls s'.calls := hcalls ▸ Later.refl _
    rcases loopStep_urlMap h hv with hold | ⟨b, hb, rfl⟩
    · exact hlater.requested (hasked v hold)
    · rw [ha b hb]
      exact hlater.requested (backConn_requested hi hb)
  | rsp =>
    obtain ⟨asyncNum, responses, calledBack, rsp, rfl⟩ := rspStep_cases h
    exact hasked v hv
  | wake =>
    rcases wakeStep_cases h with ⟨wake, rfl⟩ | ⟨j, l, hl, rfl⟩
    · exact hasked v hv
    · exact hasked v hv
  | exit =>
    rcases exitStep_cases h with ⟨isExit, threadExit, rspExit, exit, rfl⟩ | ⟨j, l, hl, rfl⟩
    · exact hasked v hv
    · exact hasked v hv

/-- The connection goes to the queue of `u` exactly if it is given back under `u`. -/
theorem putBack_iff {garbage : Bytes → Nat} {id : ConnId} {u url : Bytes} {isNew : Bool}
    (hid : id.ioThreadSubindex = i)
    (hmap : s'.urlMap = s.urlMap.returnUrlConnInfo garbage i ⟨url, id.conn, isNew⟩) :
    PutBack s s' id u ↔ url = u := by
  obtain ⟨j, k⟩ := id
  subst hid
  unfold PutBack
  rw [hmap, idle_return]
  constructor
  · rintro ⟨h, -⟩
    by_contra hne
    rw [if_neg hne] at h
    simpa using congrArg List.length h
  · rintro rfl
    refine ⟨if_pos rfl, fun v hv => ?_⟩
    cases hq : s.urlMap url <;> simp [UrlMap.returnUrlConnInfo, hq, Function.update_of_ne hv]

/-- **Where a finished connection goes.** In every reachable state a step that gives a connection back
finds it with a request; the connection goes to the queue of the URL of that request exactly if that
is the URL that it is given back under, and the queues stay those of URLs that were asked for exactly
if it is one of them. So no other URL has a queue in a run of steps that meet the condition. -/
theorem connections_put_back_iff (cfg : Config) (ioThreadNum : Nat) (reqs : List HttpReqSession) :
    (∀ s, (curlSystem cfg ioThreadNum reqs).Reach s → ∀ i e s' id c url,
      s.next cfg (.loop i e) = some s' → s.backId i e = some id →
      s.backConn i e = some (c, url) →
      ∃ r sess, c.reqInfo = some r ∧ s.reqs r = some sess ∧
        (PutBack s s' id sess.httpRequestUrl ↔ url = sess.httpRequestUrl) ∧
        (s.Asked → (s'.Asked ↔ s.Requested url))) ∧
    ∀ s, ((curlSystem cfg ioThreadNum reqs).only OwnUrl).Reach s → s.Asked := by
  refine ⟨fun s hs i e s' id c url h hid hc => ?_, fun s hs => ?_⟩
  · have hi : Served s :=
      Sys.Reach.inv (init_served cfg ioThreadNum reqs) (fun _ _ _ hi hs => hi.next hs) hs
    obtain ⟨hindex, hmade⟩ := backConn_made hi hid hc
    obtain ⟨hbusy, hmap⟩ := loopStep_back h hid hc
    obtain ⟨r, hr⟩ : ∃ r, c.reqInfo = some r := by
      refine Option.ne_none_iff_exists'.mp fun hnone => ?_
      obtain ⟨hadded, hsecond⟩ := hmade.rests hnone
      rcases hbusy with hbusy | hbusy
      · rw [hadded] at hbusy
        cases hbusy
      · exact hbusy hsecond
    obtain ⟨sess, hsess, -⟩ := hmade.fits r hr
    refine ⟨r, sess, hr, hsess, putBack_iff hindex hmap, fun hasked => ?_⟩
    have hcalls : s'.calls = s.calls := loopStep_calls h
    have hsame : ∀ u, s'.Requested u ↔ s.Requested u := by
      intro u
      unfold CurlHttpCli.Requested
      rw [hcalls]
    constructor
    · intro h'
      refine (hsame url).mp (h' url ?_)
      rw [hmap]
      exact return_ne_none.mpr (.inr rfl)
    · intro hurl v hv
      rw [hmap] at hv
      rw [hsame]
      rcases return_ne_none.mp hv with hold | rfl
      · exact hasked v hold
      · exact hurl
  · have hboth : Served s ∧ s.Asked :=
      Sys.Reach.inv_only (I := fun s => Served s ∧ s.Asked)
        ⟨init_served cfg ioThreadNum reqs, fun u hu => absurd rfl hu⟩
        (fun _ _ _ hi ha hs => ⟨hi.1.next hs, asked_next hi.1 hi.2 ha hs⟩) hs
    exact hboth.2

end

/-! ## A redirect -/

/-- A request for `h` is with libcurl. -/
def sentRun : List CurlAct := servedRun.dropLast

/-- libcurl has done it without a redirect. -/
theorem connections_put_back_plain : ∃ s s', plainSystem.Reach s ∧
    s.next plainConfig (.loop 0 (.done 0 [104])) = some s' ∧ PutBack s s' ⟨0, 0⟩ [104] := by
  have hmap : (plainSystem.run plainSystem.init sentRun).map (fun s =>
      ((s.next plainConfig (.loop 0 (.done 0 [104]))).isSome, s.backConn 0 (.done 0 [104]),
        s.reqs 0)) =
      some (true, some (⟨true, some 0, [104], 100, true⟩, [104]), some plainRequest) := by
    decide +kernel
  obtain ⟨s, hrun, heq⟩ := Option.map_eq_some_iff.mp hmap
  simp only [Prod.mk.injEq] at heq
  obtain ⟨hnext, hconn, hreq⟩ := heq
  obtain ⟨s', hs'⟩ := Option.isSome_iff_exists.mp hnext
  have hreach : plainSystem.Reach s := Sys.Reach.init.run _ hrun
  obtain ⟨r, sess, hr, hsess, hput, -⟩ := (connections_put_back_iff plainConfig 1 [plainRequest]).1
    s hreach 0 (.done 0 [104]) s' ⟨0, 0⟩ _ _ hs' rfl hconn
  cases hr
  rw [hreq] at hsess
  cases hsess
  exact ⟨s, s', hreach, hs', hput.mpr rfl⟩

/-- The server of `h` redirects to `h/`: the connection goes to a queue that nobody asks for. -/
theorem redirected_elsewhere :
    (¬ ∀ cfg ioThreadNum reqs s i e s' id c url r sess,
      (curlSystem cfg ioThreadNum reqs).Reach s → s.next cfg (.loop i e) = some s' →
      s.backId i e = some id → s.backConn i e = some (c, url) → c.reqInfo = some r →
      s.reqs r = some sess → PutBack s s' id sess.httpRequestUrl) ∧
    ¬ ∀ cfg ioThreadNum reqs s, (curlSystem cfg ioThreadNum reqs).Reach s → s.Asked := by
  have hmap : ((plainSystem.run plainSystem.init sentRun).bind fun s =>
      (s.next plainConfig (.loop 0 (.done 0 [104, 47]))).map fun s' =>
        decide (s.backConn 0 (.done 0 [104, 47]) =
            some (⟨true, some 0, [104], 100, true⟩, [104, 47]) ∧ s.reqs 0 = some plainRequest ∧
          s'.urlMap.idle [104] = [] ∧ (s'.urlMap [104, 47]).isSome ∧
          s'.calls.map (·.req) = [plainRequest])) = some true := by decide +kernel
  obtain ⟨s, hrun, heq⟩ := Option.bind_eq_some_iff.mp hmap
  obtain ⟨s', hs', heq⟩ := Option.map_eq_some_iff.mp heq
  obtain ⟨hconn, hreq, hidle, hqueue, hcalls⟩ := of_decide_eq_true heq
  have hreach : plainSystem.Reach s := Sys.Reach.init.run _ hrun
  constructor
  · intro h
    obtain ⟨hput, -⟩ := h plainConfig 1 [plainRequest] s 0 (.done 0 [104, 47]) s' ⟨0, 0⟩ _ _ 0
      plainRequest hreach hs' rfl hconn rfl hreq
    rw [show plainRequest.httpRequestUrl = [104] from rfl, hidle] at hput
    simpa using congrArg List.length hput
  · intro h
    obtain ⟨r, c, hc, -, hurl⟩ := h plainConfig 1 [plainRequest] s'
      (hreach.step (a := .loop 0 (.done 0 [104, 47])) hs') [104, 47]
      (Option.isSome_iff_ne_none.mp hqueue)
    have hmem : c.req ∈ s'.calls.map (·.req) := List.mem_map.mpr ⟨c, List.mem_of_getElem? hc, rfl⟩
    rw [hcalls, List.mem_singleton] at hmem
    rw [hmem] at hurl
    cases hurl

end CurlHttp
end CmakeFrame
