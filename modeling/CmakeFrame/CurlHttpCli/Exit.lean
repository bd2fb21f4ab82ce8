import CmakeFrame.CurlHttpCli.Requests

/-!
# `curlHttpCliExit` beside the calls of `curlHttpRequest`

`curlHttpCliExit` sets `isExit`, waits until the count is zero and then takes the threads down. A call
has looked at `isExit` before it counts its request.

* `CleanExit`: behind `curlHttpCliExit` every request that was accepted has been called back.
* `Timely`: the condition on a step; `DownInv`: the invariant; `exit_clean`: in every run whose steps
  all meet the condition.
* `late_request_lost`: a request that is counted behind the last look at the count.
-/

namespace CmakeFrame
namespace CurlHttp

open Lib

namespace ExitPc

/-- The loop that looks at the count has ended. -/
def foundZero : ExitPc → Bool
  | .before | .polling => false
  | .joinWake | .asyncCurlExit _ | .rspExit | .joinRsp | .waitIo | .returned => true

/-- The response thread is joined. -/
def rspJoined : ExitPc → Bool
  | .before | .polling | .joinWake | .asyncCurlExit _ | .rspExit | .joinRsp => false
  | .waitIo | .returned => true

end ExitPc

/-- When `curlHttpCliExit` has returned, every request for which `curlHttpRequest` has returned a
number from 0 on has been called back. -/
def CleanExit (s : CurlHttpCli) : Prop :=
  s.exit = .returned → ∀ r c ret, s.calls[r]? = some c → c.pc = .returned ret → 0 ≤ ret →
    r ∈ s.calledBack

/-- The condition on a step: no call counts a request once `curlHttpCliExit` has found 0. -/
def Timely (s : CurlHttpCli) : CurlAct → Prop
  | .call i => ∀ c ∈ s.calls[i]?, c.pc = .waiting → s.exit.foundZero = false
  | .loop _ _ | .rsp | .wake | .exit => True

instance (s : CurlHttpCli) : (a : CurlAct) → Decidable (Timely s a)
  | .call i => inferInstanceAs (Decidable (∀ c ∈ s.calls[i]?, _))
  | .loop _ _ | .rsp | .wake | .exit => inferInstanceAs (Decidable True)

/-! ## Places when the count is zero -/

section

variable {cfg : Config} {s s' : CurlHttpCli} {i r : Nat} {c : Call}

theorem mem_mark {here : Prop} [Decidable here] {p q : Place} :
    q ∈ mark here p ↔ here ∧ q = p := by
  unfold mark
  split
  · rename_i h
    simp [h]
  · rename_i h
    simp [h]

theorem call_mem_places (hc : s.calls[r]? = some c) (h : c.pc.phase = .hand) :
    .call ∈ s.places r := by
  simp [CurlHttpCli.places, hc, Call.places, mem_mark, h]

theorem taken_mem_places (h : s.rsp = .count r) : .taken ∈ s.places r := by
  simp [CurlHttpCli.places, CurlHttpCli.behind, h, RspPc.places, mem_mark]

theorem of_mem_places {p : Place} (h : p ∈ s.places r) :
    p.isCounted = true ∨ p.isStale = true ∨ (p = .calling ∧ s.rsp = .callBack r) ∨
      (p = .calledBack ∧ r ∈ s.calledBack) := by
  simp only [CurlHttpCli.places, CurlHttpCli.behind, List.mem_append, List.mem_flatMap,
    mem_mark] at h
  rcases h with (⟨c, -, hp⟩ | ⟨l, -, hp⟩) | ((⟨req, -, -, rfl⟩ | hp) | ⟨req, hreq, rfl, rfl⟩)
  · obtain ⟨-, rfl⟩ := mem_mark.mp hp
    exact .inl rfl
  · rcases AsyncCurlHttp.isCounted_places hp with hcounted | hstale
    · exact .inl hcounted
    · exact .inr (.inl hstale)
  · exact .inl rfl
  · cases hrsp : s.rsp with
    | count req =>
      rw [hrsp] at hp
      obtain ⟨-, rfl⟩ := mem_mark.mp hp
      exact .inl rfl
    | callBack req =>
      rw [hrsp] at hp
      obtain ⟨rfl, rfl⟩ := mem_mark.mp hp
      exact .inr (.inr (.inl ⟨rfl, rfl⟩))
    | deal | check | ended =>
      rw [hrsp] at hp
      cases hp
  · exact .inr (.inr (.inr ⟨rfl, hreq⟩))

/-- No request is at a place that counts. -/
theorem Accounted.not_isCounted (ha : Accounted s) (h0 : s.asyncNum = 0) {p : Place}
    (hp : p ∈ s.places r) : p.isCounted = false := by
  obtain ⟨-, hout, hnum, -⟩ := ha
  have hin : s.isCounted r := by
    by_contra hr
    rw [hout r hr] at hp
    cases hp
  have hlt : r < s.calls.length := by
    obtain ⟨c, hc, -⟩ := hin
    exact (List.getElem?_eq_some_iff.mp hc).1
  have hzero : ((List.range s.calls.length).countP fun r => (s.places r).any Place.isCounted) = 0 := by
    omega
  rw [List.countP_eq_zero] at hzero
  have hany := hzero r (List.mem_range.mpr hlt)
  simp only [List.any_eq_true, not_exists, not_and] at hany
  simpa using hany p hp

/-! ## The invariant -/

structure DownInv (s : CurlHttpCli) : Prop where
  conserved : Conserved s
  zero : s.exit.foundZero = true → s.asyncNum = 0
  rsp : s.exit.rspJoined = true → s.rsp = .ended

theorem DownInv.callStep (hi : DownInv s) (hc : s.calls[i]? = some c)
    (ha : c.pc = .waiting → s.exit.foundZero = false) (h : callStep cfg s i c = some s') :
    DownInv s' := by
  have hcons := hi.conserved.callStep hc h
  cases callStep_effect h with
  | move | push | wakeup => exact ⟨hcons, hi.zero, hi.rsp⟩
  | asyncReq hpc _ =>
    refine ⟨hcons, fun hz => ?_, hi.rsp⟩
    have hfalse := ha hpc
    exact absurd (hfalse.symm.trans hz) (by decide)
  | refuse hpc =>
    refine ⟨hcons, fun hz => ?_, hi.rsp⟩
    have hmem : Place.call ∈ s.places i := call_mem_places hc (by rw [hpc]; rfl)
    cases hi.conserved.accounted.not_isCounted (hi.zero hz) hmem

theorem DownInv.rspStep (hi : DownInv s) (h : rspStep s = some s') : DownInv s' := by
  have hcons := hi.conserved.rspStep h
  have hjoined : s.exit.rspJoined = false := by
    by_contra hj
    have hended := hi.rsp (by simpa using hj)
    simp [CurlHttp.rspStep, hended] at h
  have hrsp : ∀ t : CurlHttpCli, t.exit = s.exit → t.exit.rspJoined = true → t.rsp = .ended := by
    intro t ht hj
    rw [ht, hjoined] at hj
    cases hj
  unfold CurlHttp.rspStep at h
  split at h
  · split at h
    · split at h
      · cases h
        exact ⟨hcons, hi.zero, hrsp _ rfl⟩
      · cases h
    · cases h
      exact ⟨hcons, hi.zero, hrsp _ rfl⟩
    · cases h
      exact ⟨hcons, hi.zero, hrsp _ rfl⟩
  · rename_i req hcount
    cases h
    refine ⟨hcons, fun hz => ?_, hrsp _ rfl⟩
    cases hi.conserved.accounted.not_isCounted (hi.zero hz) (taken_mem_places hcount)
  · cases h
    exact ⟨hcons, hi.zero, hrsp _ rfl⟩
  · cases h
    exact ⟨hcons, hi.zero, hrsp _ rfl⟩
  · cases h

theorem DownInv.exitStep (hi : DownInv s) (h : exitStep s = some s') : DownInv s' := by
  have hcons := hi.conserved.exitStep h
  have hnonneg : 0 ≤ s.asyncNum := hi.conserved.accounted.2.2.2
  have hzero := hi.zero
  unfold CurlHttp.exitStep at h
  split at h
  · cases h
    exact ⟨hcons, fun hz => (by cases hz), fun hj => (by cases hj)⟩
  · split at h
    · cases h
    · split at h
      · cases h
        refine ⟨hcons, fun _ => ?_, fun hj => by cases hj⟩
        show s.asyncNum = 0
        omega
      · cases h
        exact hi
  · rename_i hexit
    rw [hexit] at hzero
    split at h
    · cases h
      exact ⟨hcons, fun _ => hzero rfl, fun hj => by cases hj⟩
    · cases h
  · rename_i j hexit
    rw [hexit] at hzero
    split at h
    · cases h
      exact ⟨hcons, fun _ => hzero rfl, fun hj => by cases hj⟩
    · cases h
      exact ⟨hcons, fun _ => hzero rfl, fun hj => by cases hj⟩
  · rename_i hexit
    rw [hexit] at hzero
    cases h
    exact ⟨hcons, fun _ => hzero rfl, fun hj => by cases hj⟩
  · rename_i hexit
    rw [hexit] at hzero
    split at h
    · rename_i hended
      cases h
      exact ⟨hcons, fun _ => hzero rfl, fun _ => hended⟩
    · cases h
  · rename_i hexit
    have hrsp := hi.rsp
    rw [hexit] at hzero hrsp
    split at h
    · cases h
      exact ⟨hcons, fun _ => hzero rfl, fun _ => hrsp rfl⟩
    · cases h
  · cases h

/-- Every step that meets the condition keeps the invariant. -/
theorem DownInv.move (hi : DownInv s) {a : CurlAct} (ha : Timely s a)
    (h : s.nextMove cfg a = some s') : DownInv s' := by
  have hcons := hi.conserved.move h
  cases a with
  | call i =>
    simp only [CurlHttpCli.nextMove, CurlHttpCli.next] at h
    split at h
    · cases h
    · rename_i c hc
      exact hi.callStep hc (ha c hc) h
  | loop i e =>
    simp only [CurlHttpCli.nextMove, moveStep] at h
    split at h
    · cases h
    · obtain ⟨f, -, rfl⟩ := Option.map_eq_some_iff.mp h
      exact ⟨hcons, hi.zero, hi.rsp⟩
  | rsp => exact hi.rspStep h
  | wake =>
    rcases wakeStep_cases h with ⟨wake, rfl⟩ | ⟨j, l, -, rfl⟩
    · exact ⟨hcons, hi.zero, hi.rsp⟩
    · exact ⟨hcons, hi.zero, hi.rsp⟩
  | exit => exact hi.exitStep h

/-- Behind `curlHttpCliExit`, a request that was accepted can only have been called back. -/
theorem DownInv.cleanExit (hi : DownInv s) : CleanExit s := by
  intro hexit r c ret hc hret h0
  have ha := hi.conserved.accounted
  have hzero : s.asyncNum = 0 := hi.zero (by rw [hexit]; rfl)
  have hended : s.rsp = .ended := hi.rsp (by rw [hexit]; rfl)
  obtain ⟨p, hfresh, hp⟩ := ha.1 r ⟨c, hc, by simp [hret, CallPc.phase, h0]⟩
  have hmem : p ∈ s.places r := by
    rcases hp with hp | ⟨loop, conn, hp, -⟩ <;> simp [hp]
  have hnot := ha.not_isCounted hzero hmem
  rcases of_mem_places hmem with hcounted | hstale | ⟨-, hcalling⟩ | ⟨-, hback⟩
  · exact absurd (hnot.symm.trans hcounted) (by decide)
  · exact absurd (hfresh.symm.trans hstale) (by decide)
  · rw [hended] at hcalling
    cases hcalling
  · exact hback

/-- In every run whose steps all meet the condition. -/
theorem exit_clean {ioThreadNum : Nat} {reqs : List HttpReqSession}
    (h : ((moveSystem cfg ioThreadNum reqs).only Timely).Reach s) : CleanExit s := by
  have hi : DownInv s :=
    Sys.Reach.inv_only (S := moveSystem cfg ioThreadNum reqs)
      ⟨init_conserved cfg ioThreadNum reqs, fun hz => (by cases hz), fun hj => (by cases hj)⟩
      (fun _ _ _ hi ha hs => hi.move ha hs) h
  exact hi.cleanExit

end

/-- The threads go down, with one loop. -/
def takeDown : List CurlAct :=
  [.wake, .wake, .wake, .wake, .exit, .exit, .exit, .exit, .loop 0 .read,
    .loop 0 (.turn .newError 1), .loop 0 .forEach, .loop 0 (.leave 0), .rsp, .rsp]

/-- The call has looked at `isExit` before it was set, and counts its request behind the last look at
the count. -/
def lateRun : List CurlAct :=
  List.flatten [[.call 0, .exit, .exit, .call 0], takeDown, List.replicate 6 (.call 0),
    [.exit, .exit]]

/-- `curlHttpRequest` returns 0, `curlHttpCliExit` returns, and nobody calls back. -/
theorem late_request_lost :
    ¬ ∀ cfg ioThreadNum reqs s, (moveSystem cfg ioThreadNum reqs).Reach s → CleanExit s := by
  intro h
  have hmap : (plainMoves.run plainMoves.init lateRun).map
      (fun s => (s.exit, s.calls[0]?.map (·.pc), s.calledBack)) =
      some (.returned, some (.returned 0), []) := by decide +kernel
  obtain ⟨s, hrun, heq⟩ := Option.map_eq_some_iff.mp hmap
  simp only [Prod.mk.injEq] at heq
  obtain ⟨hexit, hcall, hback⟩ := heq
  obtain ⟨c, hc, hpc⟩ := Option.map_eq_some_iff.mp hcall
  have hreach : plainMoves.Reach s := Sys.Reach.init.run _ hrun
  have hmem := h _ _ _ s hreach hexit 0 c 0 hc hpc (le_refl _)
  rw [hback] at hmem
  cases hmem

/-- The request is answered and called back before `curlHttpCliExit` is called. -/
def timelyRun : List CurlAct :=
  List.flatten [pushRun, [.call 0, .loop 0 .read, .loop 0 (.turn .newError 1)],
    [.loop 0 (.turn .newError 1), .loop 0 (.turn .newError 1), .loop 0 .forEach, .loop 0 (.leave 0),
      .rsp, .rsp, .rsp, .rsp],
    [.exit, .exit], takeDown, [.exit, .exit]]

theorem exit_clean_timelyRun : ∃ s,
    (plainMoves.only Timely).run (plainMoves.only Timely).init timelyRun = some s ∧
      s.exit = .returned ∧ CleanExit s := by
  have hmap : ((plainMoves.only Timely).run (plainMoves.only Timely).init timelyRun).map
      (·.exit) = some .returned := by decide +kernel
  obtain ⟨s, hrun, heq⟩ := Option.map_eq_some_iff.mp hmap
  have hreach : (plainMoves.only Timely).Reach s := Sys.Reach.init.run _ hrun
  exact ⟨s, hrun, heq, exit_clean hreach⟩

end CurlHttp
end CmakeFrame
