import CmakeFrame.CurlHttpCli.Requests

/-!
# No request is left in the queue of a loop

A wakeup writes 2, and `handleRead` adds half of what it reads to the turns that `requetHttpServer`
may make. Turns are spent on an empty queue too, and are left over when the queue runs empty.

* `between`: the calls that have pushed into the queue of a loop and not yet woken it.
* `NoneStranded`: every queue is covered by turns and wakeups, and no request is taken twice.
* `LoopOk`: the invariant of a loop; `Moves.loopOk`: one step of it.
* `WakeInv`: the invariant of all threads; `no_request_stranded`: in every run.
-/

namespace CmakeFrame
namespace CurlHttp

open Lib

/-- The calls between the push into the queue of loop `i` and its wakeup. -/
def between (calls : List Call) (i : Nat) : Nat := calls.countP fun c => c.pc = .wakeup i

/-- The queue of a loop is covered by the turns and the wakeups that the loop has in front of it, and
the requests are taken in the order in which they were pushed. -/
structure Covered (calls : List Call) (i : Nat) (l : AsyncCurlHttp) : Prop where
  length : l.queue.length ≤ l.queueSize + l.counter / 2 + between calls i
  /-- No handler runs, and there is nothing to read. -/
  quiet : l.pc = .dispatch ∨ l.pc = .ended → l.counter = 0 → l.queue.length ≤ between calls i
  order : l.pushed = l.taken ++ l.queue

/-- Every loop is covered, and no request is taken twice, from whichever queue. -/
def NoneStranded (s : CurlHttpCli) : Prop :=
  (∀ i l, s.loops[i]? = some l → Covered s.calls i l) ∧ (s.loops.flatMap (·.taken)).Nodup

/-! ## One loop -/

/-- The turns that `requetHttpServer` has still to make. -/
def IoPc.turns : IoPc → Nat
  | .requet left _ | .dealt _ left _ => left
  | .dispatch | .multiInfo | .forEach _ _ _ | .leave _ | .ended | .reinit _ _ _ | .giveBack _ _ => 0

/-- The invariant of a loop with `b` calls that have still to wake it. -/
structure LoopOk (l : AsyncCurlHttp) (b : Nat) : Prop where
  credit : l.queue.length ≤ l.pc.turns + l.counter / 2 + b
  turns : l.pc.turns ≤ l.queueSize
  order : l.pushed = l.taken ++ l.queue

/-- A turn that takes no request keeps the invariant of the loop. -/
theorem AsyncCurlHttp.Steps.loopOk {reqs : Nat → Option HttpReqSession} {l l' : AsyncCurlHttp}
    {e : LoopEvent} {b : Nat} (h : l.Steps reqs e ⟨l', none, none⟩) (hq : l'.queue = l.queue)
    (hconns : l'.conns = l.conns) (hl : LoopOk l b) : LoopOk l' b := by
  have hcredit := hl.credit
  have horder := hl.order
  cases h with
  | read hpc _ =>
    simp only [hpc, IoPc.turns] at hcredit
    refine ⟨?_, le_refl _, horder⟩
    show l.queue.length ≤ l.queueSize + l.counter / 2 + 0 / 2 + b
    omega
  | socket hpc | spent _ _ _ hpc | skip _ _ _ hpc | swept _ _ _ hpc =>
    simp only [hpc, IoPc.turns] at hcredit
    exact ⟨hcredit, Nat.zero_le _, horder⟩
  | noMsg hpc =>
    simp only [hpc, IoPc.turns] at hcredit
    refine ⟨?_, le_refl _, horder⟩
    show l.queue.length ≤ l.queueSize + l.counter / 2 + b
    omega
  | empty setup seconds left handler hpc hnil =>
    refine ⟨?_, Nat.zero_le _, horder⟩
    show l.queue.length ≤ _
    rw [hnil]
    exact Nat.zero_le _
  | bind added seconds left handler req rest sess hpc _ =>
    -- a turn that binds has another connection
    exact absurd (congrArg List.length hconns) (by simp)
  | leave running handler stopped pc hpc hor =>
    simp only [hpc, IoPc.turns] at hcredit
    rcases hor with rfl | rfl
    · exact ⟨hcredit, Nat.zero_le _, horder⟩
    · exact ⟨hcredit, Nat.zero_le _, horder⟩

/-- A step of a loop keeps its invariant. -/
theorem AsyncCurlHttp.Moves.loopOk {reqs : Nat → Option HttpReqSession} {l : AsyncCurlHttp}
    {e : LoopEvent} {f : LoopEffect} {b : Nat} (h : l.Moves reqs e f) (hl : LoopOk l b) :
    LoopOk f.loop b := by
  have hcredit := hl.credit
  have hturns := hl.turns
  have horder := hl.order
  cases h with
  | quiet e l' hsteps _ _ hq hconns => exact hsteps.loopOk hq hconns hl
  | deal setup seconds left handler req rest hpc hq =>
    simp only [hpc, IoPc.turns, hq, List.length_cons] at hcredit hturns
    refine ⟨?_, ?_, ?_⟩
    · show rest.length ≤ left + l.counter / 2 + b
      omega
    · show left ≤ l.queueSize - 1
      omega
    · show l.pushed = l.taken ++ [req] ++ rest
      rw [horder, hq, List.append_assoc]
      rfl
  | respond _ _ _ _ _ hpc | bind _ _ _ _ _ _ hpc _ =>
    simp only [hpc, IoPc.turns] at hcredit hturns
    exact ⟨hcredit, hturns, horder⟩
  | answer _ i c url caller hpc _ =>
    have hzero : (caller.found i).turns = 0 := by cases caller <;> rfl
    rw [hpc, hzero] at hcredit
    exact ⟨hcredit, Nat.zero_le _, horder⟩
  | reinit i url caller c hpc _ =>
    simp only [hpc, IoPc.turns] at hcredit
    exact ⟨hcredit, Nat.zero_le _, horder⟩
  | giveBack r caller hpc =>
    simp only [hpc, IoPc.turns] at hcredit
    cases caller <;> exact ⟨hcredit, Nat.zero_le _, horder⟩

/-- A step of a loop pushes nothing into its queue. -/
theorem AsyncCurlHttp.Moves.pushed {reqs : Nat → Option HttpReqSession} {l : AsyncCurlHttp}
    {e : LoopEvent} {f : LoopEffect} (h : l.Moves reqs e f) : f.loop.pushed = l.pushed := by
  cases h with
  | quiet _ l' hsteps _ _ _ _ => cases hsteps <;> rfl
  | deal | respond | bind | answer | reinit | giveBack => rfl

theorem LoopOk.covered {calls : List Call} {i : Nat} {l : AsyncCurlHttp}
    (h : LoopOk l (between calls i)) : Covered calls i l where
  length := by
    have hcredit := h.credit
    have hturns := h.turns
    omega
  quiet hpc h0 := by
    have hcredit := h.credit
    rcases hpc with hpc | hpc
    · simpa [hpc, IoPc.turns, h0] using hcredit
    · simpa [hpc, IoPc.turns, h0] using hcredit
  order := h.order

/-! ## All threads -/

/-- How often the request is pushed into a queue of `loops`. -/
def timesPushed (loops : List AsyncCurlHttp) (r : Nat) : Nat :=
  (loops.map fun l => l.pushed.count r).sum

/-- The invariant. -/
structure WakeInv (s : CurlHttpCli) : Prop where
  loops : ∀ i l, s.loops[i]? = some l → LoopOk l (between s.calls i)
  once : ∀ r, timesPushed s.loops r = pushed s.calls r

section

variable {cfg : Config} {s s' : CurlHttpCli} {i : Nat} {c : Call}

theorem between_set {calls : List Call} (hc : calls[i]? = some c) (c' : Call) (index : Nat) :
    between (calls.set i c') index + (if c.pc = .wakeup index then 1 else 0) =
      between calls index + if c'.pc = .wakeup index then 1 else 0 := by
  have h := countP_set (fun c : Call => decide (c.pc = .wakeup index)) hc c'
  simpa [between] using h

/-- The calls of a phase wake the loop of that phase. -/
theorem wakeup_iff (pc : CallPc) (index : Nat) :
    pc = .wakeup index ↔ pc.phase = .between index := by
  cases pc with
  | wakeup j => simp [CallPc.phase]
  | returned ret => by_cases h : 0 ≤ ret <;> simp [CallPc.phase, h]
  | called | waiting | find | pop | add | insert | pick | push _ | refuse => simp [CallPc.phase]

/-- Loop `index` goes on as `l'`, and so do the calls. -/
theorem WakeInv.set {calls' : List Call} {index : Nat} {l l' : AsyncCurlHttp} (hi : WakeInv s)
    (hl : s.loops[index]? = some l) (hloops : s'.loops = s.loops.set index l')
    (hcalls : s'.calls = calls') (hok : LoopOk l' (between calls' index))
    (hother : ∀ j, j ≠ index → between calls' j = between s.calls j)
    (honce : ∀ r, l'.pushed.count r + pushed s.calls r = l.pushed.count r + pushed calls' r) :
    WakeInv s' where
  loops j m hm := by
    rw [hloops] at hm
    rw [hcalls]
    rcases set_cases hm with ⟨rfl, rfl⟩ | ⟨hne, hm⟩
    · exact hok
    · rw [hother j hne]
      exact hi.loops j m hm
  once r := by
    have hsum := sum_map_set (fun l : AsyncCurlHttp => l.pushed.count r) hl l'
    have hr := hi.once r
    have h := honce r
    unfold timesPushed at hr ⊢
    rw [hloops, hcalls]
    omega

/-- The loops stay as they are. -/
theorem WakeInv.congr (hi : WakeInv s) (hloops : s'.loops = s.loops)
    (hbetween : ∀ j, between s'.calls j = between s.calls j)
    (honce : ∀ r, pushed s'.calls r = pushed s.calls r) : WakeInv s' where
  loops j m hm := by
    rw [hloops] at hm
    rw [hbetween]
    exact hi.loops j m hm
  once r := by rw [hloops, honce, hi.once]

/-- Call `i` goes on with `c'` in the same phase, as far as the queues are concerned. -/
theorem WakeInv.setCall (hi : WakeInv s) (hc : s.calls[i]? = some c) (c' : Call)
    (hloops : s'.loops = s.loops) (hcalls : s'.calls = s.calls.set i c')
    (hwake : ∀ index, c'.pc = .wakeup index ↔ c.pc = .wakeup index)
    (hpushed : c'.pc.phase.pushed = c.pc.phase.pushed) : WakeInv s' := by
  refine hi.congr hloops (fun j => ?_) fun r => ?_
  · have h := between_set hc c' j
    simp only [hwake] at h
    rw [hcalls]
    omega
  · have h := pushed_set hc c' r
    rw [hpushed] at h
    rw [hcalls]
    omega

theorem LoopOk.push {l : AsyncCurlHttp} {b : Nat} (h : LoopOk l b) (r : Nat) :
    LoopOk (l.push r) (b + 1) where
  credit := by
    have hcredit := h.credit
    simp only [AsyncCurlHttp.push, List.length_append, List.length_singleton]
    omega
  turns := h.turns
  order := by
    show l.pushed ++ [r] = l.taken ++ (l.queue ++ [r])
    rw [h.order, List.append_assoc]

/-- More in the counter, for at most as many calls. -/
theorem LoopOk.write {l : AsyncCurlHttp} {b b' n : Nat} (h : LoopOk l b)
    (hle : b ≤ b' + n / 2) : LoopOk { l with counter := l.counter + n } b' where
  credit := by
    have hcredit := h.credit
    show l.queue.length ≤ l.pc.turns + (l.counter + n) / 2 + b'
    omega
  turns := h.turns
  order := h.order

/-- A step of a call keeps the invariant. -/
theorem WakeInv.callStep (hi : WakeInv s) (hc : s.calls[i]? = some c)
    (h : callStep cfg s i c = some s') : WakeInv s' := by
  cases callStep_effect h with
  | move pc conn urlMap lastIndex hphase =>
    refine hi.setCall hc { c with pc, conn } rfl rfl (fun index => ?_) ?_
    · rw [wakeup_iff, wakeup_iff, hphase]
    · rw [hphase]
  | asyncReq hpc _ =>
    refine hi.setCall hc { c with pc := .find } rfl rfl (fun index => ?_) ?_
    · simp [hpc]
    · simp [hpc, CallPc.phase, Phase.pushed]
  | push index l hpc hl _ =>
    have hbetween := between_set hc { c with pc := .wakeup index }
    refine hi.set hl rfl rfl ?_ (fun j hj => ?_) fun r => ?_
    · have hb := hbetween index
      simp only [hpc, reduceCtorEq, if_true, if_false] at hb
      show LoopOk (l.push i) (between (s.calls.set i { c with pc := .wakeup index }) index)
      rw [show between (s.calls.set i { c with pc := .wakeup index }) index =
        between s.calls index + 1 by omega]
      exact (hi.loops index l hl).push i
    · have hb := hbetween j
      simp only [hpc, reduceCtorEq, CallPc.wakeup.injEq, hj.symm, if_false] at hb
      exact hb
    · have hp := pushed_set hc { c with pc := .wakeup index } r
      simp only [hpc, CallPc.phase, Phase.pushed] at hp
      show (l.pushed ++ [i]).count r + pushed s.calls r =
        l.pushed.count r + pushed (s.calls.set i { c with pc := .wakeup index }) r
      rw [List.count_append, List.count_singleton]
      rcases eq_or_ne r i with rfl | hne
      · simp only [if_true, beq_self_eq_true] at hp ⊢
        omega
      · simp only [hne, hne.symm, beq_iff_eq, if_false] at hp ⊢
        omega
  | wakeup index l hpc hl =>
    have hbetween := between_set hc { c with pc := .returned 0 }
    refine hi.set hl rfl rfl ?_ (fun j hj => ?_) fun r => ?_
    · have hb := hbetween index
      simp only [hpc, reduceCtorEq, if_true, if_false] at hb
      refine (hi.loops index l hl).write ?_
      show _ ≤ between (s.calls.set i { c with pc := .returned 0 }) index + 2 / 2
      omega
    · have hb := hbetween j
      simp only [hpc, reduceCtorEq, CallPc.wakeup.injEq, hj.symm, if_false] at hb
      exact hb
    · have hp := pushed_set hc { c with pc := .returned 0 } r
      simp only [hpc, CallPc.phase, Phase.pushed, le_refl, if_true] at hp
      show l.pushed.count r + pushed s.calls r =
        l.pushed.count r + pushed (s.calls.set i { c with pc := .returned 0 }) r
      omega
  | refuse hpc =>
    refine hi.setCall hc { c with pc := .returned (-1) } rfl rfl (fun index => ?_) ?_
    · simp [hpc]
    · simp [hpc, CallPc.phase, Phase.pushed]

theorem WakeInv.setLoop {l l' : AsyncCurlHttp} (hi : WakeInv s) (hl : s.loops[i]? = some l)
    (hloops : s'.loops = s.loops.set i l') (hcalls : s'.calls = s.calls)
    (hok : LoopOk l' (between s.calls i)) (hpushed : l'.pushed = l.pushed) : WakeInv s' :=
  hi.set hl hloops hcalls hok (fun _ _ => rfl) fun r => by rw [hpushed]

theorem WakeInv.moveStep {e : LoopEvent} (hi : WakeInv s)
    (h : moveStep cfg s i e = some s') : WakeInv s' := by
  unfold CurlHttp.moveStep at h
  split at h
  · cases h
  · rename_i l hl
    obtain ⟨f, hf, rfl⟩ := Option.map_eq_some_iff.mp h
    have hmoves := AsyncCurlHttp.move_moves hf
    exact hi.setLoop hl rfl rfl (hmoves.loopOk (hi.loops i l hl)) hmoves.pushed

theorem WakeInv.rspStep (hi : WakeInv s) (h : rspStep s = some s') : WakeInv s' := by
  obtain ⟨asyncNum, responses, calledBack, rsp, rfl⟩ := rspStep_cases h
  exact ⟨hi.loops, hi.once⟩

theorem WakeInv.wakeStep (hi : WakeInv s) (h : wakeStep s = some s') : WakeInv s' := by
  rcases wakeStep_cases h with ⟨wake, rfl⟩ | ⟨i, l, hl, rfl⟩
  · exact ⟨hi.loops, hi.once⟩
  · exact hi.setLoop hl rfl rfl ((hi.loops i l hl).write (Nat.le_add_right _ _)) rfl

theorem WakeInv.exitStep (hi : WakeInv s) (h : exitStep s = some s') : WakeInv s' := by
  rcases exitStep_cases h with ⟨isExit, threadExit, rspExit, exit, rfl⟩ | ⟨i, l, hl, rfl⟩
  · exact ⟨hi.loops, hi.once⟩
  · exact hi.setLoop hl rfl rfl ((hi.loops i l hl).write (Nat.le_add_right _ _)) rfl

/-- Every step keeps the invariant. -/
theorem WakeInv.move (hi : WakeInv s) {a : CurlAct} (h : s.nextMove cfg a = some s') :
    WakeInv s' := by
  cases a with
  | call i =>
    simp only [CurlHttpCli.nextMove, CurlHttpCli.next] at h
    split at h
    · cases h
    · rename_i c hc
      exact hi.callStep hc h
  | loop i e => exact hi.moveStep h
  | rsp => exact hi.rspStep h
  | wake => exact hi.wakeStep h
  | exit => exact hi.exitStep h

theorem init_wakeInv (cfg : Config) (ioThreadNum : Nat) (reqs : List HttpReqSession) :
    WakeInv (curlSystem cfg ioThreadNum reqs).init where
  loops i l hl := by
    obtain ⟨-, rfl⟩ := List.mem_replicate.mp (List.mem_of_getElem? hl)
    exact ⟨Nat.zero_le _, le_refl _, rfl⟩
  once r := by
    simp [curlSystem, timesPushed, AsyncCurlHttp.ready, pushed_called]

/-- No request is taken twice. -/
theorem WakeInv.nodup (hi : WakeInv s) : (s.loops.flatMap (·.taken)).Nodup := by
  rw [List.nodup_iff_count_le_one]
  intro r
  have hle : (s.loops.flatMap (·.taken)).count r ≤ timesPushed s.loops r := by
    rw [List.count_flatMap]
    refine List.sum_le_sum fun l hl => ?_
    obtain ⟨i, hi'⟩ := List.mem_iff_getElem?.mp hl
    show l.taken.count r ≤ l.pushed.count r
    rw [(hi.loops i l hi').order, List.count_append]
    exact Nat.le_add_right _ _
  have honce := hi.once r
  have hone : pushed s.calls r ≤ 1 := by
    unfold pushed
    cases s.calls[r]? with
    | none => simp
    | some c => cases h : c.pc.phase <;> simp [h, Phase.pushed]
  omega

/-- In every run. -/
theorem no_request_stranded {ioThreadNum : Nat} {reqs : List HttpReqSession}
    (h : (moveSystem cfg ioThreadNum reqs).Reach s) : NoneStranded s := by
  have hi : WakeInv s :=
    Sys.Reach.inv (S := moveSystem cfg ioThreadNum reqs) (init_wakeInv cfg ioThreadNum reqs)
      (fun _ _ _ hi hs => hi.move hs) h
  exact ⟨fun i l hl => (hi.loops i l hl).covered, hi.nodup⟩

end

/-- The request is in the queue, and the call has still to wake the loop. -/
theorem no_request_stranded_pushed : ∃ s, plainMoves.run plainMoves.init pushRun = some s ∧
    s.loops.map (fun l => (l.queue.length, l.counter)) = [(1, 0)] ∧ NoneStranded s := by
  have hmap : (plainMoves.run plainMoves.init pushRun).map
      (fun s => s.loops.map fun l => (l.queue.length, l.counter)) = some [(1, 0)] := by
    decide +kernel
  obtain ⟨s, hrun, heq⟩ := Option.map_eq_some_iff.mp hmap
  exact ⟨s, hrun, heq, no_request_stranded (Sys.Reach.init.run _ hrun)⟩

end CurlHttp
end CmakeFrame
