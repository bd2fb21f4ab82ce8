import CmakeFrame.MsgFile.DetailQueue

/-!
# `msgFile/DetailFileSys.cpp`: records and the shutdown

`writeFileSys` puts a record into the `DetailQueue`; the writer threads take it out and pass it to
`msgFiles_->WriteFile`. `detailFileSysExit` sets `isExit_`, closes the queue, waits until it is
empty, joins the writers and calls `CloseAll`.

* `fileType`: the file of each kind of record.
* `detailSystem`: `n` writers, any number of calls of `writeFileSys` and one `detailFileSysExit`. A
  call tests `isExit_` and inserts its record in two steps.
* `Kept`: when `CloseAll` is called every record that was not refused has been written once, to the
  file of its kind.
* `InTime`: the condition on a step; `shutdown_kept`: in every run whose steps all meet it;
  `late_record_lost`: in another run.
-/

namespace CmakeFrame
namespace MsgFile

open Lib

/-- The names of the files. -/
inductive FileType where
  | FWD_MSG_DETAIL
  | FWD_MSGOK_DETAIL
  | FWD_RE_DETAIL
  | FWD_REOK_DETAIL
  | FWD_MO_DETAIL
  | FWD_MOOK_DETAIL
  deriving DecidableEq, Repr

/-- The `switch` of `writeDetailThread`; what is unknown goes nowhere. -/
def DETAILTYPE.fileType : DETAILTYPE → Option FileType
  | .recvMsg => some .FWD_MSG_DETAIL
  | .mtMsg => some .FWD_MSGOK_DETAIL
  | .recvRe => some .FWD_RE_DETAIL
  | .sendRe => some .FWD_REOK_DETAIL
  | .recvMo => some .FWD_MO_DETAIL
  | .sendMo => some .FWD_MOOK_DETAIL
  | .unknow => none

/-- A `DetailInfoPtr`: the object that call `id` of `writeFileSys` has made. -/
structure Record where
  id : Nat
  info : DetailInfo
  deriving DecidableEq, Repr

/-- Where `detailFileSysExit` is. -/
inductive ExitPc where
  | before
  /-- `isExit_` is set; `detailQueueExit` sets its flag next. -/
  | queueExit
  | notifyAll
  /-- The loop that waits for an empty queue. -/
  | polling
  /-- `StopThreadPool`. -/
  | joining
  /-- `CloseAll` has been called. -/
  | closed
  deriving DecidableEq, Repr

/-- `inserting` are the records of the calls between the test of `isExit_` and `detailInsert`.
`accepted` and `written` are history: the records that were not refused, and what was passed to
`WriteFile`. The writers are the takers of the queue; one that holds a record is in the `switch`,
one that got a null pointer has left its loop. -/
structure DetailFileSys where
  isExit_ : Int
  queue : Closing (DetailQueue Record) Record
  exit : ExitPc
  calls : Nat
  inserting : List Record
  accepted : List Record
  written : List (FileType × Record)

inductive DetailAct where
  /-- `writeFileSys` up to `detailInsert`. -/
  | call (info : DetailInfo)
  /-- `detailInsert`, with the writer that `notify` wakes. -/
  | insert (r : Record) (w : Option Nat)
  /-- A turn of the loop of `detailWrite` in writer `i`. -/
  | turn (i : Nat)
  /-- `notEmpty_.wait()` in writer `i`. -/
  | sleep (i : Nat)
  /-- The `switch` in writer `i`. -/
  | write (i : Nat)
  /-- The next step of `detailFileSysExit`. -/
  | exit
  deriving DecidableEq, Repr

namespace DetailFileSys

/-- A writer has left its loop. -/
def left : Taker Record → Bool
  | .done none => true
  | _ => false

/-- The `switch`: what goes to `WriteFile`. -/
def toFile (r : Record) : List (FileType × Record) :=
  match r.info.type.fileType with
  | some t => [(t, r)]
  | none => []

/-- One step of the queue. -/
def onQueue (s : DetailFileSys) (a : ClosingAct Record) : Option DetailFileSys :=
  (DetailQueue.closable.next s.queue a).map fun queue => { s with queue }

def exitStep (s : DetailFileSys) : Option DetailFileSys :=
  match s.exit with
  | .before => some { s with isExit_ := 1, exit := .queueExit }
  | .queueExit => ({ s with exit := .notifyAll }).onQueue .exit
  | .notifyAll => ({ s with exit := .polling }).onQueue .notifyAll
  | .polling =>
    -- `queueSize` takes the mutex
    if s.queue.free then
      some (if 0 < s.queue.q.queue_.length then s else { s with exit := .joining })
    else none
  | .joining => if s.queue.takers.all left then some { s with exit := .closed } else none
  | .closed => none

def next (s : DetailFileSys) : DetailAct → Option DetailFileSys
  | .call info =>
    some (if s.isExit_ ≠ 0 then s
      else { s with
        calls := s.calls + 1
        inserting := ⟨s.calls, info⟩ :: s.inserting
        accepted := ⟨s.calls, info⟩ :: s.accepted })
  | .insert r w =>
    if r ∈ s.inserting then
      ({ s with inserting := s.inserting.erase r }).onQueue (.insert r w)
    else none
  | .turn i => s.onQueue (.turn i)
  | .sleep i => s.onQueue (.sleep i)
  | .write i =>
    match s.queue.takers[i]? with
    | some (.done (some r)) => ({ s with written := s.written ++ toFile r }).onQueue (.again i)
    | _ => none
  | .exit => s.exitStep

end DetailFileSys

/-- `n` writers. -/
def detailSystem (n : Nat) : Sys DetailFileSys DetailAct where
  init := ⟨0, ⟨.new, List.replicate n .ready, 0, false, [], []⟩, .before, 0, [], [], []⟩
  next := DetailFileSys.next

/-- Every record that was not refused has been written once when `CloseAll` is called, and each one
goes to the file of its kind. -/
structure Kept (s : DetailFileSys) : Prop where
  written : s.exit = .closed → ∀ r ∈ s.accepted, (s.written.map Prod.snd).count r = 1
  fileType : ∀ w ∈ s.written, w.2.info.type.fileType = some w.1

/-- No record is of an unknown type; and when the last writer leaves, or when the queue is found
empty and there are no writers at all, no call stands between its test of `isExit_` and its
insertion. -/
def InTime (s : DetailFileSys) : DetailAct → Prop
  | .call info => s.isExit_ = 0 → info.type ≠ .unknow
  | .turn i => s.queue.q.queue_ = [] → s.queue.q.isExit_ ≠ 0 →
      (s.queue.takers.eraseIdx i).all DetailFileSys.left → s.inserting = []
  | .exit => s.exit = .polling → s.queue.takers = [] → s.queue.q.queue_ = [] → s.inserting = []
  | .insert _ _ | .sleep _ | .write _ => True

instance (s : DetailFileSys) (a : DetailAct) : Decidable (InTime s a) := by
  cases a <;> unfold InTime <;> infer_instance

/-! ## Where the records are -/

section

variable {s s' : DetailFileSys}

/-- An accepted record is on its way to the queue or was inserted; what the writers took is written
or in their hands. -/
structure Counted (s : DetailFileSys) : Prop where
  accepted : s.accepted.Perm (s.inserting ++ s.queue.inserted)
  nodup : s.accepted.Nodup
  fresh : ∀ r ∈ s.accepted, r.id < s.calls
  known : ∀ r ∈ s.accepted, r.info.type ≠ .unknow
  fifo : DetailQueue.closable.Fifo s.queue
  taken : s.queue.taken.Perm (s.written.map Prod.snd ++ s.queue.held)
  fileType : ∀ w ∈ s.written, w.2.info.type.fileType = some w.1

theorem onQueue_eq {a : ClosingAct Record} (h : s.onQueue a = some s') :
    ∃ queue, DetailQueue.closable.next s.queue a = some queue ∧ s' = { s with queue } := by
  obtain ⟨queue, hq, rfl⟩ := Option.map_eq_some_iff.mp h
  exact ⟨queue, hq, rfl⟩

/-- A record of a known type goes to one file. -/
theorem toFile_known {r : Record} (h : r.info.type ≠ .unknow) :
    ∃ t, r.info.type.fileType = some t ∧ DetailFileSys.toFile r = [(t, r)] := by
  have hsome : r.info.type.fileType.isSome := by
    cases ht : r.info.type <;> first | rfl | exact absurd ht h
  obtain ⟨t, ht⟩ := Option.isSome_iff_exists.mp hsome
  exact ⟨t, ht, by simp [DetailFileSys.toFile, ht]⟩

namespace Counted

/-- A writer's record was accepted. -/
theorem mem_accepted (hi : Counted s) {i : Nat} {r : Record}
    (hr : s.queue.takers[i]? = some (.done (some r))) : r ∈ s.accepted := by
  have hheld : r ∈ s.queue.held :=
    List.mem_filterMap.mpr ⟨_, List.mem_of_getElem? hr, rfl⟩
  have htaken : r ∈ s.queue.taken := hi.taken.mem_iff.mpr (List.mem_append_right _ hheld)
  have hinserted : r ∈ s.queue.inserted := by
    rw [hi.fifo]
    exact List.mem_append_left _ htaken
  exact hi.accepted.mem_iff.mpr (List.mem_append_right _ hinserted)

/-- A step of the queue that neither inserts nor gives a record away. -/
theorem onQueue (hi : Counted s) {a : ClosingAct Record} (hins : ∀ r w, a ≠ .insert r w)
    (hagain : ∀ i, a ≠ .again i) (h : s.onQueue a = some s') : Counted s' := by
  obtain ⟨queue, hq, rfl⟩ := onQueue_eq h
  obtain ⟨x, htaken, hheld⟩ := Closable.held_next hagain hq
  refine { hi with accepted := ?_, fifo := hi.fifo.next hq, taken := ?_ }
  · simpa only [Closable.inserted_next hins hq] using hi.accepted
  · simp only [htaken]
    calc s.queue.taken ++ x
        |>.Perm ((s.written.map Prod.snd ++ s.queue.held) ++ x) := hi.taken.append_right x
      _ |>.Perm (s.written.map Prod.snd ++ (s.queue.held ++ x)) := by rw [List.append_assoc]
      _ |>.Perm (s.written.map Prod.snd ++ queue.held) := hheld.symm.append_left _

theorem call (hi : Counted s) {info : DetailInfo} (hc : InTime s (.call info))
    (h : s.next (.call info) = some s') : Counted s' := by
  simp only [DetailFileSys.next, Option.some.injEq] at h
  split at h
  · cases h
    exact hi
  · rename_i hexit
    cases h
    refine { hi with accepted := hi.accepted.cons _, nodup := ?_, fresh := ?_, known := ?_ }
    · refine List.nodup_cons.mpr ⟨?_, hi.nodup⟩
      intro hmem
      exact Nat.lt_irrefl _ (hi.fresh _ hmem)
    · intro r hr
      rcases List.mem_cons.mp hr with rfl | hr
      · exact Nat.lt_succ_self _
      · exact Nat.lt_succ_of_lt (hi.fresh r hr)
    · intro r hr
      rcases List.mem_cons.mp hr with rfl | hr
      · exact hc (not_not.mp hexit)
      · exact hi.known r hr

theorem insert (hi : Counted s) {r : Record} {w : Option Nat}
    (h : s.next (.insert r w) = some s') : Counted s' := by
  simp only [DetailFileSys.next] at h
  split at h
  · rename_i hmem
    obtain ⟨queue, hq, rfl⟩ := onQueue_eq h
    obtain ⟨x, htaken, hheld⟩ := Closable.held_next (by intro i hh; cases hh) hq
    cases Closable.does_of_next hq
    have hx : x = [] := by
      simpa using htaken
    rw [hx, List.append_nil] at hheld
    refine { hi with accepted := ?_, fifo := hi.fifo.next hq, taken := ?_ }
    · calc s.accepted
          |>.Perm (s.inserting ++ s.queue.inserted) := hi.accepted
        _ |>.Perm ((r :: s.inserting.erase r) ++ s.queue.inserted) :=
            (List.perm_cons_erase hmem).append_right _
        _ |>.Perm (s.inserting.erase r ++ (s.queue.inserted ++ [r])) := by
            rw [← List.append_assoc]
            exact (List.perm_append_singleton r _).symm
    · exact hi.taken.trans (hheld.symm.append_left _)
  · cases h

theorem write (hi : Counted s) {i : Nat} (h : s.next (.write i) = some s') : Counted s' := by
  simp only [DetailFileSys.next] at h
  split at h
  · rename_i r hr
    obtain ⟨queue, hq, rfl⟩ := onQueue_eq h
    obtain ⟨t, ht, hfile⟩ := toFile_known (hi.known r (hi.mem_accepted hr))
    have hqueue : queue = { s.queue with takers := s.queue.takers.set i .ready } := by
      simp only [Closable.next, hr, Option.some.injEq] at hq
      exact hq.symm
    have hheld := Closable.held_again hr
    refine { hi with accepted := ?_, fifo := hi.fifo.next hq, taken := ?_, fileType := ?_ }
    · simpa only [hqueue] using hi.accepted
    · rw [hqueue, hfile]
      simp only [List.map_append, List.map_cons, List.map_nil, List.append_assoc]
      calc s.queue.taken
          |>.Perm (s.written.map Prod.snd ++ s.queue.held) := hi.taken
        _ |>.Perm (s.written.map Prod.snd ++ (_ ++ [r])) := hheld.symm.append_left _
        _ |>.Perm (s.written.map Prod.snd ++ ([r] ++ _)) := List.perm_append_comm.append_left _
    · intro w hw
      rw [hfile] at hw
      rcases List.mem_append.mp hw with hw | hw
      · exact hi.fileType w hw
      · rw [List.mem_singleton.mp hw]
        exact ht
  · cases h

/-- The fields that `Counted` speaks of do not change. -/
theorem congr (hi : Counted s) (isExit_ : Int) (exit : ExitPc) :
    Counted { s with isExit_, exit } := { hi with }

theorem exit (hi : Counted s) (h : s.next .exit = some s') : Counted s' := by
  have hnext : s.exitStep = some s' := h
  unfold DetailFileSys.exitStep at hnext
  split at hnext
  · cases hnext
    exact hi.congr _ _
  · exact (hi.congr s.isExit_ .notifyAll).onQueue (by intro r w hh; cases hh)
      (by intro i hh; cases hh) hnext
  · exact (hi.congr s.isExit_ .polling).onQueue (by intro r w hh; cases hh)
      (by intro i hh; cases hh) hnext
  · split at hnext
    · cases hnext
      split
      · exact hi
      · exact hi.congr _ _
    · cases hnext
  · split at hnext
    · cases hnext
      exact hi.congr _ _
    · cases hnext
  · cases hnext

theorem next (hi : Counted s) {a : DetailAct} (hc : InTime s a) (h : s.next a = some s') :
    Counted s' := by
  cases a with
  | call info => exact hi.call hc h
  | insert r w => exact hi.insert h
  | turn i => exact hi.onQueue (by intro r w hh; cases hh) (by intro i hh; cases hh) h
  | sleep i => exact hi.onQueue (by intro r w hh; cases hh) (by intro i hh; cases hh) h
  | write i => exact hi.write h
  | exit => exact hi.exit h

theorem init (n : Nat) : Counted (detailSystem n).init := by
  have hheld : (List.replicate n (Taker.ready : Taker Record)).filterMap Taker.holds = [] := by
    simp [List.filterMap_replicate, Taker.holds]
  constructor
  all_goals simp [detailSystem, Closable.Fifo, Closing.held, hheld, DetailQueue.closable,
    DetailQueue.new]

end Counted

/-! ## The shutdown -/

/-- The pool is being joined, or was. -/
def ExitPc.joins : ExitPc → Bool
  | .joining | .closed => true
  | .before | .queueExit | .notifyAll | .polling => false

/-- `isExit_` is set before the flag of the queue, and that before a writer leaves. Once there is
no writer any more, nothing is left to write and nothing comes. -/
structure Shutting (s : DetailFileSys) : Prop where
  flag : s.exit ≠ .before → s.isExit_ ≠ 0
  queue : s.queue.q.isExit_ ≠ 0 → s.exit ≠ .before
  left : ∀ t ∈ s.queue.takers, DetailFileSys.left t → s.queue.q.isExit_ ≠ 0
  shut : s.queue.takers.all DetailFileSys.left → s.queue.takers ≠ [] ∨ s.exit.joins →
    s.inserting = [] ∧ s.queue.q.queue_ = []
  closed : s.exit = .closed → s.queue.takers.all DetailFileSys.left

namespace Shutting

/-- A writer that gets a null pointer ends: `isExit_` is set by then. -/
theorem isExit_of_left (hi : Shutting s) {t : Taker Record} (ht : t ∈ s.queue.takers)
    (hl : DetailFileSys.left t) : s.isExit_ ≠ 0 :=
  hi.flag (hi.queue (hi.left t ht hl))

/-- When all writers are gone no call is accepted any more. -/
theorem isExit_ (hi : Shutting s) (hall : s.queue.takers.all DetailFileSys.left)
    (hor : s.queue.takers ≠ [] ∨ s.exit.joins) : s.isExit_ ≠ 0 := by
  rcases hor with hne | hjoin
  · obtain ⟨t, ht⟩ := List.exists_mem_of_ne_nil _ hne
    exact hi.isExit_of_left ht (List.all_eq_true.mp hall t ht)
  · apply hi.flag
    intro hb
    rw [hb] at hjoin
    cases hjoin

/-- Thread `i` is still there. -/
theorem not_all {l : List (Taker Record)} {t : Taker Record} (h : t ∈ l)
    (ht : DetailFileSys.left t = false) : ¬ l.all DetailFileSys.left = true := by
  intro hall
  rw [List.all_eq_true.mp hall t h] at ht
  cases ht

theorem call (hi : Shutting s) {info : DetailInfo} (h : s.next (.call info) = some s') :
    Shutting s' := by
  simp only [DetailFileSys.next, Option.some.injEq] at h
  split at h
  · cases h
    exact hi
  · rename_i hexit
    cases h
    refine { hi with shut := ?_ }
    intro hall hor
    exact absurd (hi.isExit_ hall hor) hexit

theorem insert (hi : Shutting s) {r : Record} {w : Option Nat}
    (h : s.next (.insert r w) = some s') : Shutting s' := by
  simp only [DetailFileSys.next] at h
  split at h
  · rename_i hmem
    obtain ⟨queue, hq, rfl⟩ := onQueue_eq h
    cases Closable.does_of_next hq with
    | @insert _ _ takers hfree hn =>
      -- a writer that is woken has not left; the others stand where they stood
      have hsame : takers.all DetailFileSys.left → takers = s.queue.takers := by
        intro hall
        rcases CondVar.notify_cases hn with ⟨heq, -⟩ | ⟨i, t, hti, -, rfl⟩
        · exact heq
        · refine absurd hall (not_all (t := .ready) ?_ rfl)
          exact List.mem_set (List.getElem?_eq_some_iff.mp hti).1 _
      refine ⟨hi.flag, hi.queue, ?_, ?_, ?_⟩
      · intro t ht hl
        rcases CondVar.mem_notify hn ht with ht | ⟨t', -, -, rfl⟩
        · exact hi.left t ht hl
        · cases hl
      · intro hall hor
        have heq := hsame hall
        simp only [heq] at hall hor
        rw [(hi.shut hall hor).1] at hmem
        exact absurd hmem List.not_mem_nil
      · intro hc
        have hall := hi.closed hc
        rw [(hi.shut hall (.inr (by rw [hc]; rfl))).1] at hmem
        exact absurd hmem List.not_mem_nil
  · cases h

theorem isExit_iff {q q' : DetailQueue Record}
    (h : DetailQueue.closable.isExit q = DetailQueue.closable.isExit q') :
    q.isExit_ ≠ 0 ↔ q'.isExit_ ≠ 0 :=
  decide_eq_decide.mp h

/-- A writer that is there goes to another place and stays. -/
theorem move (hi : Shutting s) {i : Nat} {t : Taker Record} (hi' : s.queue.takers[i]? = some t)
    (ht : DetailFileSys.left t = false) (t' : Taker Record) (ht' : DetailFileSys.left t' = false)
    {queue : Closing (DetailQueue Record) Record} (hq : queue.q.isExit_ ≠ 0 ↔ s.queue.q.isExit_ ≠ 0)
    (htakers : queue.takers = s.queue.takers.set i t') (written : List (FileType × Record)) :
    Shutting { s with queue, written } := by
  have hmem : t' ∈ queue.takers := by
    rw [htakers]
    exact List.mem_set (List.getElem?_eq_some_iff.mp hi').1 _
  refine ⟨hi.flag, fun h => hi.queue (hq.mp h), ?_, ?_, ?_⟩
  · intro t'' ht'' hl
    simp only [htakers] at ht''
    rcases List.mem_or_eq_of_mem_set ht'' with ht'' | rfl
    · exact hq.mpr (hi.left t'' ht'' hl)
    · rw [ht'] at hl
      cases hl
  · intro hall _
    exact absurd hall (not_all hmem ht')
  · intro hc
    exact absurd (hi.closed hc) (not_all (List.mem_of_getElem? hi') ht)

theorem turn (hi : Shutting s) {i : Nat} (hc : InTime s (.turn i))
    (h : s.next (.turn i) = some s') : Shutting s' := by
  obtain ⟨queue, hq, rfl⟩ := onQueue_eq h
  cases Closable.does_of_next hq with
  | turn hready hfree =>
    rcases DetailQueue.closable.take_cases s.queue i with ⟨r, q, -, he, heq⟩ | ⟨hempty, he, heq⟩ |
      ⟨-, he, heq⟩
    · rw [heq]
      exact hi.move hready rfl (.done (some r)) rfl (isExit_iff he) rfl s.written
    · -- the writer leaves
      have hflag : s.queue.q.isExit_ ≠ 0 := of_decide_eq_true he
      rw [heq]
      refine ⟨hi.flag, hi.queue, fun _ _ _ => hflag, ?_, ?_⟩
      · intro hall _
        refine ⟨hc hempty hflag ?_, hempty⟩
        apply List.all_eq_true.mpr
        intro t ht
        rw [← List.eraseIdx_set_eq (a := .done none)] at ht
        exact List.all_eq_true.mp hall t (List.mem_of_mem_eraseIdx ht)
      · intro hcl
        exact absurd (hi.closed hcl) (not_all (List.mem_of_getElem? hready) rfl)
    · rw [heq]
      refine hi.move hready rfl .sleepy rfl ?_ ?_ s.written
      exacts [Iff.rfl, rfl]

theorem sleep (hi : Shutting s) {i : Nat} (h : s.next (.sleep i) = some s') : Shutting s' := by
  obtain ⟨queue, hq, rfl⟩ := onQueue_eq h
  cases Closable.does_of_next hq with
  | sleep hs =>
    refine hi.move hs rfl .asleep rfl ?_ ?_ s.written
    exacts [Iff.rfl, rfl]

theorem write (hi : Shutting s) {i : Nat} (h : s.next (.write i) = some s') : Shutting s' := by
  simp only [DetailFileSys.next] at h
  split at h
  · rename_i r hr
    obtain ⟨queue, hq, rfl⟩ := onQueue_eq h
    simp only [Closable.next, hr, Option.some.injEq] at hq
    subst hq
    refine hi.move hr rfl .ready rfl ?_ ?_ _
    exacts [Iff.rfl, rfl]
  · cases h

/-- `detailFileSysExit` goes on, up to where it joins the pool. -/
theorem beforeJoin {queue : Closing (DetailQueue Record) Record} {isExit_ : Int}
    {exit : ExitPc} (hset : isExit_ ≠ 0) (hexit : exit ≠ .before) (hjoins : exit.joins = false)
    (hleft : ∀ t ∈ queue.takers, DetailFileSys.left t → queue.q.isExit_ ≠ 0)
    (hshut : queue.takers.all DetailFileSys.left → queue.takers ≠ [] →
      s.inserting = [] ∧ queue.q.queue_ = []) : Shutting { s with isExit_, queue, exit } where
  flag := fun _ => hset
  queue := fun _ => hexit
  left := hleft
  shut := by
    rintro hall (hne | hj)
    · exact hshut hall hne
    · rw [hjoins] at hj
      cases hj
  closed := by
    rintro rfl
    cases hjoins

theorem exit (hi : Shutting s) (hc : InTime s .exit) (h : s.next .exit = some s') :
    Shutting s' := by
  have hnext : s.exitStep = some s' := h
  unfold DetailFileSys.exitStep at hnext
  split at hnext
  · -- `isExit_` is set
    cases hnext
    exact beforeJoin one_ne_zero (by simp) rfl hi.left fun hall hne => hi.shut hall (.inl hne)
  · rename_i hb
    have hset := hi.flag (by rw [hb]; decide)
    obtain ⟨queue, hq, rfl⟩ := onQueue_eq hnext
    cases hq
    exact beforeJoin hset (by simp) rfl (fun _ _ _ => one_ne_zero) fun hall hne =>
      hi.shut hall (.inl hne)
  · -- the sleepers wake, and none of them has left
    rename_i hb
    have hset := hi.flag (by rw [hb]; decide)
    obtain ⟨queue, hq, rfl⟩ := onQueue_eq hnext
    cases Closable.does_of_next hq with
    | notifyAll hpos =>
      refine beforeJoin hset (by simp) rfl ?_ ?_
      · intro t ht hl
        rcases CondVar.mem_notifyAll ht with ht | ⟨t', -, -, rfl⟩
        · exact hi.left t ht hl
        · cases hl
      · intro hall hne
        have hall' : s.queue.takers.all DetailFileSys.left := by
          apply List.all_eq_true.mpr
          intro t ht
          have hmem : Taker.notEmpty.rouse t ∈ Taker.notEmpty.notifyAll s.queue.takers :=
            List.mem_map_of_mem ht
          have hl := List.all_eq_true.mp hall _ hmem
          cases t with
          | asleep => cases hl
          | ready | sleepy | done r => exact hl
        refine hi.shut hall' (.inl ?_)
        intro hnil
        exact hne (by simp [hnil, CondVar.notifyAll])
  · rename_i hb
    have hset := hi.flag (by rw [hb]; decide)
    split at hnext
    · split at hnext
      · cases hnext
        exact hi
      · rename_i hlen
        cases hnext
        have hempty : s.queue.q.queue_ = [] := List.length_eq_zero_iff.mp (by omega)
        refine ⟨fun _ => hset, fun _ hb => (by cases hb), hi.left, ?_, ?_⟩
        · intro hall _
          by_cases hnil : s.queue.takers = []
          · exact ⟨hc hb hnil hempty, hempty⟩
          · exact hi.shut hall (.inl hnil)
        · intro hcl
          cases hcl
    · cases hnext
  · rename_i hb
    have hset := hi.flag (by rw [hb]; decide)
    split at hnext
    · rename_i hall
      cases hnext
      exact ⟨fun _ => hset, fun _ hb => (by cases hb), hi.left,
        fun _ _ => hi.shut hall (.inr (by rw [hb]; rfl)), fun _ => hall⟩
    · cases hnext
  · cases hnext

theorem next (hi : Shutting s) {a : DetailAct} (hc : InTime s a) (h : s.next a = some s') :
    Shutting s' := by
  cases a with
  | call info => exact hi.call h
  | insert r w => exact hi.insert h
  | turn i => exact hi.turn hc h
  | sleep i => exact hi.sleep h
  | write i => exact hi.write h
  | exit => exact hi.exit hc h

theorem init (n : Nat) : Shutting (detailSystem n).init := by
  refine ⟨fun h => absurd rfl h, fun h => absurd rfl h, ?_, fun _ _ => ⟨rfl, rfl⟩, ?_⟩
  · intro t ht hl
    rw [List.eq_of_mem_replicate ht] at hl
    cases hl
  · intro hc
    cases hc

end Shutting

/-- When all writers have left, nobody holds a record. -/
theorem held_of_left (h : s.queue.takers.all DetailFileSys.left) : s.queue.held = [] := by
  unfold Closing.held
  rw [List.filterMap_eq_nil_iff]
  intro t ht
  have hl := List.all_eq_true.mp h t ht
  cases t with
  | ready | sleepy | asleep => rfl
  | done r =>
    cases r with
    | none => rfl
    | some r => cases hl

theorem Kept.of_inv (hc : Counted s) (hs : Shutting s) : Kept s where
  written := by
    intro hcl r hr
    have hall := hs.closed hcl
    obtain ⟨hinserting, hqueue⟩ := hs.shut hall (.inr (by rw [hcl]; rfl))
    have htaken : s.queue.inserted = s.queue.taken := by
      have hfifo : s.queue.inserted = s.queue.taken ++ s.queue.q.queue_ := hc.fifo
      rw [hfifo, hqueue, List.append_nil]
    have hperm : s.accepted.Perm (s.written.map Prod.snd) :=
      calc s.accepted
          |>.Perm (s.inserting ++ s.queue.inserted) := hc.accepted
        _ |>.Perm (s.written.map Prod.snd ++ s.queue.held) := by
            rw [hinserting, List.nil_append, htaken]
            exact hc.taken
        _ |>.Perm (s.written.map Prod.snd) := by rw [held_of_left hall, List.append_nil]
    rw [← hperm.count_eq]
    exact List.count_eq_one_of_mem hc.nodup hr
  fileType := hc.fileType

end

/-- In every run whose steps are in time: `CloseAll` finds every accepted record written once. -/
theorem shutdown_kept (n : Nat) (s : DetailFileSys) (h : ((detailSystem n).only InTime).Reach s) :
    Kept s := by
  have hi : Counted s ∧ Shutting s :=
    Sys.Reach.inv_only (I := fun s => Counted s ∧ Shutting s) ⟨Counted.init n, Shutting.init n⟩
      (fun _ _ _ hi hc hs => ⟨hi.1.next hc hs, hi.2.next hc hs⟩) h
  exact .of_inv hi.1 hi.2

/-- Two records; a writer sleeps, is woken by the first one and takes both; the second one comes
when `detailFileSysExit` has begun. -/
def twoRecords : List DetailAct :=
  [.turn 0, .sleep 0, .call ⟨.recvMsg, [65]⟩, .insert ⟨0, .recvMsg, [65]⟩ (some 0), .turn 0,
    .call ⟨.sendMo, [66]⟩, .exit, .exit, .insert ⟨1, .sendMo, [66]⟩ none, .write 0, .exit, .turn 0,
    .exit, .write 0, .turn 0, .exit]

theorem shutdown_kept_twoRecords : ∃ s, ((detailSystem 1).only InTime).run
    ((detailSystem 1).only InTime).init twoRecords = some s ∧ s.exit = .closed ∧
    s.written = [(.FWD_MSG_DETAIL, ⟨0, .recvMsg, [65]⟩), (.FWD_MOOK_DETAIL, ⟨1, .sendMo, [66]⟩)] ∧
    Kept s :=
  ⟨_, rfl, rfl, rfl, shutdown_kept 1 _ (Sys.Reach.init.run twoRecords rfl)⟩

/-- A call has found `isExit_` clear. Before it inserts its record, `detailFileSysExit` closes the
queue and the writer leaves. -/
def lateRecord : List DetailAct :=
  [.call ⟨.recvMsg, [65]⟩, .exit, .exit, .exit, .turn 0, .exit, .exit,
    .insert ⟨0, .recvMsg, [65]⟩ none]

/-- The record is in the queue, and nobody will take it. -/
theorem late_record_lost : ∃ s, (detailSystem 1).Reach s ∧ s.exit = .closed ∧
    s.queue.q.queue_ = [⟨0, .recvMsg, [65]⟩] ∧ s.written = [] ∧ ¬ Kept s := by
  obtain ⟨s, hrun, hexit, hqueue, haccepted, hwritten⟩ : ∃ s, (detailSystem 1).run
      (detailSystem 1).init lateRecord = some s ∧ s.exit = .closed ∧
      s.queue.q.queue_ = [⟨0, .recvMsg, [65]⟩] ∧ s.accepted = [⟨0, .recvMsg, [65]⟩] ∧
      s.written = [] := ⟨_, rfl, rfl, rfl, rfl, rfl⟩
  refine ⟨s, Sys.Reach.init.run _ hrun, hexit, hqueue, hwritten, ?_⟩
  intro hk
  have := hk.written hexit ⟨0, .recvMsg, [65]⟩ (by rw [haccepted]; exact List.mem_cons_self)
  rw [hwritten] at this
  cases this

end MsgFile
end CmakeFrame
