import CmakeFrame.Lib.Sys
import Mathlib.Algebra.Group.Nat.Defs
import Mathlib.Data.List.GetD
import Mathlib.Data.List.Nodup
import Mathlib.Data.List.Perm.Basic
import Mathlib.Tactic.Common

/-!
# The speed limit of `ControlSpeed`

`speedCount` counts its call in `allCountNum_` and compares what has been counted since the count in
`lastCounNum_` with `maxSpeed_`. `everySeondReset`, once a second, puts the count of that moment into
`lastCounNum_`. The count is atomic, but each of the two is made of two steps, and nothing keeps a
reset out of the middle of a call.

* `refused`: the comparison, with its 64-bit difference.
* `Act.next`: the steps of any number of calls and resets; `system`: their interleavings.
* `Orderly`: the answers of `speedCount` are those of a speed limit.
* `InTime`: the condition on a step; `LimitInv`: the invariant; `speed_limit`: in every run whose
  steps all meet the condition.
* `overtaken_refused`: a call that a reset has overtaken is refused, whatever has been counted since.
-/

namespace CmakeFrame
namespace SpeedControl

open Lib

/-- `speedCount` returns -1: `maxSpeed_ && (nowCount - lastCounNum_ > maxSpeed_)`. -/
def refused (maxSpeed_ nowCount lastCounNum_ : UInt64) : Bool :=
  maxSpeed_ ≠ 0 ∧ nowCount - lastCounNum_ > maxSpeed_

/-- A call of `speedCount` behind `incrementAndGet`. The number of the increment and of the window
it fell into is history. -/
structure Call where
  nowCount : UInt64
  number : Nat
  window : Nat

/-- A call of `everySeondReset` behind `get`; how many increments there had been is history. -/
structure Reset where
  value : UInt64
  count : Nat

/-- What a call of `speedCount` has returned: the number of its increment, the windows of its
increment and of its read, and how many increments there were since the reset that it read. -/
structure Answer where
  number : Nat
  window : Nat
  readWindow : Nat
  since : Nat
  ret : Int
deriving DecidableEq

/-- `ControlSpeed` and the calls that are under way. Of the history, `total` is the number of
increments, `stored` the reset that `lastCounNum_` is from, `gets` how many increments there had
been at each `get`, and `answers` what has been returned. -/
structure ControlSpeed where
  maxSpeed_ : UInt64
  lastCounNum_ : UInt64
  allCountNum_ : UInt64
  calls : List Call
  resets : List Reset
  total : Nat
  stored : Nat
  gets : List Nat
  answers : List Answer

namespace ControlSpeed

/-- The windows lie between the `get` steps of the resets. -/
def window (s : ControlSpeed) : Nat := s.gets.length

/-- How many increments there were before window `w`. -/
def windowStart (s : ControlSpeed) (w : Nat) : Nat := (0 :: s.gets).getD w 0

/-- The calls that began and ended in window `w` and were let through. -/
def letThrough (s : ControlSpeed) (w : Nat) : List Answer :=
  s.answers.filter fun a => a.window = w ∧ a.readWindow = w ∧ a.ret = 0

end ControlSpeed

/-- The steps: the two of a call of `speedCount` and the two of a call of `everySeondReset`. -/
inductive Act
  | incrementAndGet
  | read (i : Nat)
  | get
  | store (i : Nat)

/-- Call `c` reads `lastCounNum_` and returns. -/
def Call.answer (s : ControlSpeed) (c : Call) : Answer where
  number := c.number
  window := c.window
  readWindow := s.window
  since := s.total - s.stored
  ret := if refused s.maxSpeed_ c.nowCount s.lastCounNum_ then -1 else 0

def Act.next (s : ControlSpeed) : Act → Option ControlSpeed
  | .incrementAndGet => some { s with
      allCountNum_ := s.allCountNum_ + 1
      calls := s.calls ++ [⟨s.allCountNum_ + 1, s.total + 1, s.window⟩]
      total := s.total + 1 }
  | .read i => s.calls[i]?.map fun c => { s with
      calls := s.calls.eraseIdx i
      answers := s.answers ++ [c.answer s] }
  | .get => some { s with
      resets := s.resets ++ [⟨s.allCountNum_, s.total⟩]
      gets := s.gets ++ [s.total] }
  | .store i => s.resets[i]?.map fun r => { s with
      resets := s.resets.eraseIdx i
      lastCounNum_ := r.value
      stored := r.count }

def system (maxSpeed_ : UInt64) : Sys ControlSpeed Act where
  init := ⟨maxSpeed_, 0, 0, [], [], 0, 0, [], []⟩
  next := Act.next

/-- A call is refused only if more than `maxSpeed_` calls were counted since the reset that it read,
and in each window at most `maxSpeed_` of the calls that begin and end there are let through. -/
structure Orderly (s : ControlSpeed) : Prop where
  refused : ∀ a ∈ s.answers, a.ret = -1 → s.maxSpeed_.toNat < a.since
  allowed : ∀ w, (s.letThrough w).length ≤ s.maxSpeed_.toNat

/-- The condition on a step: a call that reads `lastCounNum_` was counted behind the reset that the
count there is from, and less than `2^64` increments behind it. -/
def InTime (s : ControlSpeed) : Act → Prop
  | .read i => ∀ c ∈ s.calls[i]?, s.stored ≤ c.number ∧ c.number - s.stored < 2 ^ 64
  | .incrementAndGet | .get | .store _ => True

instance (s : ControlSpeed) : (a : Act) → Decidable (InTime s a)
  | .read i => inferInstanceAs (Decidable (∀ c ∈ s.calls[i]?, _))
  | .incrementAndGet | .get | .store _ => inferInstanceAs (Decidable True)

/-! ## The difference -/

theorem toNat_sub_ofNat {n g : Nat} (h : g ≤ n) (hlt : n - g < 2 ^ 64) :
    (UInt64.ofNat n - UInt64.ofNat g).toNat = n - g := by
  rw [← UInt64.ofNat_sub h, UInt64.toNat_ofNat', Nat.mod_eq_of_lt hlt]

/-- In time, the comparison is that of the counts. -/
theorem refused_ofNat {m : UInt64} {n g : Nat} (hm : m ≠ 0) (h : g ≤ n) (hlt : n - g < 2 ^ 64) :
    refused m (.ofNat n) (.ofNat g) = true ↔ m.toNat < n - g := by
  simp only [refused, decide_eq_true_eq, gt_iff_lt, UInt64.lt_iff_toNat_lt, toNat_sub_ofNat h hlt]
  exact and_iff_right hm

/-! ## The invariant -/

namespace ControlSpeed

variable {s : ControlSpeed} {w : Nat}

theorem windowStart_get (hw : w ≤ s.window) (n : Nat) :
    windowStart { s with gets := s.gets ++ [n] } w = s.windowStart w := by
  have hlt : w < (0 :: s.gets).length := Nat.lt_succ_of_le hw
  exact List.getD_append (0 :: s.gets) [n] 0 w hlt

theorem windowStart_new (n : Nat) :
    windowStart { s with gets := s.gets ++ [n] } (s.window + 1) = n := by
  have hle : (0 :: s.gets).length ≤ s.window + 1 := Nat.le_refl _
  show (0 :: s.gets ++ [n]).getD (s.window + 1) 0 = n
  rw [List.getD_append_right (0 :: s.gets) [n] 0 (s.window + 1) hle]
  simp [window]

end ControlSpeed

/-- What is known of a call that has not returned yet. -/
structure CallInv (s : ControlSpeed) (c : Call) : Prop where
  nowCount : c.nowCount = .ofNat c.number
  number : c.number ≤ s.total
  window : c.window ≤ s.window
  behind : s.windowStart c.window < c.number

/-- What is known of a call that has returned. -/
structure AnswerInv (s : ControlSpeed) (a : Answer) : Prop where
  number : a.number ≤ s.total
  window : a.window ≤ s.window
  refused : a.ret = -1 → s.maxSpeed_.toNat < a.since
  behind : s.windowStart a.window < a.number
  allowed : a.readWindow = a.window → a.ret = 0 →
    a.number ≤ s.windowStart a.window + s.maxSpeed_.toNat

/-- What every step in time keeps: the two stored words are the counts that they stand for, no count
is from a later window, and each increment has its own number. -/
structure LimitInv (s : ControlSpeed) : Prop where
  limited : s.maxSpeed_ ≠ 0
  all : s.allCountNum_ = .ofNat s.total
  last : s.lastCounNum_ = .ofNat s.stored
  stored : s.stored ≤ s.windowStart s.window
  start : s.windowStart s.window ≤ s.total
  resets : ∀ r ∈ s.resets, r.value = .ofNat r.count ∧ r.count ≤ s.windowStart s.window
  calls : ∀ c ∈ s.calls, CallInv s c
  answers : ∀ a ∈ s.answers, AnswerInv s a
  nodup : (s.calls.map Call.number ++ s.answers.map Answer.number).Nodup

theorem LimitInv.init {m : UInt64} (hm : m ≠ 0) : LimitInv (system m).init where
  limited := hm
  all := rfl
  last := rfl
  stored := Nat.le_refl _
  start := Nat.le_refl _
  resets := by simp [system]
  calls := by simp [system]
  answers := by simp [system]
  nodup := List.nodup_nil

section

variable {s : ControlSpeed} {c : Call} {i : Nat}

theorem LimitInv.incrementAndGet (hi : LimitInv s) : LimitInv { s with
    allCountNum_ := s.allCountNum_ + 1
    calls := s.calls ++ [⟨s.allCountNum_ + 1, s.total + 1, s.window⟩]
    total := s.total + 1 } where
  limited := hi.limited
  all := by
    show s.allCountNum_ + 1 = .ofNat (s.total + 1)
    rw [hi.all, UInt64.ofNat_add]
    rfl
  last := hi.last
  stored := hi.stored
  start := Nat.le_succ_of_le hi.start
  resets := hi.resets
  calls := by
    intro c hc
    rcases List.mem_append.mp hc with hc | hc
    · obtain ⟨hnow, hnum, hwin, hbehind⟩ := hi.calls c hc
      exact ⟨hnow, Nat.le_succ_of_le hnum, hwin, hbehind⟩
    · obtain rfl := List.mem_singleton.mp hc
      refine ⟨?_, Nat.le_refl _, Nat.le_refl _, Nat.lt_succ_of_le hi.start⟩
      show s.allCountNum_ + 1 = .ofNat (s.total + 1)
      rw [hi.all, UInt64.ofNat_add]
      rfl
  answers := by
    intro a ha
    obtain ⟨hnum, hwin, href, hbehind, hall⟩ := hi.answers a ha
    exact ⟨Nat.le_succ_of_le hnum, hwin, href, hbehind, hall⟩
  nodup := by
    have hnew : s.total + 1 ∉ s.calls.map Call.number ++ s.answers.map Answer.number := by
      simp only [List.mem_append, List.mem_map, not_or, not_exists, not_and]
      constructor
      · intro c hc heq
        have := (hi.calls c hc).number
        omega
      · intro a ha heq
        have := (hi.answers a ha).number
        omega
    show ((s.calls ++ [_]).map Call.number ++ s.answers.map Answer.number).Nodup
    rw [List.map_append, List.append_assoc, List.map_singleton, List.singleton_append,
      List.nodup_middle]
    exact List.nodup_cons.mpr ⟨hnew, hi.nodup⟩

/-- The answer of a call in time. -/
theorem LimitInv.answer (hi : LimitInv s) (hc : CallInv s c) (hle : s.stored ≤ c.number)
    (hlt : c.number - s.stored < 2 ^ 64) : AnswerInv s (c.answer s) := by
  have hret : refused s.maxSpeed_ c.nowCount s.lastCounNum_ = true ↔
      s.maxSpeed_.toNat < c.number - s.stored := by
    rw [hc.nowCount, hi.last]
    exact refused_ofNat hi.limited hle hlt
  refine ⟨hc.number, hc.window, fun h => ?_, hc.behind, fun hwin h => ?_⟩
  · have hr : refused s.maxSpeed_ c.nowCount s.lastCounNum_ = true := by
      by_contra hn
      simp [Call.answer, hn] at h
    have hmax := hret.mp hr
    have hnum := hc.number
    show s.maxSpeed_.toNat < s.total - s.stored
    omega
  · have hr : ¬ refused s.maxSpeed_ c.nowCount s.lastCounNum_ = true := by
      intro hr
      simp [Call.answer, hr] at h
    have hmax := mt hret.mpr hr
    have hstart : s.stored ≤ s.windowStart c.window := by
      have : s.window = c.window := hwin
      rw [← this]
      exact hi.stored
    show c.number ≤ s.windowStart c.window + s.maxSpeed_.toNat
    omega

theorem LimitInv.read (hi : LimitInv s) (hc : s.calls[i]? = some c) (hle : s.stored ≤ c.number)
    (hlt : c.number - s.stored < 2 ^ 64) : LimitInv { s with
      calls := s.calls.eraseIdx i
      answers := s.answers ++ [c.answer s] } := by
  have hmem : c ∈ s.calls := List.mem_of_getElem? hc
  refine ⟨hi.limited, hi.all, hi.last, hi.stored, hi.start, hi.resets, ?_, ?_, ?_⟩
  · intro c' hc'
    obtain ⟨hnow, hnum, hwin, hbehind⟩ := hi.calls c' (List.mem_of_mem_eraseIdx hc')
    exact ⟨hnow, hnum, hwin, hbehind⟩
  · intro a ha
    rcases List.mem_append.mp ha with ha | ha
    · obtain ⟨hnum, hwin, href, hbehind, hall⟩ := hi.answers a ha
      exact ⟨hnum, hwin, href, hbehind, hall⟩
    · obtain rfl := List.mem_singleton.mp ha
      obtain ⟨hnum, hwin, href, hbehind, hall⟩ := hi.answer (hi.calls c hmem) hle hlt
      exact ⟨hnum, hwin, href, hbehind, hall⟩
  · -- the number goes from the calls to the answers
    obtain ⟨hi', rfl⟩ := List.getElem?_eq_some_iff.mp hc
    refine (List.Perm.nodup_iff ?_).mp hi.nodup
    have hperm : (s.calls.map Call.number).Perm
        (s.calls[i].number :: (s.calls.eraseIdx i).map Call.number) :=
      ((List.getElem_cons_eraseIdx_perm hi').symm).map Call.number
    calc s.calls.map Call.number ++ s.answers.map Answer.number
        |>.Perm (s.calls[i].number :: (s.calls.eraseIdx i).map Call.number ++
            s.answers.map Answer.number) := hperm.append_right _
      _ |>.Perm ((s.calls.eraseIdx i).map Call.number ++
            s.calls[i].number :: s.answers.map Answer.number) := List.perm_middle.symm
      _ |>.Perm ((s.calls.eraseIdx i).map Call.number ++
            (s.answers.map Answer.number ++ [s.calls[i].number])) :=
          (List.perm_append_singleton _ _).symm.append_left _
      _ |>.Perm ((s.calls.eraseIdx i).map Call.number ++
            (s.answers ++ [s.calls[i].answer s]).map Answer.number) := by
          rw [List.map_append, List.map_singleton]
          rfl

theorem LimitInv.get (hi : LimitInv s) : LimitInv { s with
    resets := s.resets ++ [⟨s.allCountNum_, s.total⟩]
    gets := s.gets ++ [s.total] } := by
  have hold : ∀ w ≤ s.window,
      ControlSpeed.windowStart { s with gets := s.gets ++ [s.total] } w = s.windowStart w :=
    fun w hw => ControlSpeed.windowStart_get hw s.total
  have hnew : (0 :: (s.gets ++ [s.total])).getD (s.gets ++ [s.total]).length 0 = s.total := by
    rw [List.length_append]
    exact ControlSpeed.windowStart_new s.total
  have hwindow : s.window ≤ (s.gets ++ [s.total]).length := by
    rw [List.length_append]
    exact Nat.le_succ _
  refine ⟨hi.limited, hi.all, hi.last, ?_, ?_, ?_, ?_, ?_, hi.nodup⟩
  · exact Nat.le_trans hi.stored (Nat.le_trans hi.start (Nat.le_of_eq hnew.symm))
  · exact Nat.le_of_eq hnew
  · intro r hr
    rcases List.mem_append.mp hr with hr | hr
    · obtain ⟨hvalue, hcount⟩ := hi.resets r hr
      exact ⟨hvalue, Nat.le_trans hcount (Nat.le_trans hi.start (Nat.le_of_eq hnew.symm))⟩
    · obtain rfl := List.mem_singleton.mp hr
      exact ⟨hi.all, Nat.le_of_eq hnew.symm⟩
  · intro c hc
    obtain ⟨hnow, hnum, hwin, hbehind⟩ := hi.calls c hc
    refine ⟨hnow, hnum, Nat.le_trans hwin hwindow, ?_⟩
    rw [← hold c.window hwin] at hbehind
    exact hbehind
  · intro a ha
    obtain ⟨hnum, hwin, href, hbehind, hall⟩ := hi.answers a ha
    rw [← hold a.window hwin] at hbehind hall
    exact ⟨hnum, Nat.le_trans hwin hwindow, href, hbehind, hall⟩

theorem LimitInv.store (hi : LimitInv s) {r : Reset} (hr : s.resets[i]? = some r) :
    LimitInv { s with
      resets := s.resets.eraseIdx i
      lastCounNum_ := r.value
      stored := r.count } := by
  obtain ⟨hvalue, hcount⟩ := hi.resets r (List.mem_of_getElem? hr)
  refine ⟨hi.limited, hi.all, hvalue, hcount, hi.start, ?_, ?_, ?_, hi.nodup⟩
  · exact fun r' hr' => hi.resets r' (List.mem_of_mem_eraseIdx hr')
  · intro c hc
    obtain ⟨hnow, hnum, hwin, hbehind⟩ := hi.calls c hc
    exact ⟨hnow, hnum, hwin, hbehind⟩
  · intro a ha
    obtain ⟨hnum, hwin, href, hbehind, hall⟩ := hi.answers a ha
    exact ⟨hnum, hwin, href, hbehind, hall⟩

end

/-- One step in time. -/
theorem LimitInv.next {s s' : ControlSpeed} {a : Act} (hi : LimitInv s) (hin : InTime s a)
    (h : a.next s = some s') : LimitInv s' := by
  cases a with
  | incrementAndGet =>
    cases h
    exact hi.incrementAndGet
  | read i =>
    obtain ⟨c, hc, rfl⟩ := Option.map_eq_some_iff.mp h
    obtain ⟨hle, hlt⟩ := hin c hc
    exact hi.read hc hle hlt
  | get =>
    cases h
    exact hi.get
  | store i =>
    obtain ⟨r, hr, rfl⟩ := Option.map_eq_some_iff.mp h
    exact hi.store hr

/-- The calls let through in one window have numbers of their own, of which there are `maxSpeed_`. -/
theorem LimitInv.orderly {s : ControlSpeed} (hi : LimitInv s) : Orderly s where
  refused a ha := (hi.answers a ha).refused
  allowed w := by
    have hnodup : (s.answers.map Answer.number).Nodup := (List.nodup_append.mp hi.nodup).2.1
    -- a call of window `w` that was let through has one of the first `maxSpeed_` numbers there
    have hsub : (s.letThrough w).map Answer.number ⊆
        List.range' (s.windowStart w + 1) s.maxSpeed_.toNat := by
      intro n hn
      obtain ⟨a, ha, rfl⟩ := List.mem_map.mp hn
      obtain ⟨hmem, hcond⟩ := List.mem_filter.mp ha
      obtain ⟨rfl, hread, hret⟩ := of_decide_eq_true hcond
      have hbehind := (hi.answers a hmem).behind
      have hall := (hi.answers a hmem).allowed hread hret
      rw [List.mem_range'_1]
      omega
    have hfilter : ((s.letThrough w).map Answer.number).Nodup :=
      hnodup.sublist (List.filter_sublist.map Answer.number)
    have hle := (List.subperm_of_subset hfilter hsub).length_le
    rwa [List.length_map, List.length_range'] at hle

/-- In every run in which no reset overtakes a call between its two steps, `speedCount` is a speed
limit. -/
theorem speed_limit {maxSpeed_ : UInt64} (hpos : maxSpeed_ ≠ 0) {s : ControlSpeed}
    (h : ((system maxSpeed_).only InTime).Reach s) : Orderly s := by
  have hi : LimitInv s := Sys.Reach.inv_only (LimitInv.init hpos)
    (fun s a s' hi hin hs => hi.next hin hs) h
  exact hi.orderly

theorem speed_limit_two_windows : ∃ s, ((system 1).only InTime).run (system 1).init
    [.incrementAndGet, .incrementAndGet, .read 0, .read 0, .get, .store 0, .incrementAndGet,
      .read 0] = some s ∧ s.answers.map Answer.ret = [0, -1, 0] ∧ Orderly s := by
  have hpos : (1 : UInt64) ≠ 0 := by decide
  refine ⟨_, rfl, by decide, speed_limit hpos (Sys.Reach.init.run
    [.incrementAndGet, .incrementAndGet, .read 0, .read 0, .get, .store 0, .incrementAndGet,
      .read 0] rfl)⟩

/-- A call that is behind the reset it reads is refused, although no more than `maxSpeed_` calls were
counted since. -/
theorem overtaken_refused {s : ControlSpeed} {c : Call} (hlim : s.maxSpeed_ ≠ 0)
    (hnow : c.nowCount = .ofNat c.number) (hlast : s.lastCounNum_ = .ofNat s.stored)
    (hlt : c.number < s.stored) (hfar : s.stored - c.number + s.maxSpeed_.toNat < 2 ^ 64) :
    (c.answer s).ret = -1 := by
  have hdiff : (UInt64.ofNat c.number - UInt64.ofNat s.stored).toNat =
      2 ^ 64 - (s.stored - c.number) := by
    rw [UInt64.toNat_sub, UInt64.toNat_ofNat', UInt64.toNat_ofNat']
    omega
  have href : refused s.maxSpeed_ c.nowCount s.lastCounNum_ = true := by
    rw [hnow, hlast]
    simp only [refused, decide_eq_true_eq, gt_iff_lt, UInt64.lt_iff_toNat_lt, hdiff]
    exact ⟨hlim, by omega⟩
  exact if_pos href

/-- Two calls are counted, a reset takes the count, and then the first call reads: it is refused, as
if `2^64 - 1` calls had come since the reset. -/
theorem speed_limit_overtaken : ∃ s, (system 100).run (system 100).init
    [.incrementAndGet, .incrementAndGet, .get, .store 0, .read 0] = some s ∧
    s.answers = [⟨1, 0, 1, 0, -1⟩] ∧ ¬ Orderly s := by
  refine ⟨_, rfl, by decide, fun h => ?_⟩
  exact absurd (h.refused _ (List.mem_singleton.mpr rfl) rfl) (by decide)

end SpeedControl
end CmakeFrame
