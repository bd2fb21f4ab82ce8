import CmakeFrame.Lib.Threads
import CmakeFrame.SpeedControl.ControlSpeed
import Mathlib.Algebra.Group.Nat.Defs
import Mathlib.Data.Int.ModEq
import Mathlib.Data.List.Induction
import Mathlib.Tactic.Common

/-!
# The indices of `DataStatistics`

Each module of a program has an index of its own, where it counts its calls against a limit
(`controlSpeedAdd`), or counts what it has done (`speedDataAdd`) for somebody who asks once a second
how much that was (`currentSpeed`). The indices are made before the counting begins.

* `indexInit`: the vector grows up to the index, or to twice its size; `lookup_indexInit`: it is a map
  all the same.
* `StatAct.next`: the steps of the calls. `currentSpeed` is made of three: it takes the count, subtracts
  what the last call had taken, and stores the new one.
* `control_reach`: what happens at an index is a run of its own `ControlSpeed` without resets.
* `never_reset`: no call takes the count of `controlSpeedAdd` back, so the limit is that of all calls.
* `reports_cover`: in every interleaving, what `currentSpeed` has taken was part of a speed.
* `reports_add_up`: if the calls of an index do not overlap, the speeds add up to what was counted.
-/

namespace CmakeFrame
namespace SpeedControl

open Lib

structure SpeedData where
  lastCounNum_ : UInt64
  allCountNum_ : UInt64

structure DataStatistics where
  controlSpeedVec : List (Option ControlSpeed)
  speedDataVec : List (Option SpeedData)

section

variable {α : Type}

/-- `static_cast<size_t>(index)`. -/
def vectIndex (index : Int32) : Nat := (index.toInt % 2 ^ 64).toNat

/-- The object at an index, if the vector is that long and there is one. -/
def lookup (vec : List (Option α)) (index : Int32) : Option α := vec[vectIndex index]?.join

def put (vec : List (Option α)) (index : Int32) (x : α) : List (Option α) :=
  vec.set (vectIndex index) (some x)

/-- `max_size` of a vector of shared pointers. -/
def maxSize : Nat := 2 ^ 59 - 1

/-- `vectSize` behind its `if`: how many null pointers are put behind the vector. -/
def vectSize (vec : List (Option α)) (index : Int32) : Int :=
  let size := Int.bmod vec.length (2 ^ 32)
  if size ≤ index.toInt then index.toInt - size + 1 else size

/-- The two functions that make an index. There is no result when an `int` overflows, when the vector
cannot grow, and when the index is not in it even then. -/
def indexInit (vec : List (Option α)) (index : Int32) (new : α) : Option (List (Option α)) :=
  let grown := vec ++ List.replicate (vectSize vec index).toNat none
  if vectSize vec index < 2 ^ 31 ∧ grown.length ≤ maxSize ∧ vectIndex index < grown.length then
    some (put grown index new)
  else none

end

namespace DataStatistics

variable (d : DataStatistics)

def speedControlIndexInit (index maxSpeed : Int32) : Option (DataStatistics × Int32) :=
  (indexInit d.controlSpeedVec index (system maxSpeed.toInt64.toUInt64).init).map fun vec =>
    ({ d with controlSpeedVec := vec }, 0)

def speedDataIndexInit (index : Int32) : Option (DataStatistics × Int32) :=
  (indexInit d.speedDataVec index ⟨0, 0⟩).map fun vec => ({ d with speedDataVec := vec }, 1)

end DataStatistics

/-- A call that makes an index. -/
inductive IndexInit
  | control (index maxSpeed : Int32)
  | data (index : Int32)
deriving DecidableEq

def IndexInit.run (d : DataStatistics) : IndexInit → Option DataStatistics
  | .control index maxSpeed => (d.speedControlIndexInit index maxSpeed).map Prod.fst
  | .data index => (d.speedDataIndexInit index).map Prod.fst

/-- The calls before the counting begins. -/
def started (inits : List IndexInit) : Option DataStatistics := inits.foldlM IndexInit.run ⟨[], []⟩

def IndexInit.limit (f : Int32 → Option UInt64) : IndexInit → Int32 → Option UInt64
  | .control index maxSpeed => Function.update f index (some maxSpeed.toInt64.toUInt64)
  | .data _ => f

/-- The limit of each index: that of its last call. -/
def limits (inits : List IndexInit) : Int32 → Option UInt64 :=
  inits.foldl IndexInit.limit fun _ => none

/-- A call of `currentSpeed` that has taken the count. -/
structure Taken where
  index : Int32
  all : UInt64
deriving DecidableEq

/-- A call of `currentSpeed` behind its subtraction: the count it has taken and what it has subtracted. -/
structure Report where
  index : Int32
  all : UInt64
  last : UInt64
deriving DecidableEq

/-- `static_cast<int>(all - lastCounNum_)`. -/
def Report.speed (r : Report) : Int := Int.bmod (r.all - r.last).toNat (2 ^ 32)

/-- The counters, the calls of `currentSpeed` that have taken a count, and those that have subtracted.
What was returned, and for which indices `speedDataAdd` was called, is history. -/
structure Statistics extends DataStatistics where
  loaded : List Taken
  subtracted : List Report
  returned : List Report
  added : List Int32

namespace Statistics

variable (s : Statistics) (i : Int32)

/-- A step of a call at an index of its own `ControlSpeed`. -/
def onControl (a : Act) : Option Statistics :=
  (lookup s.controlSpeedVec i).bind fun c => (a.next c).map fun c' =>
    { s with controlSpeedVec := put s.controlSpeedVec i c' }

/-- How many calls of `currentSpeed` are on their way. -/
def underWay : Nat := s.loaded.countP (·.index = i) + s.subtracted.countP (·.index = i)

def speeds : List Int := (s.returned.filter (·.index = i)).map Report.speed

end Statistics

/-- The steps of `controlSpeedAdd`, `speedDataAdd` and `currentSpeed`. -/
inductive StatAct
  | controlSpeedAdd (index : Int32)
  | compare (index : Int32) (call : Nat)
  | speedDataAdd (index : Int32)
  | currentSpeed (index : Int32)
  | subtract (index : Int32) (all : UInt64)
  | store (r : Report)

/-- At an index that was not made, `controlSpeedAdd` returns -1 and `currentSpeed` 0 at once. -/
def StatAct.next (s : Statistics) : StatAct → Option Statistics
  | .controlSpeedAdd i =>
    if (lookup s.controlSpeedVec i).isSome then s.onControl i .incrementAndGet else some s
  | .compare i call => s.onControl i (.read call)
  | .speedDataAdd i =>
    let s' := { s with added := s.added ++ [i] }
    match lookup s.speedDataVec i with
    | none => some s'
    | some c => some { s' with
        speedDataVec := put s.speedDataVec i { c with allCountNum_ := c.allCountNum_ + 1 } }
  | .currentSpeed i =>
    match lookup s.speedDataVec i with
    | none => some s
    | some c => some { s with loaded := ⟨i, c.allCountNum_⟩ :: s.loaded }
  | .subtract i all =>
    if ⟨i, all⟩ ∈ s.loaded then
      (lookup s.speedDataVec i).map fun c => { s with
        loaded := s.loaded.erase ⟨i, all⟩
        subtracted := ⟨i, all, c.lastCounNum_⟩ :: s.subtracted }
    else none
  | .store r =>
    if r ∈ s.subtracted then
      (lookup s.speedDataVec r.index).map fun c => { s with
        speedDataVec := put s.speedDataVec r.index { c with lastCounNum_ := r.all }
        subtracted := s.subtracted.erase r
        returned := s.returned ++ [r] }
    else none

def statSystem (d : DataStatistics) : Sys Statistics StatAct where
  init := { d with loaded := [], subtracted := [], returned := [], added := [] }
  next := StatAct.next

/-! ## The vectors -/

section

variable {α : Type} {vec vec' : List (Option α)} {index i : Int32} {x : α}

theorem vectIndex_inj (h : vectIndex index = vectIndex i) : index = i := by
  have hlo := index.le_toInt
  have hhi := index.toInt_lt
  have hlo' := i.le_toInt
  have hhi' := i.toInt_lt
  simp only [vectIndex] at h
  apply Int32.toInt_inj.mp
  omega

theorem lookup_put (hlt : vectIndex index < vec.length) :
    lookup (put vec index x) = Function.update (lookup vec) index (some x) := by
  funext i
  by_cases h : i = index
  · subst h
    rw [Function.update_self, lookup, put, List.getElem?_set_self hlt]
    rfl
  · have hne : vectIndex index ≠ vectIndex i := fun he => h (vectIndex_inj he).symm
    rw [Function.update_of_ne h, lookup, put, List.getElem?_set_ne hne]
    rfl

/-- An object is replaced. -/
theorem lookup_put_of_some (h : lookup vec index = some x) (y : α) :
    lookup (put vec index y) = Function.update (lookup vec) index (some y) := by
  refine lookup_put (Nat.lt_of_not_le fun hle => ?_)
  rw [lookup, List.getElem?_eq_none hle] at h
  cases h

/-- New places hold nothing. -/
theorem lookup_append_replicate (n : Nat) : lookup (vec ++ List.replicate n none) = lookup vec := by
  funext i
  rw [lookup, lookup, List.getElem?_append]
  split
  · rfl
  · rename_i h
    rw [List.getElem?_eq_none (Nat.le_of_not_lt h), List.getElem?_replicate]
    split <;> rfl

/-- Whatever the vector grows by, only the object at the index is new. -/
theorem lookup_indexInit (h : indexInit vec index x = some vec') :
    lookup vec' = Function.update (lookup vec) index (some x) := by
  simp only [indexInit] at h
  split at h
  · rename_i hfits
    cases h
    rw [lookup_put hfits.2.2, lookup_append_replicate]
  · cases h

end

section

variable {inits : List IndexInit} {d d' : DataStatistics} {i : Int32}

theorem IndexInit.run_control {index maxSpeed : Int32}
    (h : IndexInit.run d (.control index maxSpeed) = some d') :
    lookup d'.controlSpeedVec = Function.update (lookup d.controlSpeedVec) index
      (some (system maxSpeed.toInt64.toUInt64).init) ∧ d'.speedDataVec = d.speedDataVec := by
  simp only [IndexInit.run, DataStatistics.speedControlIndexInit, Option.map_map] at h
  obtain ⟨vec, hvec, rfl⟩ := Option.map_eq_some_iff.mp h
  exact ⟨lookup_indexInit hvec, rfl⟩

theorem IndexInit.run_data {index : Int32} (h : IndexInit.run d (.data index) = some d') :
    lookup d'.speedDataVec = Function.update (lookup d.speedDataVec) index (some ⟨0, 0⟩) ∧
      d'.controlSpeedVec = d.controlSpeedVec := by
  simp only [IndexInit.run, DataStatistics.speedDataIndexInit, Option.map_map] at h
  obtain ⟨vec, hvec, rfl⟩ := Option.map_eq_some_iff.mp h
  exact ⟨lookup_indexInit hvec, rfl⟩

theorem limits_concat (a : IndexInit) : limits (inits ++ [a]) = a.limit (limits inits) := by
  rw [limits, List.foldl_append]
  rfl

theorem started_concat {a : IndexInit} (h : started (inits ++ [a]) = some d') :
    ∃ d, started inits = some d ∧ a.run d = some d' := by
  rw [started, List.foldlM_append] at h
  obtain ⟨d, hd, ha⟩ := Option.bind_eq_some_iff.mp h
  refine ⟨d, hd, ?_⟩
  simpa using ha

/-- What the calls have made: each index has a new `ControlSpeed` with the limit of its last call. -/
theorem started_control (h : started inits = some d) :
    lookup d.controlSpeedVec i = (limits inits i).map fun m => (system m).init := by
  induction inits using List.reverseRecOn generalizing d with
  | nil =>
    cases h
    rfl
  | append_singleton inits a ih =>
    obtain ⟨d₀, h0, ha⟩ := started_concat h
    rw [limits_concat]
    cases a with
    | control index maxSpeed =>
      rw [(IndexInit.run_control ha).1, IndexInit.limit]
      by_cases hi : i = index
      · subst hi
        rw [Function.update_self, Function.update_self]
        rfl
      · rw [Function.update_of_ne hi, Function.update_of_ne hi, ih h0]
    | data index => rw [(IndexInit.run_data ha).2, IndexInit.limit, ih h0]

theorem started_data (h : started inits = some d) :
    lookup d.speedDataVec i = if .data i ∈ inits then some ⟨0, 0⟩ else none := by
  induction inits using List.reverseRecOn generalizing d with
  | nil =>
    cases h
    rfl
  | append_singleton inits a ih =>
    obtain ⟨d₀, h0, ha⟩ := started_concat h
    cases a with
    | control index maxSpeed =>
      rw [(IndexInit.run_control ha).2, ih h0]
      simp
    | data index =>
      rw [(IndexInit.run_data ha).1]
      by_cases hi : i = index
      · subst hi
        simp
      · rw [Function.update_of_ne hi, ih h0]
        simp [hi]

end

/-! ## The limits -/

/-- The steps of `speedCount`, without those of `everySeondReset`. -/
def Counting (_ : ControlSpeed) : Act → Prop
  | .incrementAndGet | .read _ => True
  | .get | .store _ => False

instance (c : ControlSpeed) : (a : Act) → Decidable (Counting c a)
  | .incrementAndGet | .read _ => inferInstanceAs (Decidable True)
  | .get | .store _ => inferInstanceAs (Decidable False)

section

variable {s s' : Statistics} {i : Int32}

theorem Statistics.onControl_cases {a : Act} (h : s.onControl i a = some s') :
    ∃ c c', lookup s.controlSpeedVec i = some c ∧ a.next c = some c' ∧
      s' = { s with controlSpeedVec := put s.controlSpeedVec i c' } := by
  obtain ⟨c, hc, h⟩ := Option.bind_eq_some_iff.mp h
  obtain ⟨c', hnext, rfl⟩ := Option.map_eq_some_iff.mp h
  exact ⟨c, c', hc, hnext, rfl⟩

/-- A step either leaves the limits alone, or it is one of `speedCount` at an index. -/
theorem StatAct.next_control {a : StatAct} (h : a.next s = some s') :
    s'.controlSpeedVec = s.controlSpeedVec ∨
      ∃ j b, Counting (system 0).init b ∧ s.onControl j b = some s' := by
  cases a with
  | controlSpeedAdd j =>
    simp only [StatAct.next] at h
    split at h
    · exact .inr ⟨j, .incrementAndGet, trivial, h⟩
    · cases h
      exact .inl rfl
  | compare j call => exact .inr ⟨j, .read call, trivial, h⟩
  | speedDataAdd j =>
    simp only [StatAct.next] at h
    split at h <;> cases h <;> exact .inl rfl
  | currentSpeed j =>
    simp only [StatAct.next] at h
    split at h <;> cases h <;> exact .inl rfl
  | subtract j all =>
    simp only [StatAct.next] at h
    split at h
    · obtain ⟨c, -, rfl⟩ := Option.map_eq_some_iff.mp h
      exact .inl rfl
    · cases h
  | store r =>
    simp only [StatAct.next] at h
    split at h
    · obtain ⟨c, -, rfl⟩ := Option.map_eq_some_iff.mp h
      exact .inl rfl
    · cases h

/-- What happens at an index is a run of its own `ControlSpeed`, in which nothing is reset. -/
theorem control_reach {inits : List IndexInit} {d : DataStatistics} (hd : started inits = some d)
    (h : (statSystem d).Reach s) {m : UInt64} (hm : limits inits i = some m) :
    ∃ c, lookup s.controlSpeedVec i = some c ∧ ((system m).only Counting).Reach c := by
  revert i m
  refine Sys.Reach.inv (I := fun s => ∀ {i : Int32} {m : UInt64}, limits inits i = some m →
    ∃ c, lookup s.controlSpeedVec i = some c ∧ ((system m).only Counting).Reach c) ?_ ?_ h
  · intro i m hm
    refine ⟨(system m).init, ?_, .init⟩
    have := started_control (i := i) hd
    rwa [hm] at this
  · intro s a s' ih hs i m hm
    obtain ⟨c, hc, hreach⟩ := ih hm
    rcases StatAct.next_control hs with hsame | ⟨j, b, hb, hon⟩
    · exact ⟨c, by rw [hsame, hc], hreach⟩
    · obtain ⟨c₁, c', hc₁, hnext, rfl⟩ := Statistics.onControl_cases hon
      have hput := lookup_put_of_some hc₁ c'
      by_cases hij : i = j
      · subst hij
        obtain rfl : c₁ = c := Option.some.inj (hc₁.symm.trans hc)
        refine ⟨c', by rw [hput, Function.update_self], hreach.step (a := b) ?_⟩
        have hcount : Counting c₁ b := hb
        simp only [Sys.only, if_pos hcount]
        exact hnext
      · exact ⟨c, by rw [hput, Function.update_of_ne hij, hc], hreach⟩

end

/-- What holds of a `ControlSpeed` without resets, as long as its count fits into 64 bits. -/
structure NeverReset (m : UInt64) (c : ControlSpeed) : Prop where
  limit : LimitInv c
  maxSpeed : c.maxSpeed_ = m
  stored : c.stored = 0
  gets : c.gets = []
  answers : ∀ a ∈ c.answers, a.readWindow = 0 ∧ (a.ret = 0 ∨ a.ret = -1) ∧
    (a.ret = -1 ↔ m.toNat < a.number)

section

variable {m : UInt64} {c c' : ControlSpeed}

theorem NeverReset.answer (hn : NeverReset m c) (ht : c.total < 2 ^ 64) {call : Call}
    (hc : call ∈ c.calls) : (call.answer c).readWindow = 0 ∧
      ((call.answer c).ret = 0 ∨ (call.answer c).ret = -1) ∧
      ((call.answer c).ret = -1 ↔ m.toNat < (call.answer c).number) := by
  have hcall := hn.limit.calls call hc
  have hlt : call.number - 0 < 2 ^ 64 := Nat.lt_of_le_of_lt hcall.number ht
  have hret : refused c.maxSpeed_ call.nowCount c.lastCounNum_ = true ↔ m.toNat < call.number := by
    rw [hcall.nowCount, hn.limit.last, hn.stored,
      refused_ofNat hn.limit.limited (Nat.zero_le _) hlt, hn.maxSpeed, Nat.sub_zero]
  refine ⟨by simp [Call.answer, ControlSpeed.window, hn.gets], ?_, ?_⟩
  · simp only [Call.answer]
    split
    · exact .inr rfl
    · exact .inl rfl
  · simp only [Call.answer, ← hret]
    split <;> simp_all

theorem NeverReset.next (hn : NeverReset m c) {a : Act} (ha : Counting c a)
    (h : a.next c = some c') (ht : c.total < 2 ^ 64) : NeverReset m c' := by
  cases a with
  | incrementAndGet =>
    cases h
    exact ⟨hn.limit.incrementAndGet, hn.maxSpeed, hn.stored, hn.gets, hn.answers⟩
  | read i =>
    obtain ⟨call, hcall, rfl⟩ := Option.map_eq_some_iff.mp h
    have hmem : call ∈ c.calls := List.mem_of_getElem? hcall
    have hnum : call.number < 2 ^ 64 := Nat.lt_of_le_of_lt (hn.limit.calls call hmem).number ht
    refine ⟨hn.limit.read hcall ?_ ?_, hn.maxSpeed, hn.stored, hn.gets, fun a ha => ?_⟩
    · rw [hn.stored]
      exact Nat.zero_le _
    · rwa [hn.stored, Nat.sub_zero]
    · rcases List.mem_append.mp ha with ha | ha
      · exact hn.answers a ha
      · obtain rfl := List.mem_singleton.mp ha
        exact hn.answer ht hmem
  | get => exact ha.elim
  | store i => exact ha.elim

theorem total_le_of_next {a : Act} (h : a.next c = some c') : c.total ≤ c'.total := by
  cases a with
  | incrementAndGet =>
    cases h
    exact Nat.le_succ _
  | read i =>
    obtain ⟨call, -, rfl⟩ := Option.map_eq_some_iff.mp h
    exact Nat.le_refl _
  | get =>
    cases h
    exact Nat.le_refl _
  | store i =>
    obtain ⟨r, -, rfl⟩ := Option.map_eq_some_iff.mp h
    exact Nat.le_refl _

theorem reach_neverReset (hm : m ≠ 0) (h : ((system m).only Counting).Reach c)
    (ht : c.total < 2 ^ 64) : NeverReset m c := by
  revert ht
  refine Sys.Reach.inv_only (I := fun c => c.total < 2 ^ 64 → NeverReset m c) ?_ ?_ h
  · exact fun _ => ⟨.init hm, rfl, rfl, rfl, by simp [system]⟩
  · intro c a c' ih ha hs ht
    have htotal : c.total < 2 ^ 64 := Nat.lt_of_le_of_lt (total_le_of_next hs) ht
    exact (ih htotal).next ha hs htotal

/-- All calls are in one window. -/
theorem NeverReset.letThrough (hn : NeverReset m c) :
    c.letThrough 0 = c.answers.filter fun a => a.ret = 0 := by
  refine List.filter_congr fun a ha => ?_
  have hwindow : a.window ≤ c.window := (hn.limit.answers a ha).window
  rw [ControlSpeed.window, hn.gets] at hwindow
  have hzero : a.window = 0 := Nat.le_zero.mp hwindow
  simp [hzero, (hn.answers a ha).1]

end

/-- The limit of an index is never reset: of all the calls of `controlSpeedAdd` that are ever made there,
in whatever order, those after the first `maxSpeed` are refused. -/
theorem never_reset {inits : List IndexInit} {d : DataStatistics} (hd : started inits = some d)
    {s : Statistics} (h : (statSystem d).Reach s) {i : Int32} {m : UInt64}
    (hm : limits inits i = some m) (hpos : m ≠ 0) :
    ∃ c, lookup s.controlSpeedVec i = some c ∧ (c.total < 2 ^ 64 →
      (c.answers.filter fun a => a.ret = 0).length ≤ m.toNat ∧
        ∀ a ∈ c.answers, a.ret = -1 ↔ m.toNat < a.number) := by
  obtain ⟨c, hc, hreach⟩ := control_reach hd h hm
  refine ⟨c, hc, fun ht => ?_⟩
  have hn := reach_neverReset hpos hreach ht
  refine ⟨?_, fun a ha => (hn.answers a ha).2.2⟩
  have hallowed := hn.limit.orderly.allowed 0
  rwa [hn.letThrough, hn.maxSpeed] at hallowed

/-- Index 2 with the limit 1 (made twice, so that the vector has six places): two calls that overlap. -/
theorem never_reset_two : ∃ d s c, started [.control 2 5, .control 2 1] = some d ∧
    d.controlSpeedVec.length = 6 ∧ (statSystem d).run (statSystem d).init
      [.controlSpeedAdd 2, .controlSpeedAdd 2, .compare 2 1, .compare 2 0] = some s ∧
    lookup s.controlSpeedVec 2 = some c ∧ c.answers.map Answer.ret = [-1, 0] ∧
    (c.answers.filter fun a => a.ret = 0).length ≤ 1 := by
  have hstart : ((started [.control 2 5, .control 2 1]).any fun d => d.controlSpeedVec.length = 6 &&
      ((statSystem d).run (statSystem d).init [.controlSpeedAdd 2, .controlSpeedAdd 2, .compare 2 1,
        .compare 2 0]).any fun s => (lookup s.controlSpeedVec 2).any fun c =>
          c.answers.map Answer.ret = [-1, 0] && decide (c.total < 2 ^ 64)) = true := by
    decide +kernel
  obtain ⟨d, hd, hsize⟩ := (Option.any_eq_true _ _).mp hstart
  obtain ⟨hsize, hrun⟩ := Bool.and_eq_true_iff.mp hsize
  obtain ⟨s, hs, hc⟩ := (Option.any_eq_true _ _).mp hrun
  obtain ⟨c, hc, hret⟩ := (Option.any_eq_true _ _).mp hc
  obtain ⟨hret, ht⟩ := Bool.and_eq_true_iff.mp hret
  obtain ⟨c', hc', hall⟩ := never_reset hd (Sys.Reach.init.run _ hs) (i := 2) (m := 1) rfl (by decide)
  obtain rfl : c = c' := Option.some.inj (hc.symm.trans hc')
  exact ⟨d, s, c, hd, of_decide_eq_true hsize, hs, hc, of_decide_eq_true hret,
    (hall (of_decide_eq_true ht)).1⟩

/-! ## The speeds -/

section

variable {s s' : Statistics} {i : Int32} {r : Report}

theorem StatAct.next_subtract {all : UInt64} (h : StatAct.next s (.subtract i all) = some s') :
    ⟨i, all⟩ ∈ s.loaded ∧ ∃ c, lookup s.speedDataVec i = some c ∧ s' = { s with
      loaded := s.loaded.erase ⟨i, all⟩
      subtracted := ⟨i, all, c.lastCounNum_⟩ :: s.subtracted } := by
  simp only [StatAct.next] at h
  split at h
  · rename_i hmem
    obtain ⟨c, hc, rfl⟩ := Option.map_eq_some_iff.mp h
    exact ⟨hmem, c, hc, rfl⟩
  · cases h

theorem StatAct.next_store (h : StatAct.next s (.store r) = some s') :
    r ∈ s.subtracted ∧ ∃ c, lookup s.speedDataVec r.index = some c ∧ s' = { s with
      speedDataVec := put s.speedDataVec r.index { c with lastCounNum_ := r.all }
      subtracted := s.subtracted.erase r
      returned := s.returned ++ [r] } := by
  simp only [StatAct.next] at h
  split at h
  · rename_i hmem
    obtain ⟨c, hc, rfl⟩ := Option.map_eq_some_iff.mp h
    exact ⟨hmem, c, hc, rfl⟩
  · cases h

/-- Each value of the counter up to `n` was part of a speed. -/
def Upto (returned : List Report) (i : Int32) (n : UInt64) : Prop :=
  ∀ v, 0 < v → v ≤ n → ∃ r ∈ returned, r.index = i ∧ r.last < v ∧ v ≤ r.all

theorem Upto.append {returned : List Report} {n : UInt64} (h : Upto returned i n) (r : Report) :
    Upto (returned ++ [r]) i n := by
  intro v hpos hle
  obtain ⟨r', hr', hrest⟩ := h v hpos hle
  exact ⟨r', List.mem_append_left _ hr', hrest⟩

/-- What a call stores is reported if what it has subtracted was. -/
theorem Upto.report {returned : List Report} (h : Upto returned r.index r.last) :
    Upto (returned ++ [r]) r.index r.all := by
  intro v hpos hle
  by_cases hlast : r.last < v
  · exact ⟨r, List.mem_append_right _ (List.mem_singleton.mpr rfl), rfl, hlast, hle⟩
  · exact h.append r v hpos (UInt64.not_lt.mp hlast)

/-- What was stored, subtracted or returned is reported. -/
structure Covered (s : Statistics) : Prop where
  stored : ∀ i c, lookup s.speedDataVec i = some c → Upto s.returned i c.lastCounNum_
  subtracted : ∀ r ∈ s.subtracted, Upto s.returned r.index r.last
  returned : ∀ r ∈ s.returned, Upto s.returned r.index r.all

theorem Covered.init {inits : List IndexInit} {d : DataStatistics} (hd : started inits = some d) :
    Covered (statSystem d).init where
  stored i c hc := by
    have hnew := hc.symm.trans (started_data hd)
    split at hnew
    · cases hnew
      exact fun v hpos hle => absurd hpos (UInt64.not_lt.mpr hle)
    · cases hnew
  subtracted _ hr := absurd hr List.not_mem_nil
  returned _ hr := absurd hr List.not_mem_nil

theorem Covered.next (hs : Covered s) {a : StatAct} (h : a.next s = some s') : Covered s' := by
  have hcontrol : ∀ j b, s.onControl j b = some s' → Covered s' := by
    intro j b hon
    obtain ⟨c, c', -, -, rfl⟩ := Statistics.onControl_cases hon
    exact ⟨hs.stored, hs.subtracted, hs.returned⟩
  cases a with
  | controlSpeedAdd j =>
    simp only [StatAct.next] at h
    split at h
    · exact hcontrol j _ h
    · cases h
      exact hs
  | compare j call => exact hcontrol j _ h
  | speedDataAdd j =>
    simp only [StatAct.next] at h
    split at h
    · cases h
      exact ⟨hs.stored, hs.subtracted, hs.returned⟩
    · rename_i c hc
      cases h
      refine ⟨fun i c' hc' => ?_, hs.subtracted, hs.returned⟩
      simp only [lookup_put_of_some hc] at hc'
      by_cases hij : i = j
      · subst hij
        rw [Function.update_self] at hc'
        cases hc'
        exact hs.stored i c hc
      · rw [Function.update_of_ne hij] at hc'
        exact hs.stored i c' hc'
  | currentSpeed j =>
    simp only [StatAct.next] at h
    split at h
    · cases h
      exact hs
    · cases h
      exact ⟨hs.stored, hs.subtracted, hs.returned⟩
  | subtract j all =>
    obtain ⟨-, c, hc, rfl⟩ := StatAct.next_subtract h
    refine ⟨hs.stored, fun r hr => ?_, hs.returned⟩
    rcases List.mem_cons.mp hr with rfl | hr
    · exact hs.stored j c hc
    · exact hs.subtracted r hr
  | store r =>
    obtain ⟨hmem, c, hc, rfl⟩ := StatAct.next_store h
    have hreport : Upto (s.returned ++ [r]) r.index r.all := (hs.subtracted r hmem).report
    refine ⟨fun i c' hc' => ?_, fun r' hr' => ?_, fun r' hr' => ?_⟩
    · simp only [lookup_put_of_some hc] at hc'
      by_cases hir : i = r.index
      · subst hir
        rw [Function.update_self] at hc'
        cases hc'
        exact hreport
      · rw [Function.update_of_ne hir] at hc'
        exact (hs.stored i c' hc').append r
    · exact (hs.subtracted r' (List.mem_of_mem_erase hr')).append r
    · rcases List.mem_append.mp hr' with hr' | hr'
      · exact (hs.returned r' hr').append r
      · obtain rfl := List.mem_singleton.mp hr'
        exact hreport

end

/-- However the calls interleave, nothing that `currentSpeed` has ever taken is lost: each value that the
counter had by then lies between what some call has subtracted and what it had taken. -/
theorem reports_cover {inits : List IndexInit} {d : DataStatistics} (hd : started inits = some d)
    {s : Statistics} (h : (statSystem d).Reach s) {r : Report} (hr : r ∈ s.returned) {v : UInt64}
    (hpos : 0 < v) (hle : v ≤ r.all) :
    ∃ r' ∈ s.returned, r'.index = r.index ∧ r'.last < v ∧ v ≤ r'.all := by
  have hs : Covered s := Sys.Reach.inv (Covered.init hd) (fun _ _ _ hi hs => hi.next hs) h
  exact hs.returned r hr v hpos hle

/-- Two calls overlap, and the later store is of the smaller count: the second call has added 3 once more
to what the first one had reported. -/
theorem reports_cover_overlap : ∃ d s, started [.data 0] = some d ∧
    (statSystem d).run (statSystem d).init
      (List.replicate 3 (.speedDataAdd 0) ++ [.currentSpeed 0, .subtract 0 3, .speedDataAdd 0,
        .currentSpeed 0, .subtract 0 4, .store ⟨0, 4, 0⟩, .store ⟨0, 3, 0⟩]) = some s ∧
    s.speeds 0 = [4, 3] ∧ ∃ r' ∈ s.returned, r'.index = 0 ∧ r'.last < 3 ∧ 3 ≤ r'.all := by
  have hstart : ((started [.data 0]).any fun d => ((statSystem d).run (statSystem d).init
      (List.replicate 3 (.speedDataAdd 0) ++ [.currentSpeed 0, .subtract 0 3, .speedDataAdd 0,
        .currentSpeed 0, .subtract 0 4, .store ⟨0, 4, 0⟩, .store ⟨0, 3, 0⟩])).any fun s =>
          decide (s.speeds 0 = [4, 3]) && decide (⟨0, 4, 0⟩ ∈ s.returned)) = true := by
    decide +kernel
  obtain ⟨d, hd, hrun⟩ := (Option.any_eq_true _ _).mp hstart
  obtain ⟨s, hs, hspeeds⟩ := (Option.any_eq_true _ _).mp hrun
  obtain ⟨hspeeds, hmem⟩ := Bool.and_eq_true_iff.mp hspeeds
  exact ⟨d, s, hd, hs, of_decide_eq_true hspeeds,
    reports_cover hd (Sys.Reach.init.run _ hs) (of_decide_eq_true hmem) (by decide) (by decide)⟩

/-! ## Calls that do not overlap -/

/-- The condition on a step: a call of `currentSpeed` begins when no other one of its index is on its way. -/
def Alone (s : Statistics) : StatAct → Prop
  | .currentSpeed i => s.underWay i = 0
  | .controlSpeedAdd _ | .compare _ _ | .speedDataAdd _ | .subtract _ _ | .store _ => True

instance (s : Statistics) : (a : StatAct) → Decidable (Alone s a)
  | .currentSpeed i => inferInstanceAs (Decidable (s.underWay i = 0))
  | .controlSpeedAdd _ | .compare _ _ | .speedDataAdd _ | .subtract _ _ | .store _ =>
    inferInstanceAs (Decidable True)

/-- The speed is the difference of the counts, up to the width of an `int`. -/
theorem speed_modEq (r : Report) : r.speed ≡ r.all.toNat - r.last.toNat [ZMOD 2 ^ 32] := by
  have hlast := r.last.toNat_lt
  have hspeed : r.speed % 2 ^ 32 = ((r.all - r.last).toNat : Int) % 2 ^ 32 := Int.bmod_emod
  rw [Int.ModEq, hspeed, UInt64.toNat_sub]
  omega

/-- What a returned call adds to a sum of its index. -/
theorem sum_filter_append (f : Report → Int) (returned : List Report) (r : Report) (i : Int32) :
    (((returned ++ [r]).filter (·.index = i)).map f).sum =
      ((returned.filter (·.index = i)).map f).sum + if r.index = i then f r else 0 := by
  rw [List.filter_append, List.map_append, List.sum_append]
  by_cases h : r.index = i <;> simp [h]

/-- What the calls that do not overlap keep: the stored count is the sum of the speeds, and nobody stores
between a subtraction and its store. -/
structure AddUp (inits : List IndexInit) (s : Statistics) : Prop where
  known : ∀ i, .data i ∈ inits → (lookup s.speedDataVec i).isSome
  sum : ∀ i c, lookup s.speedDataVec i = some c →
    (s.speeds i).sum ≡ c.lastCounNum_.toNat [ZMOD 2 ^ 32]
  count : ∀ i c, lookup s.speedDataVec i = some c → c.allCountNum_ = .ofNat (s.added.count i)
  alone : ∀ i, s.underWay i ≤ 1
  subtracted : ∀ r ∈ s.subtracted, ∀ c, lookup s.speedDataVec r.index = some c →
    c.lastCounNum_ = r.last

section

variable {inits : List IndexInit} {s s' : Statistics} {i : Int32}

theorem AddUp.init {d : DataStatistics} (hd : started inits = some d) :
    AddUp inits (statSystem d).init := by
  have hnew : ∀ i c, lookup d.speedDataVec i = some c → c = ⟨0, 0⟩ := by
    intro i c hc
    have := hc.symm.trans (started_data hd)
    split at this
    · exact Option.some.inj this
    · cases this
  refine ⟨fun i hi => ?_, fun i c hc => ?_, fun i c hc => ?_, fun i => Nat.zero_le 1, nofun⟩
  · change (lookup d.speedDataVec i).isSome
    rw [started_data hd, if_pos hi]
    rfl
  · obtain rfl := hnew i c hc
    rfl
  · obtain rfl := hnew i c hc
    rfl

/-- A step that replaces the counter of an index `j`, which had one. -/
theorem isSome_put {vec : List (Option SpeedData)} {j : Int32} {c : SpeedData}
    (hc : lookup vec j = some c) (c' : SpeedData) (h : (lookup vec i).isSome) :
    (lookup (put vec j c') i).isSome := by
  rw [lookup_put_of_some hc]
  by_cases hij : i = j
  · rw [hij, Function.update_self]
    rfl
  · rwa [Function.update_of_ne hij]

theorem AddUp.add (hs : AddUp inits s) {j : Int32} (h : StatAct.next s (.speedDataAdd j) = some s') :
    AddUp inits s' := by
  simp only [StatAct.next] at h
  split at h
  · rename_i hnone
    cases h
    refine ⟨hs.known, hs.sum, fun i c hc => ?_, hs.alone, hs.subtracted⟩
    have hne : ¬ j = i := by
      rintro rfl
      rw [hnone] at hc
      cases hc
    rw [hs.count i c hc, List.count_append, List.count_singleton]
    simp [hne]
  · rename_i c hc
    cases h
    refine ⟨fun i hi => isSome_put hc _ (hs.known i hi), fun i c' hc' => ?_, fun i c' hc' => ?_, hs.alone,
      fun r hr c' hc' => ?_⟩
    · simp only [lookup_put_of_some hc] at hc'
      by_cases hij : i = j
      · subst hij
        rw [Function.update_self] at hc'
        cases hc'
        exact hs.sum i c hc
      · rw [Function.update_of_ne hij] at hc'
        exact hs.sum i c' hc'
    · simp only [lookup_put_of_some hc] at hc'
      by_cases hij : i = j
      · subst hij
        rw [Function.update_self] at hc'
        cases hc'
        rw [List.count_append, List.count_singleton_self, UInt64.ofNat_add, ← hs.count i c hc]
        rfl
      · rw [Function.update_of_ne hij] at hc'
        rw [hs.count i c' hc', List.count_append, List.count_singleton]
        simp [Ne.symm hij]
    · simp only [lookup_put_of_some hc] at hc'
      by_cases hij : r.index = j
      · rw [hij, Function.update_self] at hc'
        cases hc'
        exact hs.subtracted r hr c (by rwa [hij])
      · rw [Function.update_of_ne hij] at hc'
        exact hs.subtracted r hr c' hc'

theorem AddUp.currentSpeed (hs : AddUp inits s) {j : Int32} (ha : s.underWay j = 0)
    (h : StatAct.next s (.currentSpeed j) = some s') : AddUp inits s' := by
  simp only [StatAct.next] at h
  split at h
  · cases h
    exact hs
  · rename_i c hc
    cases h
    refine ⟨hs.known, hs.sum, hs.count, fun i => ?_, hs.subtracted⟩
    have halone := hs.alone i
    simp only [Statistics.underWay, List.countP_cons] at ha halone ⊢
    by_cases hij : j = i
    · subst hij
      simp only [decide_true, if_true]
      omega
    · simp only [hij, decide_false, Bool.false_eq_true, if_false]
      omega

theorem AddUp.subtract (hs : AddUp inits s) {j : Int32} {all : UInt64}
    (h : StatAct.next s (.subtract j all) = some s') : AddUp inits s' := by
  obtain ⟨hmem, c, hc, rfl⟩ := StatAct.next_subtract h
  refine ⟨hs.known, hs.sum, hs.count, fun i => ?_, fun r hr c' hc' => ?_⟩
  · -- the call is counted in the other list
    have halone := hs.alone i
    have herase := countP_erase_add hmem fun e => decide (e.index = i)
    simp only [Statistics.underWay, List.countP_cons] at halone herase ⊢
    omega
  · rcases List.mem_cons.mp hr with rfl | hr
    · rw [Option.some.inj (hc'.symm.trans hc)]
    · exact hs.subtracted r hr c' hc'

/-- No two calls of one index have subtracted. -/
theorem AddUp.index_ne (hs : AddUp inits s) {r r' : Report} (hr : r ∈ s.subtracted)
    (hr' : r' ∈ s.subtracted.erase r) : r'.index ≠ r.index := by
  intro hsame
  have halone := hs.alone r.index
  have herase := countP_erase_add hr fun e => decide (e.index = r.index)
  have hpos : 0 < (s.subtracted.erase r).countP fun e => decide (e.index = r.index) :=
    List.countP_pos_iff.mpr ⟨r', hr', decide_eq_true hsame⟩
  simp only [Statistics.underWay, decide_true, if_true] at halone herase
  omega

/-- What a store adds to the sum of its index. -/
theorem AddUp.sum_store (hs : AddUp inits s) {r : Report} (hr : r ∈ s.subtracted) {c : SpeedData}
    (hc : lookup s.speedDataVec r.index = some c) :
    (s.speeds r.index).sum + r.speed ≡ r.all.toNat [ZMOD 2 ^ 32] := by
  have hspeed : r.speed ≡ r.all.toNat - c.lastCounNum_.toNat [ZMOD 2 ^ 32] := by
    rw [hs.subtracted r hr c hc]
    exact speed_modEq r
  calc (s.speeds r.index).sum + r.speed
      ≡ c.lastCounNum_.toNat + (r.all.toNat - c.lastCounNum_.toNat) [ZMOD 2 ^ 32] :=
        (hs.sum r.index c hc).add hspeed
    _ = r.all.toNat := by omega

theorem AddUp.store (hs : AddUp inits s) {r : Report} (h : StatAct.next s (.store r) = some s') :
    AddUp inits s' := by
  obtain ⟨hmem, c, hc, rfl⟩ := StatAct.next_store h
  refine ⟨fun i hi => isSome_put hc _ (hs.known i hi), fun i c' hc' => ?_, fun i c' hc' => ?_, fun i => ?_,
    fun r' hr' c' hc' => ?_⟩
  · simp only [lookup_put_of_some hc] at hc'
    by_cases hir : i = r.index
    · subst hir
      rw [Function.update_self] at hc'
      cases hc'
      rw [Statistics.speeds, sum_filter_append, if_pos rfl]
      exact hs.sum_store hmem hc
    · rw [Function.update_of_ne hir] at hc'
      rw [Statistics.speeds, sum_filter_append, if_neg (Ne.symm hir), add_zero]
      exact hs.sum i c' hc'
  · simp only [lookup_put_of_some hc] at hc'
    by_cases hir : i = r.index
    · subst hir
      rw [Function.update_self] at hc'
      cases hc'
      exact hs.count r.index c hc
    · rw [Function.update_of_ne hir] at hc'
      exact hs.count i c' hc'
  · have halone := hs.alone i
    have herase := countP_erase_add hmem fun e => decide (e.index = i)
    simp only [Statistics.underWay] at halone ⊢
    omega
  · have hne := hs.index_ne hmem hr'
    simp only [lookup_put_of_some hc, Function.update_of_ne hne] at hc'
    exact hs.subtracted r' (List.mem_of_mem_erase hr') c' hc'

theorem AddUp.next (hs : AddUp inits s) {a : StatAct} (ha : Alone s a) (h : a.next s = some s') :
    AddUp inits s' := by
  have hcontrol : ∀ j b, s.onControl j b = some s' → AddUp inits s' := by
    intro j b hon
    obtain ⟨c, c', -, -, rfl⟩ := Statistics.onControl_cases hon
    exact ⟨hs.known, hs.sum, hs.count, hs.alone, hs.subtracted⟩
  cases a with
  | controlSpeedAdd j =>
    simp only [StatAct.next] at h
    split at h
    · exact hcontrol j _ h
    · cases h
      exact hs
  | compare j call => exact hcontrol j _ h
  | speedDataAdd j => exact hs.add h
  | currentSpeed j => exact hs.currentSpeed ha h
  | subtract j all => exact hs.subtract h
  | store r => exact hs.store h

end

/-- If the calls of `currentSpeed` at an index do not overlap, the speeds they return and what they have
not taken yet add up to the calls of `speedDataAdd`, up to the width of an `int`. -/
theorem reports_add_up {inits : List IndexInit} {d : DataStatistics} (hd : started inits = some d)
    {s : Statistics} (h : ((statSystem d).only Alone).Reach s) {i : Int32} (hi : .data i ∈ inits) :
    ∃ c, lookup s.speedDataVec i = some c ∧
      (s.speeds i).sum + (c.allCountNum_ - c.lastCounNum_).toNat ≡ s.added.count i [ZMOD 2 ^ 32] := by
  have hs : AddUp inits s := Sys.Reach.inv_only (AddUp.init hd) (fun _ _ _ hi ha hs => hi.next ha hs) h
  obtain ⟨c, hc⟩ := Option.isSome_iff_exists.mp (hs.known i hi)
  refine ⟨c, hc, ?_⟩
  have hrest : ((c.allCountNum_ - c.lastCounNum_).toNat : Int) ≡
      c.allCountNum_.toNat - c.lastCounNum_.toNat [ZMOD 2 ^ 32] := by
    have hlast := c.lastCounNum_.toNat_lt
    rw [Int.ModEq, UInt64.toNat_sub]
    omega
  have hcount : (c.allCountNum_.toNat : Int) ≡ s.added.count i [ZMOD 2 ^ 32] := by
    rw [hs.count i c hc, UInt64.toNat_ofNat', Int.ModEq]
    omega
  calc (s.speeds i).sum + ((c.allCountNum_ - c.lastCounNum_).toNat : Int)
      ≡ c.lastCounNum_.toNat + (c.allCountNum_.toNat - c.lastCounNum_.toNat) [ZMOD 2 ^ 32] :=
        (hs.sum i c hc).add hrest
    _ = c.allCountNum_.toNat := by omega
    _ ≡ s.added.count i [ZMOD 2 ^ 32] := hcount

/-- Two reports of one index, with a call of another one between their steps. -/
theorem reports_add_up_two : ∃ d s c, started [.data 0, .data 1] = some d ∧
    ((statSystem d).only Alone).run ((statSystem d).only Alone).init
      [.speedDataAdd 0, .speedDataAdd 0, .currentSpeed 0, .currentSpeed 1, .speedDataAdd 0, .subtract 0 2,
        .store ⟨0, 2, 0⟩, .currentSpeed 0, .subtract 0 3, .store ⟨0, 3, 2⟩, .speedDataAdd 0] = some s ∧
    s.speeds 0 = [2, 1] ∧ lookup s.speedDataVec 0 = some c ∧
    (s.speeds 0).sum + (c.allCountNum_ - c.lastCounNum_).toNat ≡ s.added.count 0 [ZMOD 2 ^ 32] := by
  have hstart : ((started [.data 0, .data 1]).any fun d => (((statSystem d).only Alone).run
      ((statSystem d).only Alone).init
      [.speedDataAdd 0, .speedDataAdd 0, .currentSpeed 0, .currentSpeed 1, .speedDataAdd 0, .subtract 0 2,
        .store ⟨0, 2, 0⟩, .currentSpeed 0, .subtract 0 3, .store ⟨0, 3, 2⟩, .speedDataAdd 0]).any fun s =>
          decide (s.speeds 0 = [2, 1])) = true := by
    decide +kernel
  obtain ⟨d, hd, hrun⟩ := (Option.any_eq_true _ _).mp hstart
  obtain ⟨s, hs, hspeeds⟩ := (Option.any_eq_true _ _).mp hrun
  obtain ⟨c, hc, hsum⟩ := reports_add_up hd (Sys.Reach.init.run _ hs) (i := 0) (by decide)
  exact ⟨d, s, c, hd, hs, of_decide_eq_true hspeeds, hc, hsum⟩

end SpeedControl
end CmakeFrame
