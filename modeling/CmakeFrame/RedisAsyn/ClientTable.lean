import CmakeFrame.RedisAsyn.LibeventIo

/-!
# `ioRedisClients_` of `redisAsyn/v1.0/src/LibeventIo.cpp`: which client is in which slot

`LibeventIo` has the table of a loop with a single client. Here the clients are any, and the removal
is the loop of the source: its argument is a client, or a reference to a slot of the very table
that it changes.

* `ioDisRedisClient`: the removal; `count_ioDisLoop_slot` is what a reference makes of it.
* `clientTable`: the table under any calls, with the clients that were added and not removed.
* `clientTable_once`: each client is there once, just as long as no client is added to a table with
  an empty slot.
-/

namespace CmakeFrame
namespace RedisAsyn

open Lib

variable {ι : Type} [DecidableEq ι]

/-! ## Removal -/

/-- The argument of `ioDisRedisClient`: a client of the caller, or `ioRedisClients_[i]`. -/
inductive CliRef (ι : Type) where
  | cli (c : ι)
  | slot (i : Nat)
  deriving DecidableEq, Repr

/-- The loop of `ioDisRedisClient` from slot `i` on. `cli` is what the argument holds; if it is the
slot `ref`, it is null as soon as that slot is reset. -/
def ioDisLoop (ref : Option Nat) : Option ι → Nat → List (Option ι) → List (Option ι)
  | _, _, [] => []
  | cli, i, slot :: slots =>
    if slot = cli then none :: ioDisLoop ref (if ref = some i then none else cli) (i + 1) slots
    else slot :: ioDisLoop ref cli (i + 1) slots

/-- The client that the argument holds when the call begins; `none` if there is no such slot. -/
def CliRef.get (ioRedisClients_ : List (Option ι)) : CliRef ι → Option (Option ι)
  | .cli c => some (some c)
  | .slot i => ioRedisClients_[i]?

def CliRef.pos : CliRef ι → Option Nat
  | .cli _ => none
  | .slot i => some i

/-- `ioDisRedisClient(cli)`. -/
def ioDisRedisClient (ref : CliRef ι) (ioRedisClients_ : List (Option ι)) :
    Option (List (Option ι)) :=
  (ref.get ioRedisClients_).map fun cli => ioDisLoop ref.pos cli 0 ioRedisClients_

/-- Other clients stay where they are. -/
theorem count_ioDisLoop_ne (ref : Option Nat) {c : ι} {cli : Option ι} (h : some c ≠ cli) (i : Nat)
    (slots : List (Option ι)) :
    (ioDisLoop ref cli i slots).count (some c) = slots.count (some c) := by
  induction slots generalizing cli i with
  | nil => rfl
  | cons slot slots ih =>
    unfold ioDisLoop
    split
    · rename_i hs
      have hne : some c ≠ if ref = some i then none else cli := by
        split
        · exact Option.some_ne_none c
        · exact h
      rw [List.count_cons_of_ne (Option.some_ne_none c).symm, ih hne,
        List.count_cons_of_ne (by rw [hs]; exact h.symm)]
    · rw [List.count_cons, List.count_cons, ih h]

/-- A client of the caller is removed from every slot. -/
theorem count_ioDisLoop_cli (c : ι) (i : Nat) (slots : List (Option ι)) :
    (ioDisLoop none (some c) i slots).count (some c) = 0 := by
  induction slots generalizing i with
  | nil => rfl
  | cons slot slots ih =>
    unfold ioDisLoop
    split
    · rw [List.count_cons_of_ne (Option.some_ne_none c).symm]
      exact ih (i + 1)
    · rename_i hs
      rw [List.count_cons_of_ne hs]
      exact ih (i + 1)

/-- A reference to the slot at `k` removes its client up to there; the slots behind it are
compared with null. -/
theorem count_ioDisLoop_slot {c : ι} {k : Nat} (i : Nat) {slots : List (Option ι)}
    (h : slots[k]? = some (some c)) :
    (ioDisLoop (some (i + k)) (some c) i slots).count (some c) =
      (slots.drop (k + 1)).count (some c) := by
  induction slots generalizing i k with
  | nil => cases h
  | cons slot slots ih =>
    unfold ioDisLoop
    cases k with
    | zero =>
      rw [List.getElem?_cons_zero, Option.some_inj] at h
      rw [if_pos h, Nat.add_zero, if_pos rfl, List.count_cons_of_ne (Option.some_ne_none c).symm,
        count_ioDisLoop_ne _ (Option.some_ne_none c)]
      rfl
    | succ k =>
      rw [List.getElem?_cons_succ] at h
      have hih := ih (i + 1) h
      rw [show i + 1 + k = i + (k + 1) from by omega] at hih
      split
      · rw [if_neg (by simp), List.count_cons_of_ne (Option.some_ne_none c).symm, hih]
        rfl
      · rename_i hs
        rw [List.count_cons_of_ne hs, hih]
        rfl

/-! ## Adding -/

/-- The client gets every empty slot. -/
theorem count_fill (c d : ι) (slots : List (Option ι)) :
    (slots.map fun slot => some (slot.getD c)).count (some d) =
      slots.count (some d) + if d = c then slots.count none else 0 := by
  induction slots with
  | nil => simp
  | cons slot slots ih =>
    cases slot with
    | none =>
      simp only [List.map_cons, Option.getD_none, List.count_cons, ih, beq_iff_eq, Option.some_inj]
      grind
    | some e =>
      simp only [List.map_cons, Option.getD_some, List.count_cons, ih, beq_iff_eq]
      grind

/-- A client that was not there gets the empty slots and a new one. -/
theorem count_ioAddRedisClient {c : ι} {slots : List (Option ι)} (h : some c ∉ slots) (d : ι) :
    (ioAddRedisClient c slots).count (some d) =
      slots.count (some d) + if d = c then slots.count none + 1 else 0 := by
  rw [ioAddRedisClient, if_neg h, List.count_append, count_fill]
  split
  · rename_i hd
    rw [hd, List.count_singleton_self]
    omega
  · rename_i hd
    have hlast : [some c].count (some d) = 0 := List.count_eq_zero.mpr (by simpa using hd)
    rw [hlast]

theorem length_ioAddRedisClient {c : ι} {slots : List (Option ι)} (h : some c ∉ slots) :
    (ioAddRedisClient c slots).length = slots.length + 1 := by
  simp [ioAddRedisClient, h]

/-! ## Any calls -/

/-- The table; as history, which clients were added and not removed since, and whether a call of
`ioAddRedisClient` made the vector longer although it had an empty slot. -/
structure TableState (ι : Type) where
  ioRedisClients_ : List (Option ι)
  live : ι → Bool
  wasteful : Bool

inductive TableAct (ι : Type) where
  | ioAddRedisClient (c : ι)
  | ioDisRedisClient (ref : CliRef ι)
  deriving DecidableEq, Repr

namespace TableState

/-- The client that a removal is about, if there is one. -/
def removed (s : TableState ι) (ref : CliRef ι) : Option ι := (ref.get s.ioRedisClients_).join

def next (s : TableState ι) : TableAct ι → Option (TableState ι)
  | .ioAddRedisClient c =>
    let slots := ioAddRedisClient c s.ioRedisClients_
    some
      { ioRedisClients_ := slots
        live := Function.update s.live c true
        wasteful := s.wasteful ||
          (decide (s.ioRedisClients_.length < slots.length) && s.ioRedisClients_.contains none) }
  | .ioDisRedisClient ref =>
    (ioDisRedisClient ref s.ioRedisClients_).map fun slots =>
      { s with
        ioRedisClients_ := slots
        live := fun c => s.live c && !decide (s.removed ref = some c) }

/-- What the table promises: a client that was added and not removed is in one slot, any other in
none, and the vector grew for want of an empty slot only. -/
structure Once (s : TableState ι) : Prop where
  count : ∀ c, s.ioRedisClients_.count (some c) = if s.live c then 1 else 0
  frugal : s.wasteful = false

/-- A client that is not in the table yet is added to one without an empty slot. -/
def AddsToFull (s : TableState ι) : TableAct ι → Prop
  | .ioAddRedisClient c => some c ∈ s.ioRedisClients_ ∨ none ∉ s.ioRedisClients_
  | .ioDisRedisClient _ => True

instance (s : TableState ι) (a : TableAct ι) : Decidable (s.AddsToFull a) :=
  match a with
  | .ioAddRedisClient _ => inferInstanceAs (Decidable (_ ∨ _))
  | .ioDisRedisClient _ => inferInstanceAs (Decidable True)

end TableState

/-- The table of a new loop, under any calls. -/
def clientTable (ι : Type) [DecidableEq ι] : Sys (TableState ι) (TableAct ι) where
  init := ⟨[], fun _ => false, false⟩
  next := TableState.next

namespace TableState

theorem Once.live_of_mem {s : TableState ι} (h : s.Once) {c : ι}
    (hm : some c ∈ s.ioRedisClients_) : s.live c = true := by
  have hpos := List.count_pos_iff.mpr hm
  rw [h.count c] at hpos
  by_contra hl
  rw [if_neg hl] at hpos
  exact Nat.lt_irrefl 0 hpos

/-- Adding keeps the promise if the client is there already or no slot is empty. -/
theorem Once.add {s s' : TableState ι} (h : s.Once) {c : ι}
    (hc : s.AddsToFull (.ioAddRedisClient c)) (hs : s.next (.ioAddRedisClient c) = some s') :
    s'.Once := by
  cases hs
  by_cases hm : some c ∈ s.ioRedisClients_
  · have hsame : ioAddRedisClient c s.ioRedisClients_ = s.ioRedisClients_ := if_pos hm
    have hlive : Function.update s.live c true = s.live :=
      Function.update_eq_self_iff.mpr (h.live_of_mem hm).symm
    exact ⟨by simpa [hsame, hlive] using h.count, by simp [hsame, h.frugal]⟩
  · have hfull : none ∉ s.ioRedisClients_ := hc.resolve_left hm
    refine ⟨fun d => ?_, by simp [h.frugal, hfull]⟩
    have hnone : s.ioRedisClients_.count none = 0 := List.count_eq_zero.mpr hfull
    show (ioAddRedisClient c s.ioRedisClients_).count (some d) = _
    rw [count_ioAddRedisClient hm, hnone]
    by_cases hd : d = c
    · subst hd
      simp [List.count_eq_zero.mpr hm]
    · simp [hd, h.count d]

/-- Adding breaks the promise if the client is new and there is an empty slot. -/
theorem not_once_add {s s' : TableState ι} {c : ι} (hc : ¬ s.AddsToFull (.ioAddRedisClient c))
    (hs : s.next (.ioAddRedisClient c) = some s') : ¬ s'.Once := by
  obtain ⟨hm, hnone⟩ := not_or.mp hc
  cases hs
  intro h
  have hlen := length_ioAddRedisClient hm
  have hf := h.frugal
  simp [hlen, not_not.mp hnone] at hf

/-- Removal keeps the promise, by reference too: there is no second slot behind it. -/
theorem Once.dis {s s' : TableState ι} (h : s.Once) {ref : CliRef ι}
    (hs : s.next (.ioDisRedisClient ref) = some s') : s'.Once := by
  obtain ⟨slots, hslots, rfl⟩ := Option.map_eq_some_iff.mp hs
  obtain ⟨cli, hget, rfl⟩ := Option.map_eq_some_iff.mp hslots
  refine ⟨fun c => ?_, h.frugal⟩
  have hrem : s.removed ref = cli := by rw [removed, hget]; rfl
  simp only [hrem]
  by_cases hc : cli = some c
  · subst hc
    suffices (ioDisLoop ref.pos (some c) 0 s.ioRedisClients_).count (some c) = 0 by simpa
    cases ref with
    | cli d => exact count_ioDisLoop_cli c 0 _
    | slot i =>
      have hgone := count_ioDisLoop_slot 0 hget
      rw [Nat.zero_add] at hgone
      rw [show (CliRef.slot i : CliRef ι).pos = some i from rfl, hgone]
      have hsplit := congrArg (List.count (some c)) (List.take_append_drop (i + 1) s.ioRedisClients_)
      have htake : 0 < (s.ioRedisClients_.take (i + 1)).count (some c) := by
        refine List.count_pos_iff.mpr (List.mem_of_getElem? (i := i) ?_)
        rw [List.getElem?_take_of_lt (Nat.lt_succ_self i)]
        exact hget
      have hle : s.ioRedisClients_.count (some c) ≤ 1 := by
        rw [h.count c]
        split <;> omega
      rw [List.count_append] at hsplit
      omega
  · rw [count_ioDisLoop_ne _ (Ne.symm hc), h.count c]
    simp [hc]

end TableState

/-- As long as every new client is added to a table without an empty slot, each call leaves each
client once in the table from when it is added until it is removed; the first call that adds one
to a table with an empty slot does not. -/
theorem clientTable_once :
    (∀ s, ((clientTable ι).only TableState.AddsToFull).Reach s → s.Once) ∧
    ∀ s a s', (clientTable ι).Reach s → ¬ s.AddsToFull a → (clientTable ι).next s a = some s' →
      ¬ s'.Once := by
  refine ⟨fun s h => ?_, fun s a s' _ hc hs => ?_⟩
  · refine h.inv_only ⟨fun c => rfl, rfl⟩ fun s a s' hi hc hs => ?_
    cases a with
    | ioAddRedisClient c => exact hi.add hc hs
    | ioDisRedisClient ref => exact hi.dis hs
  · cases a with
    | ioAddRedisClient c => exact TableState.not_once_add hc hs
    | ioDisRedisClient ref => exact absurd trivial hc

/-- A client is added and removed, and another one added: it is there twice. -/
theorem clientTable_twice :
    ¬ ∀ s : TableState Nat, (clientTable Nat).Reach s → s.Once := by
  intro h
  obtain ⟨s, hs⟩ : ∃ s, (clientTable Nat).run (clientTable Nat).init
      [.ioAddRedisClient 1, .ioDisRedisClient (.slot 0), .ioAddRedisClient 2] = some s := ⟨_, rfl⟩
  have hc := (h s (Sys.Reach.init.run _ hs)).count 2
  cases hs
  exact absurd hc (by decide)

end RedisAsyn
end CmakeFrame
