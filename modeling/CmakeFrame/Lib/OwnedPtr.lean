import Mathlib.Data.List.Nodup
import Mathlib.Data.List.Range
import Mathlib.Data.List.Perm.Basic

/-!
# Pointers that own what they point to

A member of a class points to an object that it has created, or is null; whoever frees the object
sets the member to null. The objects are numbered as they are created.

* `OwnedPtr`: the member with its history. An object is freed at most once, and what the pointer
  points to is not freed, for the value to be built at all.
* `create`, `free`, `release`, `deref`: what a program does with the member; `free` and `deref` are a
  misuse of a null pointer, and `create` forgets what the pointer pointed to.
* `Accounted`: no misuse, and each object is freed or pointed to; `accounted_create`,
  `accounted_free`, `accounted_release`, `accounted_deref`: what each of them keeps of it, exactly.
-/

namespace CmakeFrame
namespace Lib

/-- A pointer, how many objects it was given, which of them are freed, and whether it was used while
it was null. -/
structure OwnedPtr where
  ptr : Option Nat
  made : Nat
  freed : List Nat
  misused : Bool
  nodup : (ptr.toList ++ freed).Nodup
  lt : ∀ q ∈ ptr.toList ++ freed, q < made

namespace OwnedPtr

/-- Null, and nothing created yet. -/
def null : OwnedPtr where
  ptr := none
  made := 0
  freed := []
  misused := false
  nodup := List.nodup_nil
  lt := by simp

variable {o : OwnedPtr} {ok : Bool}

theorem freed_nodup (o : OwnedPtr) : o.freed.Nodup := (List.nodup_append.mp o.nodup).2.1

theorem freed_lt (o : OwnedPtr) {q : Nat} (h : q ∈ o.freed) : q < o.made :=
  o.lt q (List.mem_append_right _ h)

/-- The pointer is set to a new object, or to null if there is none. -/
def create (o : OwnedPtr) (ok : Bool) : OwnedPtr :=
  if ok then
    { ptr := some o.made
      made := o.made + 1
      freed := o.freed
      misused := o.misused
      nodup := List.nodup_cons.mpr ⟨fun h => Nat.lt_irrefl _ (o.freed_lt h), o.freed_nodup⟩
      lt := fun q hq => by
        rcases List.mem_cons.mp hq with rfl | hq
        · exact Nat.lt_succ_self _
        · exact Nat.lt_succ_of_lt (o.freed_lt hq) }
  else
    { ptr := none
      made := o.made
      freed := o.freed
      misused := o.misused
      nodup := o.freed_nodup
      lt := fun _ hq => o.freed_lt hq }

/-- The object is freed and the pointer set to null. -/
def free (o : OwnedPtr) : OwnedPtr where
  ptr := none
  made := o.made
  freed := o.ptr.toList ++ o.freed
  misused := o.misused || o.ptr.isNone
  nodup := o.nodup
  lt := o.lt

/-- `if(p) { free(p); p = nullptr; }` -/
def release (o : OwnedPtr) : OwnedPtr := if o.ptr.isSome then o.free else o

/-- The object is used. -/
def deref (o : OwnedPtr) : OwnedPtr := { o with misused := o.misused || o.ptr.isNone }

@[simp] theorem ptr_null : null.ptr = none := rfl

@[simp] theorem isSome_create : (o.create ok).ptr.isSome = ok := by
  unfold create
  cases ok <;> rfl

@[simp] theorem ptr_free : o.free.ptr = none := rfl

@[simp] theorem ptr_release : o.release.ptr = none := by
  unfold release
  split
  · rfl
  · rename_i h
    exact Option.not_isSome_iff_eq_none.mp h

@[simp] theorem ptr_deref : o.deref.ptr = o.ptr := rfl

/-- Never used while null, and each object is freed or pointed to. -/
structure Accounted (o : OwnedPtr) : Prop where
  used : o.misused = false
  all : ∀ q < o.made, q ∈ o.ptr.toList ++ o.freed

theorem subperm_range (o : OwnedPtr) : List.Subperm (o.ptr.toList ++ o.freed) (List.range o.made) :=
  List.subperm_of_subset o.nodup fun q hq => List.mem_range.mpr (o.lt q hq)

/-- Each object is accounted for exactly when as many are as there were. -/
theorem accounted_iff :
    o.Accounted ↔ o.misused = false ∧ o.ptr.toList.length + o.freed.length = o.made := by
  rw [← List.length_append]
  constructor
  · rintro ⟨hused, hall⟩
    have hle := o.subperm_range.length_le
    have hge : (List.range o.made).length ≤ (o.ptr.toList ++ o.freed).length :=
      (List.subperm_of_subset List.nodup_range fun q hq => hall q (List.mem_range.mp hq)).length_le
    rw [List.length_range] at hle hge
    exact ⟨hused, Nat.le_antisymm hle hge⟩
  · rintro ⟨hused, hlen⟩
    have hperm : List.Perm (o.ptr.toList ++ o.freed) (List.range o.made) :=
      o.subperm_range.perm_of_length_le (by rw [List.length_range, hlen])
    exact ⟨hused, fun q hq => hperm.mem_iff.mpr (List.mem_range.mpr hq)⟩

theorem accounted_null : null.Accounted := ⟨rfl, fun q hq => absurd hq (Nat.not_lt_zero q)⟩

theorem accounted_create : (o.create ok).Accounted ↔ o.ptr = none ∧ o.Accounted := by
  have hle := o.subperm_range.length_le
  rw [List.length_append, List.length_range] at hle
  rw [accounted_iff, accounted_iff]
  cases hp : o.ptr with
  | none =>
    cases ok with
    | true => simp [create]; omega
    | false => simp [create]
  | some p =>
    rw [hp] at hle
    cases ok with
    | true => simp [create] at hle ⊢; omega
    | false => simp [create] at hle ⊢; omega

theorem accounted_free : o.free.Accounted ↔ o.ptr ≠ none ∧ o.Accounted := by
  rw [accounted_iff, accounted_iff]
  cases hp : o.ptr with
  | none => simp [free, hp]
  | some p => simp [free, hp, Nat.add_comm 1]

theorem accounted_deref : o.deref.Accounted ↔ o.ptr ≠ none ∧ o.Accounted := by
  rw [accounted_iff, accounted_iff]
  cases hp : o.ptr with
  | none => simp [deref, hp]
  | some p => simp [deref, hp]

theorem accounted_release : o.release.Accounted ↔ o.Accounted := by
  unfold release
  split
  · rename_i h
    rw [accounted_free, and_iff_right (Option.isSome_iff_ne_none.mp h)]
  · rfl

/-- A null pointer whose objects are all accounted for: each is freed. -/
theorem Accounted.all_freed (h : o.Accounted) (hp : o.ptr = none) : ∀ q < o.made, q ∈ o.freed := by
  intro q hq
  have := h.all q hq
  rwa [hp] at this

end OwnedPtr

end Lib
end CmakeFrame
