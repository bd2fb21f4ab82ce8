import CmakeFrame.Lib.Decimal
import Mathlib.Logic.Function.Basic

/-!
# A directory, and items that move from name to name

A directory maps file names to contents; `Dir.rename` and `Dir.remove` are the calls of POSIX.

Many programs pass files on by renaming them: the name tells who works on the file. `Stores` says
that a directory is nothing but such items, each under the name of the place where it is
(`nameOf`). Where a name tells the item (`NamesItem`), a rename moves one item to another place
(`Stores.rename`), a remove takes one out (`Stores.remove`), and neither touches the others.
-/

namespace CmakeFrame
namespace Lib

/-- The files of a directory. -/
abbrev Dir (ν : Type) := ν → Option Bytes

namespace Dir

variable {ν : Type} [DecidableEq ν]

/-- `rename(a, b)`: fails if there is no `a`; a file `b` is replaced. -/
def rename (d : Dir ν) (a b : ν) : Bool × Dir ν :=
  match d a with
  | none => (false, d)
  | some c => (true, Function.update (Function.update d a none) b (some c))

/-- `remove(a)`. -/
def remove (d : Dir ν) (a : ν) : Dir ν := Function.update d a none

end Dir

section Items

variable {ν ι π : Type} {nameOf : π → ι → Option ν}

/-- No two items can have the same name, wherever they are. -/
def NamesItem (nameOf : π → ι → Option ν) : Prop :=
  ∀ {p q : π} {i j : ι} {f : ν}, nameOf p i = some f → nameOf q j = some f → i = j

/-- The files of `d` are the items that have a content, each under the name of its place. -/
def Stores (nameOf : π → ι → Option ν) (content : ι → Option Bytes) (place : ι → π) (d : Dir ν) :
    Prop :=
  ∀ f c, d f = some c ↔ ∃ i, content i = some c ∧ nameOf (place i) i = some f

variable {content : ι → Option Bytes} {place : ι → π} {d : Dir ν}

theorem Stores.get (h : Stores nameOf content place d) {i : ι} {f : ν} {c : Bytes}
    (hc : content i = some c) (hf : nameOf (place i) i = some f) : d f = some c :=
  (h f c).mpr ⟨i, hc, hf⟩

variable [DecidableEq ν] [DecidableEq ι]

/-- A rename to the name of another place moves the item there. -/
theorem Stores.rename (hn : NamesItem nameOf) (h : Stores nameOf content place d) {i : ι} {q : π}
    {a b : ν} {c : Bytes} (hc : content i = some c) (ha : nameOf (place i) i = some a)
    (hb : nameOf q i = some b) :
    (d.rename a b).1 = true ∧
      Stores nameOf content (Function.update place i q) (d.rename a b).2 := by
  have hd := h.get hc ha
  refine ⟨by simp [Dir.rename, hd], fun f c' => ?_⟩
  simp only [Dir.rename, hd]
  by_cases hfb : f = b
  · subst hfb
    rw [Function.update_self]
    constructor
    · intro he
      cases he
      exact ⟨i, hc, by rw [Function.update_self, hb]⟩
    · rintro ⟨j, hj, hjf⟩
      by_cases hij : j = i
      · rw [← hc, ← hj, hij]
      · rw [Function.update_of_ne hij] at hjf
        exact absurd (hn hjf hb) hij
  · rw [Function.update_of_ne hfb]
    by_cases hfa : f = a
    · subst hfa
      rw [Function.update_self]
      constructor
      · intro he
        cases he
      · rintro ⟨j, hj, hjf⟩
        obtain rfl := hn hjf ha
        rw [Function.update_self, hb] at hjf
        exact absurd (Option.some.inj hjf).symm hfb
    · rw [Function.update_of_ne hfa, h f c']
      refine exists_congr fun j => and_congr_right fun hj => ?_
      by_cases hij : j = i
      · subst hij
        rw [Function.update_self, ha, hb]
        simp [Ne.symm hfa, Ne.symm hfb]
      · rw [Function.update_of_ne hij]

/-- A remove takes the item out: its new place has no name. -/
theorem Stores.remove (hn : NamesItem nameOf) (h : Stores nameOf content place d) {i : ι} {q : π}
    {a : ν} (ha : nameOf (place i) i = some a) (hq : nameOf q i = none) :
    Stores nameOf content (Function.update place i q) (d.remove a) := by
  intro f c
  unfold Dir.remove
  by_cases hfa : f = a
  · subst hfa
    rw [Function.update_self]
    constructor
    · intro he
      cases he
    · rintro ⟨j, -, hjf⟩
      by_cases hij : j = i
      · rw [hij, Function.update_self, hq] at hjf
        cases hjf
      · rw [Function.update_of_ne hij] at hjf
        exact absurd (hn hjf ha) hij
  · rw [Function.update_of_ne hfa, h f c]
    refine exists_congr fun j => and_congr_right fun _ => ?_
    by_cases hij : j = i
    · subst hij
      rw [Function.update_self, ha, hq]
      simp [Ne.symm hfa]
    · rw [Function.update_of_ne hij]

/-- A new item gets a file of its own. -/
theorem Stores.create (hn : NamesItem nameOf) (h : Stores nameOf content place d) {i : ι} {a : ν}
    (hi : content i = none) (ha : nameOf (place i) i = some a) (c : Bytes) :
    Stores nameOf (Function.update content i (some c)) place (Function.update d a (some c)) := by
  intro f c'
  by_cases hfa : f = a
  · subst hfa
    rw [Function.update_self]
    constructor
    · intro he
      exact ⟨i, by rw [Function.update_self, he], ha⟩
    · rintro ⟨j, hj, hjf⟩
      obtain rfl := hn hjf ha
      rwa [Function.update_self] at hj
  · rw [Function.update_of_ne hfa, h f c']
    refine exists_congr fun j => ?_
    by_cases hij : j = i
    · subst hij
      simp [hi, ha, Ne.symm hfa]
    · rw [Function.update_of_ne hij]

end Items

end Lib
end CmakeFrame
