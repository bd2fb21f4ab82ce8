import Mathlib.Tactic.Common

/-!
# What holds of a result

`Post r E Q`: the computation `r` gives a value with `Q`, or it ends in an error with `E`. With `E` false
it says that there is no error, and with `E` true that a value, if there is one, has `Q`.

* `Post.bind`, `Post.foldlM`: the rules of composition.
* `Post.exists_ok`: there is a value. `Post.of_ok`: what holds of the value.
-/

namespace CmakeFrame
namespace Lib

variable {ε α β : Type}

/-- A value with `Q`, or an error with `E`. -/
def Post (r : Except ε α) (E : ε → Prop) (Q : α → Prop) : Prop :=
  match r with
  | .ok a => Q a
  | .error e => E e

@[simp]
theorem post_ok {a : α} {E : ε → Prop} {Q : α → Prop} : Post (.ok a) E Q ↔ Q a := Iff.rfl

@[simp]
theorem post_pure {a : α} {E : ε → Prop} {Q : α → Prop} : Post (pure a) E Q ↔ Q a := Iff.rfl

@[simp]
theorem post_error {e : ε} {E : ε → Prop} {Q : α → Prop} : Post (.error e) E Q ↔ E e := Iff.rfl

namespace Post

variable {r : Except ε α} {E E' : ε → Prop} {Q Q' : α → Prop}

theorem mono (h : Post r E Q) (hE : ∀ e, E e → E' e) (hQ : ∀ a, Q a → Q' a) : Post r E' Q' := by
  cases r with
  | ok a => exact hQ a h
  | error e => exact hE e h

theorem imp (h : Post r E Q) (hQ : ∀ a, Q a → Q' a) : Post r E Q' := h.mono (fun _ he => he) hQ

theorem bind {f : α → Except ε β} {R : β → Prop} (h : Post r E Q)
    (hf : ∀ a, Q a → Post (f a) E R) : Post (r >>= f) E R := by
  cases r with
  | ok a => exact hf a h
  | error e => exact h

theorem map {f : α → β} {R : β → Prop} (h : Post r E Q) (hf : ∀ a, Q a → R (f a)) :
    Post (r.map f) E R := by
  cases r with
  | ok a => exact hf a h
  | error e => exact h

/-- A loop whose body keeps `Q`. -/
theorem foldlM {f : α → β → Except ε α} {l : List β}
    (hf : ∀ a b, b ∈ l → Q a → Post (f a b) E Q) {a : α} (ha : Q a) : Post (l.foldlM f a) E Q := by
  induction l generalizing a with
  | nil => exact ha
  | cons b l ih =>
    rw [List.foldlM_cons]
    have hb := hf a b (by simp) ha
    exact hb.bind fun a' ha' => ih (fun a b' hb' => hf a b' (List.mem_cons_of_mem b hb')) ha'

theorem of_ok (h : Post r E Q) {a : α} (ha : r = .ok a) : Q a := by
  subst ha
  exact h

theorem exists_ok (h : Post r (fun _ => False) Q) : ∃ a, r = .ok a ∧ Q a := by
  cases r with
  | ok a => exact ⟨a, rfl, h⟩
  | error e => exact h.elim

end Post

end Lib
end CmakeFrame
