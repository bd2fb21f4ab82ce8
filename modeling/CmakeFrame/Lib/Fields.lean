import CmakeFrame.Lib.Search

/-!
# Positional records of separated fields

A record is a list of fields, each field's text followed by one separator, then a tail. A reader
takes the fields in order: it looks for the next separator, refuses the record if there is none,
hands the field's text to a setter and goes on behind the separator.

* `joinFields`, `readFields`: the writer and the reader, for any type `φ` of fields and any type
  `σ` of objects under construction.
* `readFields_joinFields`: fields whose text has no separator are read as they were written.
* `length_le_of_readFields`, `readFields_isOk`: an accepted text has a separator for each field,
  and a reader whose setters refuse nothing needs no more than that.
* `fieldTexts`: the texts that the fields are read from; `readFields_isOk_iff`: when setters look at
  their own text only, they decide whether a text with enough separators is accepted.
* `readFields_frame`: what no setter of the remaining fields changes stays as it is.
  `readFields_view`: what one setter sets and no later one changes is left as it was set.
* `readFields_error`: where the reader's errors come from.
-/

namespace CmakeFrame
namespace Lib

variable {φ σ ε : Type}

/-- The fields `fs` in order, each text followed by `sep`, then `t`. -/
def joinFields (sep : UInt8) (put : φ → Bytes) (fs : List φ) (t : Bytes) : Bytes :=
  match fs with
  | [] => t
  | f :: fs => put f ++ sep :: joinFields sep put fs t

/-- Reads the fields `fs` from `s`. `get f s tok o` sets field `f`, whose text is `tok`, a prefix
of `s`; `err f` is the error for a missing separator. -/
def readFields (sep : UInt8) (get : φ → Bytes → Bytes → σ → Except ε σ) (err : φ → ε) :
    List φ → Bytes → σ → Except ε (Bytes × σ)
  | [], s, o => .ok (s, o)
  | f :: fs, s, o =>
    match findByte sep s with
    | none => .error (err f)
    | some i =>
      match get f s (s.take i) o with
      | .error e => .error e
      | .ok o => readFields sep get err fs (s.drop (i + 1)) o

/-- The fields, each with the text it is read from, up to the first one without a separator. -/
def fieldTexts (sep : UInt8) : List φ → Bytes → List (φ × Bytes)
  | [], _ => []
  | f :: fs, s =>
    match findByte sep s with
    | none => []
    | some i => (f, s.take i) :: fieldTexts sep fs (s.drop (i + 1))

theorem mem_of_mem_fieldTexts {sep : UInt8} {fs : List φ} {s : Bytes} {p : φ × Bytes}
    (h : p ∈ fieldTexts sep fs s) : p.1 ∈ fs := by
  induction fs generalizing s with
  | nil => cases h
  | cons f fs ih =>
    unfold fieldTexts at h
    cases hi : findByte sep s with
    | none => simp [hi] at h
    | some i =>
      simp only [hi] at h
      rcases List.mem_cons.mp h with rfl | h
      · exact List.mem_cons_self
      · exact List.mem_cons_of_mem f (ih h)

section

variable {sep : UInt8} {put : φ → Bytes} {get : φ → Bytes → Bytes → σ → Except ε σ} {err : φ → ε}

theorem joinFields_append (fs gs : List φ) (t : Bytes) :
    joinFields sep put (fs ++ gs) t = joinFields sep put fs (joinFields sep put gs t) := by
  induction fs with
  | nil => rfl
  | cons f fs ih => simp [joinFields, ih]

theorem joinFields_map {ψ : Type} (g : ψ → φ) (fs : List ψ) (t : Bytes) :
    joinFields sep put (fs.map g) t = joinFields sep (fun f => put (g f)) fs t := by
  induction fs with
  | nil => rfl
  | cons f fs ih => simp [joinFields, ih]

theorem notMem_joinFields {c : UInt8} (hsep : c ≠ sep) {fs : List φ} (h : ∀ f ∈ fs, c ∉ put f) :
    c ∉ joinFields sep put fs [] := by
  induction fs with
  | nil => simp [joinFields]
  | cons f fs ih =>
    simp only [joinFields, List.mem_append, List.mem_cons, not_or]
    exact ⟨h f (by simp), hsep, ih fun g hg => h g (by simp [hg])⟩

theorem joinFields_eq_append (fs : List φ) (t : Bytes) :
    joinFields sep put fs t = joinFields sep put fs [] ++ t := by
  induction fs with
  | nil => rfl
  | cons f fs ih => simp [joinFields, ih]

theorem readFields_append (fs gs : List φ) (s : Bytes) (o : σ) :
    readFields sep get err (fs ++ gs) s o =
      match readFields sep get err fs s o with
      | .error e => .error e
      | .ok (s, o) => readFields sep get err gs s o := by
  induction fs generalizing s o with
  | nil => rfl
  | cons f fs ih =>
    simp only [List.cons_append, readFields]
    cases findByte sep s with
    | none => rfl
    | some i =>
      simp only
      cases get f s (s.take i) o with
      | error e => rfl
      | ok o => exact ih _ _

/-- One field with a text free of separators. -/
theorem readFields_cons {f : φ} {p : Bytes} (hp : sep ∉ p) (fs : List φ) (r : Bytes) (o : σ) :
    readFields sep get err (f :: fs) (p ++ sep :: r) o =
      match get f (p ++ sep :: r) p o with
      | .error e => .error e
      | .ok o => readFields sep get err fs r o := by
  have hd : (p ++ sep :: r).drop (p.length + 1) = r := by
    rw [← List.drop_drop, List.drop_left]
    rfl
  simp only [readFields, findByte_append hp, List.take_left, hd]

variable (err) in
/-- Fields with texts free of separators are read as they were written: each setter sees its
field's text, and reading goes on at the tail. -/
theorem readFields_joinFields {set : φ → σ → σ} {fs : List φ} (hput : ∀ f ∈ fs, sep ∉ put f)
    (hget : ∀ f ∈ fs, ∀ r o, get f (put f ++ sep :: r) (put f) o = .ok (set f o))
    (t : Bytes) (o : σ) :
    readFields sep get err fs (joinFields sep put fs t) o =
      .ok (t, fs.foldl (fun o f => set f o) o) := by
  induction fs generalizing o with
  | nil => rfl
  | cons f fs ih =>
    rw [joinFields, readFields_cons (hput f (by simp)), hget f (by simp)]
    exact ih (fun g hg => hput g (by simp [hg])) (fun g hg => hget g (by simp [hg])) _

/-- A part of the object that every setter of `fs` keeps once it has the value `b`, and that has
it at the start or gets it from one of them, has it at the end. -/
theorem view_foldl {β : Type} (view : σ → β) {set : φ → σ → σ} {b : β} {fs : List φ}
    (hkeep : ∀ f ∈ fs, ∀ o, view o = b → view (set f o) = b) {o : σ}
    (h : (∃ f ∈ fs, ∀ o, view (set f o) = b) ∨ view o = b) :
    view (fs.foldl (fun o f => set f o) o) = b := by
  induction fs generalizing o with
  | nil => simpa using h
  | cons g fs ih =>
    refine ih (fun f hf => hkeep f (by simp [hf])) ?_
    rcases h with ⟨f, hf, hset⟩ | h
    · rcases List.mem_cons.mp hf with rfl | hf
      · exact .inr (hset o)
      · exact .inl ⟨f, hf, hset⟩
    · exact .inr (hkeep g (by simp) o h)

theorem count_of_findByte {s : Bytes} {i : Nat} (h : findByte sep s = some i) :
    s.count sep = (s.drop (i + 1)).count sep + 1 := by
  obtain ⟨hs, hn⟩ := findByte_eq_some h
  conv => lhs; rw [hs]
  rw [List.count_append, List.count_eq_zero_of_not_mem hn, List.count_cons_self, Nat.zero_add]

/-- Fields with texts free of separators bring one separator each. -/
theorem count_joinFields {fs : List φ} (hput : ∀ f ∈ fs, sep ∉ put f) (t : Bytes) :
    (joinFields sep put fs t).count sep = fs.length + t.count sep := by
  induction fs with
  | nil => simp [joinFields]
  | cons f fs ih =>
    rw [joinFields, List.count_append, List.count_eq_zero_of_not_mem (hput f (by simp)),
      List.count_cons_self, ih fun g hg => hput g (by simp [hg]), List.length_cons]
    omega

/-- What holds of the errors of all fields holds of the reader's error. -/
theorem readFields_error {P : ε → Prop} {fs : List φ} (herr : ∀ f ∈ fs, P (err f))
    (hget : ∀ f ∈ fs, ∀ s t o e, get f s t o = .error e → P e) {s : Bytes} {o : σ} {e : ε}
    (h : readFields sep get err fs s o = .error e) : P e := by
  induction fs generalizing s o with
  | nil => cases h
  | cons f fs ih =>
    unfold readFields at h
    split at h
    · cases h
      exact herr f (by simp)
    · split at h
      · rename_i he
        cases h
        exact hget f (by simp) _ _ _ _ he
      · exact ih (fun g hg => herr g (by simp [hg])) (fun g hg => hget g (by simp [hg])) h

/-- An accepted text has a separator for each field. -/
theorem length_le_of_readFields {fs : List φ} {s : Bytes} {o : σ} {r : Bytes × σ}
    (h : readFields sep get err fs s o = .ok r) : fs.length ≤ s.count sep := by
  induction fs generalizing s o with
  | nil => simp
  | cons f fs ih =>
    unfold readFields at h
    split at h
    · cases h
    · rename_i i hi
      split at h
      · cases h
      · rw [count_of_findByte hi, List.length_cons]
        exact Nat.succ_le_succ (ih h)

variable (err) in
/-- A reader whose setters refuse nothing accepts a text with a separator for each field. -/
theorem readFields_isOk {fs : List φ} (hget : ∀ f ∈ fs, ∀ s t o, ∃ o', get f s t o = .ok o')
    {s : Bytes} (hs : fs.length ≤ s.count sep) (o : σ) :
    ∃ r, readFields sep get err fs s o = .ok r := by
  induction fs generalizing s o with
  | nil => exact ⟨_, rfl⟩
  | cons f fs ih =>
    unfold readFields
    cases hi : findByte sep s with
    | none =>
      rw [List.count_eq_zero_of_not_mem (findByte_eq_none.mp hi)] at hs
      cases hs
    | some i =>
      obtain ⟨o', ho'⟩ := hget f (by simp) s (s.take i) o
      rw [count_of_findByte hi, List.length_cons] at hs
      simp only [ho']
      exact ih (fun g hg => hget g (by simp [hg])) (by omega) _

variable (err) in
/-- A text is accepted exactly if it has a separator for each field and each setter accepts the text
of its own field. -/
theorem readFields_isOk_iff {fs : List φ} {P : φ → Bytes → Prop}
    (hget : ∀ f ∈ fs, ∀ t r o, (∃ o', get f (t ++ sep :: r) t o = .ok o') ↔ P f t) (s : Bytes)
    (o : σ) :
    (∃ r, readFields sep get err fs s o = .ok r) ↔
      fs.length ≤ s.count sep ∧ ∀ p ∈ fieldTexts sep fs s, P p.1 p.2 := by
  induction fs generalizing s o with
  | nil => simp [readFields, fieldTexts]
  | cons f fs ih =>
    unfold readFields fieldTexts
    cases hi : findByte sep s with
    | none =>
      have hz := List.count_eq_zero_of_not_mem (findByte_eq_none.mp hi)
      simp [hz]
    | some i =>
      have hs := (findByte_eq_some hi).1
      have hf := hget f (by simp) (s.take i) (s.drop (i + 1)) o
      rw [← hs] at hf
      rw [count_of_findByte hi, List.length_cons, Nat.add_le_add_iff_right, List.forall_mem_cons]
      cases hg : get f s (s.take i) o with
      | error e =>
        simp only [hg, reduceCtorEq, exists_false, false_iff] at hf
        simp [hg, hf]
      | ok o' =>
        have hP : P f (s.take i) := hf.mp ⟨o', hg⟩
        simp only [hg, ih (fun g hg => hget g (by simp [hg])), hP, true_and]

/-- A part of the object that no setter of `fs` changes. -/
theorem readFields_frame {β : Type} (view : σ → β) {fs : List φ}
    (hget : ∀ f ∈ fs, ∀ s t o o', get f s t o = .ok o' → view o' = view o)
    {s t : Bytes} {o o' : σ} (h : readFields sep get err fs s o = .ok (t, o')) :
    view o' = view o := by
  induction fs generalizing s o with
  | nil => cases h; rfl
  | cons f fs ih =>
    unfold readFields at h
    split at h
    · cases h
    · rename_i i _
      split at h
      · cases h
      · rename_i o₁ ho₁
        rw [ih (fun g hg => hget g (by simp [hg])) h]
        exact hget f (by simp) _ _ _ _ ho₁

/-- A part of the object that its own field sets to a value of the text, and that no later field
changes, has the value of that field's text. -/
theorem readFields_view {β : Type} (view : σ → β) (own : φ → Prop) (val : Bytes → β) {fs : List φ}
    (hkeep : fs.Pairwise fun f g => own f → ∀ s t o o', get g s t o = .ok o' → view o' = view o)
    (hset : ∀ f ∈ fs, own f → ∀ s t o o', get f s t o = .ok o' → view o' = val t)
    {s t : Bytes} {o o' : σ} (h : readFields sep get err fs s o = .ok (t, o'))
    {p : φ × Bytes} (hp : p ∈ fieldTexts sep fs s) (hown : own p.1) : view o' = val p.2 := by
  induction fs generalizing s o with
  | nil => cases hp
  | cons f fs ih =>
    obtain ⟨hf, hfs⟩ := List.pairwise_cons.mp hkeep
    unfold readFields at h
    unfold fieldTexts at hp
    cases hi : findByte sep s with
    | none => simp [hi] at h
    | some i =>
      simp only [hi] at h hp
      cases hg : get f s (s.take i) o with
      | error e => simp [hg] at h
      | ok o₁ =>
        simp only [hg] at h
        rcases List.mem_cons.mp hp with rfl | hp
        · rw [readFields_frame view (fun g hg => hf g hg hown) h]
          exact hset f (by simp) hown _ _ _ _ hg
        · exact ih hfs (fun g hg => hset g (by simp [hg])) h hp

end

end Lib
end CmakeFrame
