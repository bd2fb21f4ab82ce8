import CmakeFrame.Common.Base64Text
import CmakeFrame.Remain.RawFields

/-!
# Damaged Base64 fields

The readers call `Base64::Decode` for most of the strings of a record and do not look at its result.

* `Kind.Accepts`: the lines that the reader of a kind accepts, by their text: ninety commas and the
  flag of the kind. `transStringTo_accepts`: it does.
* `str_of_readRecord`: the buffer that `Decode` leaves is what the object gets, whatever it returned.
* `Kind.Undamaged`: an accepted line has no Base64 field that `Decode` refuses, and the object none
  of the buffers that it then leaves.
* `undamaged_iff`: exactly the lines that are not accepted, or of which the Base64 fields are
  characters of the alphabet up to their first `=`, are so.
-/

namespace CmakeFrame
namespace Remain

open Lib

/-- The field texts of a line. -/
def fieldsOf (line : Bytes) : List ((Item × Int) × Bytes) :=
  fieldTexts comma readItems (cstr line)

/-- Ninety commas before the first NUL, and the flag of the kind in the field for it. -/
def Kind.Accepts (k : Kind) (line : Bytes) : Prop :=
  readItems.length ≤ (cstr line).count comma ∧
    ∀ p ∈ fieldsOf line, p.1.1 = .d .bitFlag_ → atoi p.2 = k.flag

/-- The line is accepted only with Base64 fields that are empty or that `Decode` accepts, and none
of the object's strings is a buffer that `Decode` left when it refused a field. -/
def Kind.Undamaged (k : Kind) (line : Bytes) : Prop :=
  ∀ v v', k.transStringTo line v = (0, v') →
    ∃ o, v' = v ++ [o] ∧ ∀ p ∈ fieldsOf line, ∀ f, p.1.1 = .base64 f →
      o.str f = (Base64.decode p.2 []).2 ∧ (p.2 = [] ∨ (Base64.decode p.2 []).1 = true)

/-- The characters of all Base64 fields are in the alphabet, up to the first `=` of each. -/
def CleanBase64 (line : Bytes) : Prop :=
  ∀ p ∈ fieldsOf line, ∀ f, p.1.1 = .base64 f → ∀ c ∈ Base64.body p.2, c ∈ Base64.base64Code

/-- A setter refuses nothing but a foreign flag. -/
theorem readItem_isOk_iff (flag : Int32) (st : Item × Int) (t r : Bytes) (o : RemainObj) :
    (∃ o', readItem flag st (t ++ comma :: r) t o = .ok o') ↔
      (st.1 = .d .bitFlag_ → atoi t = flag) := by
  simp only [readItem]
  by_cases hst : st.1 = .d .bitFlag_
  · have hflag : (st.1.get (t ++ comma :: r) t o).int .bitFlag_ = atoi t := by
      rw [hst]
      show (if IntField.bitFlag_ = .bitFlag_ then atoi (t ++ comma :: r) else o.int .bitFlag_) = _
      rw [if_pos rfl, atoi_append_cons (by decide) (by decide) (by decide) (by decide)]
    rw [hflag]
    by_cases hf : atoi t = flag
    · simp [hf]
    · simp [hst, hf]
  · simp [hst]

/-- The reader of a kind accepts a line by its text. -/
theorem transStringTo_accepts (k : Kind) (line : Bytes) (v : List RemainObj) :
    (∃ v', k.transStringTo line v = (0, v')) ↔ k.Accepts line := by
  have hget : ∀ st ∈ readItems, ∀ t r o, (∃ o', readItem k.flag st (t ++ comma :: r) t o = .ok o') ↔
      (fun (st : Item × Int) t => st.1 = .d .bitFlag_ → atoi t = k.flag) st t :=
    fun st _ t r o => readItem_isOk_iff k.flag st t r o
  have h := readFields_isOk_iff Prod.snd hget (cstr line) .new
  rw [Kind.Accepts, fieldsOf, ← h]
  constructor
  · rintro ⟨v', hv⟩
    obtain ⟨o, hr, -⟩ := Kind.transStringTo_eq_zero.mp hv
    unfold readRecord at hr
    split at hr
    · cases hr
    · rename_i s o' hread
      exact ⟨_, hread⟩
  · rintro ⟨⟨s, o⟩, hread⟩
    have hr : readRecord k.flag line =
        .ok (o.setStr .m_strDoneDate (s.take ((strFirstConstStr s crlf).getD s.length))) := by
      rw [readRecord, hread]
    exact ⟨_, Kind.transStringTo_eq_zero.mpr ⟨_, hr, rfl⟩⟩

/-- No field after a Base64 field sets the same string. -/
theorem pairwise_strFields : readItems.Pairwise fun a b =>
    a.1.strField? = none ∨ b.1.strField? ≠ a.1.strField? := by
  decide +kernel

/-- The string of a Base64 field is what `Decode` left of its text. -/
theorem str_of_readRecord {flag : Int32} {line : Bytes} {o : RemainObj}
    (h : readRecord flag line = .ok o) {p : (Item × Int) × Bytes} (hp : p ∈ fieldsOf line)
    {f : StrField} (hf : p.1.1 = .base64 f) : o.str f = (Base64.decode p.2 []).2 := by
  unfold readRecord at h
  split at h
  · cases h
  · rename_i s o₁ hread
    cases h
    have hne : f ≠ .m_strDoneDate := by
      rintro rfl
      exact doneDate_notMem (List.mem_filterMap.mpr ⟨p.1, mem_of_mem_fieldTexts hp, by rw [hf]; rfl⟩)
    rw [RemainObj.setStr_str, if_neg hne]
    refine readFields_view (fun o : RemainObj => o.str f) (fun st => st.1 = .base64 f)
      (fun t => (Base64.decode t []).2) ?_ ?_ hread hp hf
    · refine pairwise_strFields.imp fun {a b} hab ha s t o o' hget => ?_
      have hb : b.1.strField? ≠ some f := by
        rw [ha] at hab
        simpa [Item.strField?] using hab
      rw [readItem_eq_ok hget, Item.get_str hb]
    · intro st _ hst s t o o' hget
      rw [readItem_eq_ok hget, hst, Item.get, RemainObj.setStr_str, if_pos rfl]

/-- What `Decode` needs of a field. -/
theorem decode_or_empty (tok : Bytes) :
    tok = [] ∨ (Base64.decode tok []).1 = true ↔
      ∀ c ∈ Base64.body tok, c ∈ Base64.base64Code := by
  rw [(Base64.decode_any tok []).1]
  by_cases h : tok = []
  · simp [h, Base64.body]
  · simp [h]

/-- A reader takes no damaged Base64 field for a good one exactly if it does not accept the line, or
the characters of all Base64 fields are in the alphabet, up to the first `=` of each. -/
theorem undamaged_iff (k : Kind) (line : Bytes) :
    k.Undamaged line ↔ ¬ k.Accepts line ∨ CleanBase64 line := by
  constructor
  · intro h
    by_cases hacc : k.Accepts line
    · right
      obtain ⟨v', hv⟩ := (transStringTo_accepts k line []).mpr hacc
      obtain ⟨o, -, ho⟩ := h [] v' hv
      exact fun p hp f hf => (decode_or_empty p.2).mp (ho p hp f hf).2
    · exact .inl hacc
  · rintro (h | h) v v' hv
    · exact absurd ((transStringTo_accepts k line v).mp ⟨v', hv⟩) h
    · obtain ⟨o, hr, rfl⟩ := Kind.transStringTo_eq_zero.mp hv
      exact ⟨o, rfl, fun p hp f hf =>
        ⟨str_of_readRecord hr hp hf, (decode_or_empty p.2).mpr (h p hp f hf)⟩⟩

/-- A status report whose `m_strSpMsgId` is a `*`, and all other fields empty but the flag. -/
def starLine : Bytes :=
  List.replicate 4 comma ++ [49] ++ List.replicate 44 comma ++ [42] ++ List.replicate 42 comma

/-- The line is accepted. -/
theorem starLine_damaged : ¬ Kind.re.Undamaged starLine := by
  intro h
  have hacc : Kind.re.Accepts starLine := by
    refine ⟨by decide +kernel, ?_⟩
    decide +kernel
  obtain ⟨v', hv⟩ := (transStringTo_accepts .re starLine []).mpr hacc
  have hmem : ((.base64 .m_strSpMsgId, -1422), [42]) ∈ fieldsOf starLine := by decide +kernel
  obtain ⟨o, -, ho⟩ := h [] v' hv
  rcases (ho _ hmem .m_strSpMsgId rfl).2 with h | h
  · cases h
  · exact absurd h (by decide)

end Remain
end CmakeFrame
