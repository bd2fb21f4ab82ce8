import CmakeFrame.Remain.RemainObj

/-!
# Writing a record and reading it back

* `readRecord_writeRecord`: a record whose raw fields hold no comma and no NUL, and whose last
  field holds no NUL and no CR LF, is read back with every field of the text.
* `record_roundtrip`: the same for the six functions.
-/

namespace CmakeFrame
namespace Remain

open Lib

/-! ## The two field sequences -/

/-- The readers take the fields in the order in which the writers put them. -/
theorem map_fst_readItems : readItems.map Prod.fst = writeItems := by decide

theorem writeRecord_eq (o : RemainObj) :
    writeRecord o = joinFields comma (fun st : Item × Int => st.1.put o) readItems
      (o.str .m_strDoneDate ++ crlf) := by
  rw [writeRecord, ← map_fst_readItems, joinFields_map]
  rfl

theorem d_mem_writeItems (f : IntField) : .d f ∈ writeItems := by
  cases f <;> decide

theorem ld_mem_writeItems (f : LongField) : .ld f ∈ writeItems := by
  cases f <;> decide

theorem str_mem_writeItems (f : StrField) :
    .base64 f ∈ writeItems ∨ .raw f ∈ writeItems ∨ f = .m_strDoneDate := by
  cases f <;> decide

/-- The string field an item sets. -/
def Item.strField? : Item → Option StrField
  | .base64 f | .raw f => some f
  | _ => none

/-! ## One field -/

/-- Sets an item's field as `o` has it. -/
def Item.copy (o o' : RemainObj) : Item → RemainObj
  | .d f => o'.setInt f (o.int f)
  | .ld f => o'.setLong f (o.long f)
  | .base64 f => o'.setStr f (o.str f)
  | .raw f => o'.setStr f (o.str f)

/-- No byte `c` in the text of a raw field. The other texts hold neither comma nor NUL. -/
def Item.Without (c : UInt8) (o : RemainObj) : Item → Prop
  | .raw f => c ∉ o.str f
  | _ => True

theorem notMem_intDec {c : UInt8} (h1 : c ≠ 45) (h2 : isDigit c = false) (z : Int) :
    c ∉ intDec z := by
  intro h
  rcases mem_intDec h with h | h
  · exact h1 h
  · rw [h2] at h
    cases h

theorem encode_snd (s : Bytes) : (Base64.encode s []).2 = Base64.encodeLoop s := by
  unfold Base64.encode
  split
  · rename_i h
    rw [h]
    rfl
  · rfl

theorem decode_encode_snd (s : Bytes) : (Base64.decode (Base64.encode s []).2 []).2 = s := by
  by_cases h : s = []
  · rw [h]
    rfl
  · rw [Base64.decode_encode h]

/-- Only a raw field can bring a comma or a NUL into the text. -/
theorem Item.notMem_put {c : UInt8} (hc : c = comma ∨ c = 0) {o : RemainObj} {it : Item}
    (h : it.Without c o) : c ∉ it.put o := by
  have h1 : c ≠ 45 ∧ isDigit c = false ∧ c ≠ 61 ∧ c ∉ Base64.base64Code := by
    rcases hc with rfl | rfl <;> decide
  cases it with
  | d f => exact notMem_intDec h1.1 h1.2.1 _
  | ld f => exact notMem_intDec h1.1 h1.2.1 _
  | base64 f =>
    rw [Item.put, encode_snd]
    exact Base64.notMem_encodeLoop h1.2.2.1 h1.2.2.2 _
  | raw f => exact h

/-- A field is read back from its own text. -/
theorem Item.get_put (o o' : RemainObj) (it : Item) (r : Bytes) :
    it.get (it.put o ++ comma :: r) (it.put o) o' = it.copy o o' := by
  have hr : EndsNumber (comma :: r) := endsNumber_cons (by decide)
  cases it with
  | d f => simp only [Item.get, Item.put, Item.copy, atoi_intDec _ hr]
  | ld f => simp only [Item.get, Item.put, Item.copy, toInt64_strtoul_intDec _ hr]
  | base64 f => simp only [Item.get, Item.put, Item.copy, decode_encode_snd]
  | raw f => rfl

/-- The flag check passes on a record of the reader's kind. -/
theorem readItem_put {flag : Int32} {o : RemainObj} (hk : o.int .bitFlag_ = flag)
    (o' : RemainObj) (st : Item × Int) (r : Bytes) :
    readItem flag st (st.1.put o ++ comma :: r) (st.1.put o) o' = .ok (st.1.copy o o') := by
  simp only [readItem, Item.get_put]
  refine if_neg ?_
  rintro ⟨hst, hne⟩
  rw [hst] at hne
  simp [Item.copy, RemainObj.setInt, hk] at hne

/-! ## All fields -/

theorem Item.copy_int (o o' : RemainObj) (it : Item) (f : IntField) :
    (it.copy o o').int f = if it = .d f then o.int f else o'.int f := by
  cases it with
  | d g =>
    by_cases h : f = g
    · simp [Item.copy, RemainObj.setInt, h]
    · simp [Item.copy, RemainObj.setInt, h, Ne.symm h]
  | _ => simp [Item.copy, RemainObj.setLong]

theorem Item.copy_long (o o' : RemainObj) (it : Item) (f : LongField) :
    (it.copy o o').long f = if it = .ld f then o.long f else o'.long f := by
  cases it with
  | ld g =>
    by_cases h : f = g
    · simp [Item.copy, RemainObj.setLong, h]
    · simp [Item.copy, RemainObj.setLong, h, Ne.symm h]
  | _ => simp [Item.copy, RemainObj.setInt]

theorem Item.copy_str (o o' : RemainObj) (it : Item) (f : StrField) :
    (it.copy o o').str f = if it.strField? = some f then o.str f else o'.str f := by
  cases it with
  | d g => simp [Item.copy, RemainObj.setInt, Item.strField?]
  | ld g => simp [Item.copy, RemainObj.setLong, Item.strField?]
  | _ g =>
    by_cases h : f = g
    · simp [Item.copy, RemainObj.setStr_str, Item.strField?, h]
    · simp [Item.copy, RemainObj.setStr_str, Item.strField?, h, Ne.symm h]

theorem exists_readItem {it : Item} (h : it ∈ writeItems) : ∃ st ∈ readItems, st.1 = it := by
  rw [← map_fst_readItems] at h
  exact List.mem_map.mp h

/-- Copying every field of the readers, then `m_strDoneDate`, gives an equal record. -/
theorem agrees_foldl_copy (o o' : RemainObj) :
    ((readItems.foldl (fun o' st => st.1.copy o o') o').setStr .m_strDoneDate
      (o.str .m_strDoneDate)).Agrees o := by
  refine ⟨?_, ?_, ?_⟩
  · funext f
    obtain ⟨st, hst, he⟩ := exists_readItem (d_mem_writeItems f)
    rw [RemainObj.setStr_int]
    refine view_foldl (fun o' : RemainObj => o'.int f) (fun st _ o' h => ?_)
      (.inl ⟨st, hst, fun o' => ?_⟩)
    · simp only [Item.copy_int, h, ite_self]
    · simp only [Item.copy_int, he, if_true]
  · funext f
    obtain ⟨st, hst, he⟩ := exists_readItem (ld_mem_writeItems f)
    rw [RemainObj.setStr_long]
    refine view_foldl (fun o' : RemainObj => o'.long f) (fun st _ o' h => ?_)
      (.inl ⟨st, hst, fun o' => ?_⟩)
    · simp only [Item.copy_long, h, ite_self]
    · simp only [Item.copy_long, he, if_true]
  · funext f
    rw [RemainObj.setStr_str]
    split
    · rename_i hf
      rw [hf]
    · rename_i hf
      obtain ⟨st, hst, he⟩ : ∃ st ∈ readItems, st.1.strField? = some f := by
        rcases str_mem_writeItems f with h | h | h
        · obtain ⟨st, hst, he⟩ := exists_readItem h
          exact ⟨st, hst, by rw [he]; rfl⟩
        · obtain ⟨st, hst, he⟩ := exists_readItem h
          exact ⟨st, hst, by rw [he]; rfl⟩
        · exact absurd h hf
      refine view_foldl (fun o' : RemainObj => o'.str f) (fun st _ o' h => ?_)
        (.inl ⟨st, hst, fun o' => ?_⟩)
      · simp only [Item.copy_str, h, ite_self]
      · simp only [Item.copy_str, he, if_true]

/-! ## A whole record -/

/-- Raw fields that the text can carry: neither comma nor NUL before the last one, neither NUL nor
CR LF in the last one. -/
def RemainObj.RawClean (o : RemainObj) : Prop :=
  (∀ f, .raw f ∈ writeItems → comma ∉ o.str f ∧ 0 ∉ o.str f) ∧
    0 ∉ o.str .m_strDoneDate ∧ ¬ crlf <:+: o.str .m_strDoneDate

theorem RemainObj.RawClean.without {o : RemainObj} (h : o.RawClean) {it : Item}
    (hm : it ∈ writeItems) : it.Without comma o ∧ it.Without 0 o := by
  cases it with
  | raw f => exact h.1 f hm
  | _ => exact ⟨trivial, trivial⟩

/-- The fields of a clean record before a tail without NUL are a C string. -/
theorem cstr_joinFields {o : RemainObj} (h : o.RawClean) {t : Bytes} (ht : 0 ∉ t) :
    cstr (joinFields comma (Item.put o) writeItems t) =
      joinFields comma (Item.put o) writeItems t := by
  refine cstr_eq_self ?_
  rw [joinFields_eq_append]
  simp only [List.mem_append, not_or]
  refine ⟨notMem_joinFields (by decide) fun it hm => ?_, ht⟩
  exact Item.notMem_put (.inr rfl) (h.without hm).2

/-- A clean record is read back from any tail of which the last field is the part up to CR LF. -/
theorem readRecord_joinFields {flag : Int32} {o : RemainObj} (hk : o.int .bitFlag_ = flag)
    (h : o.RawClean) {t : Bytes} (h0 : 0 ∉ t)
    (ht : t.take ((strFirstConstStr t crlf).getD t.length) = o.str .m_strDoneDate) :
    ∃ o', readRecord flag (joinFields comma (Item.put o) writeItems t) = .ok o' ∧
      o'.Agrees o := by
  have hput : ∀ st ∈ readItems, comma ∉ st.1.put o := by
    intro st hst
    have hm : st.1 ∈ writeItems := map_fst_readItems ▸ List.mem_map_of_mem hst
    exact Item.notMem_put (.inl rfl) (h.without hm).1
  have hread := readFields_joinFields Prod.snd hput
    (fun st _ r o' => readItem_put hk o' st r) t .new
  refine ⟨_, ?_, agrees_foldl_copy o .new⟩
  rw [readRecord, cstr_joinFields h h0, ← map_fst_readItems, joinFields_map, hread]
  simp only [ht]

/-- The last field of a clean record ends at its CR LF. -/
theorem take_crlf {d : Bytes} (h : ¬ crlf <:+: d) :
    (d ++ crlf).take ((strFirstConstStr (d ++ crlf) crlf).getD (d ++ crlf).length) = d := by
  have hf := findSub_crlf h []
  rw [List.append_nil] at hf
  rw [strFirstConstStr_crlf, hf]
  exact List.take_left

theorem readRecord_writeRecord {flag : Int32} {o : RemainObj} (hk : o.int .bitFlag_ = flag)
    (h : o.RawClean) : ∃ o', readRecord flag (writeRecord o) = .ok o' ∧ o'.Agrees o := by
  refine readRecord_joinFields hk h ?_ (take_crlf h.2.2)
  simp only [Item.put, List.mem_append, not_or]
  exact ⟨h.2.1, by decide⟩

/-- The raw fields of the text, `m_strDoneDate` included. -/
def rawFields : List StrField :=
  [
    .m_strPtcode, .m_strMsgSrcIp, .m_strSpip, .m_strUserId, .m_strSpNumber, .m_strSpGate,
    .m_strCpno, .m_strExno, .m_strErrorCode, .m_strErrorCode2, .m_strSubmitDate, .m_strDoneDate]

/-- No raw field holds a comma, CR, LF or NUL. -/
def RemainObj.RawPlain (o : RemainObj) : Prop :=
  ∀ f ∈ rawFields, comma ∉ o.str f ∧ 13 ∉ o.str f ∧ 10 ∉ o.str f ∧ 0 ∉ o.str f

instance (o : RemainObj) : Decidable o.RawPlain :=
  inferInstanceAs (Decidable (∀ f ∈ rawFields,
    comma ∉ o.str f ∧ 13 ∉ o.str f ∧ 10 ∉ o.str f ∧ 0 ∉ o.str f))

theorem raw_mem_writeItems {f : StrField} (h : .raw f ∈ writeItems) : f ∈ rawFields := by
  revert h
  cases f <;> decide

theorem RemainObj.RawPlain.rawClean {o : RemainObj} (h : o.RawPlain) : o.RawClean := by
  refine ⟨fun f hf => ?_, ?_, ?_⟩
  · have := h f (raw_mem_writeItems hf)
    exact ⟨this.1, this.2.2.2⟩
  · exact (h _ (by decide)).2.2.2
  · intro hi
    exact (h .m_strDoneDate (by decide)).2.1 (hi.subset (by decide))

/-- A record of the reader's kind with plain raw fields is read back as it was written. -/
theorem record_roundtrip (k : Kind) (o : RemainObj) (hk : o.int .bitFlag_ = k.flag)
    (hraw : o.RawPlain) (v : List RemainObj) :
    ∃ o', k.transStringTo (k.transToString o) v = (0, v ++ [o']) ∧ o'.Agrees o := by
  obtain ⟨o', hr, ha⟩ := readRecord_writeRecord hk hraw.rawClean
  refine ⟨o', ?_, ha⟩
  rw [k.transToString_eq, k.transStringTo_eq, hr]
  rfl

/-- A status report with negative numbers and a comma and a NUL in Base64 fields. -/
def sampleRe : RemainObj :=
  (((RemainObj.new.setInt .bitFlag_ 1).setLong .m_nPtMsgId (-5)).setStr .m_strMsgContent
    [44, 0, 255]).setStr .m_strUserId [65, 66]

theorem record_roundtrip_sampleRe : ∃ o',
    transStringToRe (transReToString sampleRe) [] = (0, [o']) ∧ o'.Agrees sampleRe :=
  record_roundtrip .re sampleRe (by decide) (by decide) []

end Remain
end CmakeFrame
