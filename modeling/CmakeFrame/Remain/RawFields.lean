import CmakeFrame.Remain.RoundTrip

/-!
# Separators inside raw fields

Twelve string fields stand raw between the commas. A comma or a NUL in one of them shifts or cuts
off the fields behind it, and a reader that still finds its ninety commas accepts the line.

* `rawClean_of_agrees`: if a written record is accepted and agrees with what was written, its raw
  fields were clean.
* `readRecord_isOk`: a written record is accepted as soon as ninety commas stand before its first
  NUL (`sepsBeforeNul`), and only then.
* `neverOther_iff`: exactly when an accepted record can only be the one that was written.
-/

namespace CmakeFrame
namespace Remain

open Lib

/-! ## Agreement makes the raw fields clean -/

theorem nodup_strFields : (readItems.filterMap (·.1.strField?)).Nodup := by decide

theorem doneDate_notMem : .m_strDoneDate ∉ readItems.filterMap (·.1.strField?) := by decide

theorem readItem_eq_ok {flag : Int32} {st : Item × Int} {s tok : Bytes} {o o' : RemainObj}
    (h : readItem flag st s tok o = .ok o') : o' = st.1.get s tok o := by
  simp only [readItem] at h
  split at h
  · cases h
  · cases h
    rfl

/-- An item changes no string field but its own. -/
theorem Item.get_str {it : Item} {f : StrField} (hf : it.strField? ≠ some f) (s tok : Bytes)
    (o : RemainObj) : (it.get s tok o).str f = o.str f := by
  cases it with
  | d g => rfl
  | ld g => rfl
  | _ g =>
    have : f ≠ g := fun h => hf (by rw [h]; rfl)
    simp [Item.get, RemainObj.setStr_str, this]

/-- A string field that no remaining item sets keeps its value. -/
theorem readFields_str {flag : Int32} {its : List (Item × Int)} {f : StrField}
    (hf : f ∉ its.filterMap (·.1.strField?)) {s t : Bytes} {o o' : RemainObj}
    (h : readFields comma (readItem flag) Prod.snd its s o = .ok (t, o')) :
    o'.str f = o.str f := by
  refine readFields_frame (fun o : RemainObj => o.str f) (fun st hst s t o o' h => ?_) h
  rw [readItem_eq_ok h]
  refine Item.get_str (fun he => hf ?_) _ _ _
  exact List.mem_filterMap.mpr ⟨st, hst, he⟩

/-- The text that a raw item is read from holds neither comma nor NUL. -/
theorem take_clean {s : Bytes} {i : Nat} (h : findByte comma (cstr s) = some i) :
    comma ∉ (cstr s).take i ∧ 0 ∉ (cstr s).take i :=
  ⟨(findByte_eq_some h).2, fun hm => zero_notMem_cstr s (List.mem_of_mem_take hm)⟩

/-- A raw item that is read first and ends with what it was written as is clean. -/
theorem clean_of_readFields_raw {flag : Int32} {f : StrField} {e : Int} {its : List (Item × Int)}
    (hf : f ∉ its.filterMap (·.1.strField?)) {text t : Bytes} {o₀ o' : RemainObj}
    (h : readFields comma (readItem flag) Prod.snd ((.raw f, e) :: its) (cstr text) o₀ = .ok (t, o')) :
    comma ∉ o'.str f ∧ 0 ∉ o'.str f := by
  unfold readFields at h
  split at h
  · cases h
  · rename_i i hi
    have hr : readItem flag (.raw f, e) (cstr text) ((cstr text).take i) o₀ =
        .ok (o₀.setStr f ((cstr text).take i)) := by
      simp [readItem, Item.get]
    rw [hr] at h
    rw [readFields_str hf h, RemainObj.setStr_str, if_pos rfl]
    exact take_clean hi

/-- If the raw fields are read as they were written, they are clean, and reading stops exactly at
the tail. The induction goes over the items; a clean one leaves the reader in front of the next. -/
theorem without_of_readFields {flag : Int32} {o : RemainObj} {t : Bytes}
    {its : List (Item × Int)} (hnd : (its.filterMap (·.1.strField?)).Nodup)
    {s' : Bytes} {o₀ o' : RemainObj}
    (h : readFields comma (readItem flag) Prod.snd its
      (cstr (joinFields comma (fun st : Item × Int => st.1.put o) its t)) o₀ = .ok (s', o'))
    (hag : ∀ f, .raw f ∈ its.map Prod.fst → o'.str f = o.str f) :
    (∀ it ∈ its.map Prod.fst, it.Without comma o ∧ it.Without 0 o) ∧ s' = cstr t := by
  induction its generalizing o₀ with
  | nil =>
    cases h
    exact ⟨by simp, rfl⟩
  | cons st its ih =>
    -- The item itself is clean: a raw one by what it was read from.
    have hst : st.1.Without comma o ∧ st.1.Without 0 o := by
      obtain ⟨it, e⟩ := st
      cases it with
      | raw f =>
        have hmem : f ∉ its.filterMap (·.1.strField?) := by
          simpa [Item.strField?] using (List.nodup_cons.mp hnd).1
        show comma ∉ o.str f ∧ 0 ∉ o.str f
        rw [← hag f (by simp)]
        exact clean_of_readFields_raw hmem h
      | _ => exact ⟨trivial, trivial⟩
    have hnd' : (its.filterMap (·.1.strField?)).Nodup := by
      rw [List.filterMap_cons] at hnd
      split at hnd
      · exact hnd
      · exact (List.nodup_cons.mp hnd).2
    rw [joinFields, cstr_append (Item.notMem_put (.inr rfl) hst.2),
      show cstr (comma :: joinFields comma (fun st : Item × Int => st.1.put o) its t) =
        comma :: cstr (joinFields comma (fun st : Item × Int => st.1.put o) its t) from rfl,
      readFields_cons (Item.notMem_put (.inl rfl) hst.1)] at h
    split at h
    · cases h
    · obtain ⟨hits, hs⟩ := ih hnd' h (fun f hf => hag f (by simp [hf]))
      refine ⟨fun it hit => ?_, hs⟩
      rcases List.mem_cons.mp hit with rfl | hit
      · exact hst
      · exact hits it hit

/-- A written record that is accepted and agrees with what was written had clean raw fields. -/
theorem rawClean_of_agrees {flag : Int32} {o o' : RemainObj}
    (h : readRecord flag (writeRecord o) = .ok o') (hag : o'.Agrees o) : o.RawClean := by
  unfold readRecord at h
  split at h
  · cases h
  · rename_i s o₁ hread
    cases h
    rw [writeRecord_eq] at hread
    have hstr : ∀ f, f ≠ .m_strDoneDate → o₁.str f = o.str f := by
      intro f hf
      have := congrFun hag.2.2 f
      rwa [RemainObj.setStr_str, if_neg hf] at this
    obtain ⟨hits, rfl⟩ := without_of_readFields nodup_strFields hread fun f hf => by
      refine hstr f ?_
      rintro rfl
      obtain ⟨st, hst, he⟩ := List.mem_map.mp hf
      exact doneDate_notMem (List.mem_filterMap.mpr ⟨st, hst, by rw [he]; rfl⟩)
    rw [map_fst_readItems] at hits
    refine ⟨fun f hf => hits _ hf, ?_⟩
    -- The last field: what was read is a prefix of the C string behind the last comma.
    have hdone := congrFun hag.2.2 .m_strDoneDate
    rw [RemainObj.setStr_str, if_pos rfl] at hdone
    have h0 : 0 ∉ o.str .m_strDoneDate := by
      rw [← hdone]
      exact fun hm => zero_notMem_cstr _ (List.mem_of_mem_take hm)
    refine ⟨h0, fun hc => ?_⟩
    obtain ⟨i, hi, hf⟩ := findSub_crlf_lt hc crlf
    rw [cstr_append h0, show cstr crlf = crlf from rfl, strFirstConstStr_crlf, hf] at hdone
    have := congrArg List.length hdone
    simp only [Option.getD_some, List.length_take] at this
    omega

/-! ## When a written record is accepted -/

/-- The commas of a written record before its first NUL: one behind each field of `its`, those in
raw fields, and none behind a raw field that holds a NUL. -/
def sepsBeforeNul (o : RemainObj) : List Item → Nat
  | [] => (cstr (o.str .m_strDoneDate)).count comma
  | .raw f :: its =>
    (cstr (o.str f)).count comma + if 0 ∈ o.str f then 0 else sepsBeforeNul o its + 1
  | _ :: its => sepsBeforeNul o its + 1

theorem count_comma_cons {p : Bytes} (h : 0 ∉ p) (t : Bytes) :
    (cstr (p ++ comma :: t)).count comma = p.count comma + ((cstr t).count comma + 1) := by
  rw [cstr_append h, show cstr (comma :: t) = comma :: cstr t from rfl, List.count_append,
    List.count_cons_self]

theorem count_comma_joinFields (o : RemainObj) (its : List Item) :
    (cstr (joinFields comma (Item.put o) its (o.str .m_strDoneDate ++ crlf))).count comma =
      sepsBeforeNul o its := by
  induction its with
  | nil =>
    rw [joinFields, sepsBeforeNul]
    by_cases h0 : 0 ∈ o.str .m_strDoneDate
    · rw [cstr_append_of_mem h0]
    · rw [cstr_append h0, cstr_eq_self h0, show cstr crlf = crlf from rfl, List.count_append]
      simp [crlf, comma]
  | cons it its ih =>
    have hword : it.Without comma o → it.Without 0 o →
        (cstr (joinFields comma (Item.put o) (it :: its) (o.str .m_strDoneDate ++ crlf))).count
          comma = sepsBeforeNul o its + 1 := by
      intro hc h0
      rw [joinFields, count_comma_cons (Item.notMem_put (.inr rfl) h0), ih,
        List.count_eq_zero_of_not_mem (Item.notMem_put (.inl rfl) hc), Nat.zero_add]
    cases it with
    | raw f =>
      rw [joinFields, sepsBeforeNul, Item.put]
      by_cases h0 : 0 ∈ o.str f
      · rw [cstr_append_of_mem h0, if_pos h0, Nat.add_zero]
      · rw [count_comma_cons h0, ih, if_neg h0, cstr_eq_self h0]
    | _ => exact hword trivial trivial

/-- The numbers up to `bitFlag_`. -/
def headItems : List (Item × Int) := readItems.take 5

def restItems : List (Item × Int) := readItems.drop 5

theorem headItems_append : readItems = headItems ++ restItems := (List.take_append_drop 5 _).symm

theorem without_headItems (o : RemainObj) (c : UInt8) : ∀ st ∈ headItems, st.1.Without c o := by
  simp [headItems, readItems, Item.Without]

theorem bitFlag_notMem_restItems : ∀ st ∈ restItems, st.1 ≠ .d .bitFlag_ := by decide

/-- Behind `bitFlag_` a setter refuses nothing. -/
theorem readItem_restItems (flag : Int32) : ∀ st ∈ restItems, ∀ s t o,
    ∃ o', readItem flag st s t o = .ok o' := by
  intro st hst s t o
  refine ⟨st.1.get s t o, ?_⟩
  simp only [readItem]
  exact if_neg fun h => bitFlag_notMem_restItems st hst h.1

/-- A written record of the reader's kind is accepted exactly if ninety commas stand before its
first NUL. -/
theorem readRecord_isOk {flag : Int32} {o : RemainObj} (hk : o.int .bitFlag_ = flag) :
    (∃ o', readRecord flag (writeRecord o) = .ok o') ↔ 90 ≤ sepsBeforeNul o writeItems := by
  rw [← count_comma_joinFields]
  refine ⟨fun ⟨o', h⟩ => ?_, fun h => ?_⟩
  · unfold readRecord at h
    split at h
    · cases h
    · rename_i hread
      exact length_le_of_readFields hread
  · have hput : ∀ c, c = comma ∨ c = 0 → ∀ st ∈ headItems, c ∉ st.1.put o :=
      fun c hc st hst => Item.notMem_put hc (without_headItems o c st hst)
    have hcut : ∀ t, cstr (joinFields comma (fun st : Item × Int => st.1.put o) headItems t) =
        joinFields comma (fun st : Item × Int => st.1.put o) headItems (cstr t) := by
      intro t
      rw [joinFields_eq_append, cstr_append (notMem_joinFields (by decide) (hput 0 (.inr rfl))),
        ← joinFields_eq_append]
    rw [← map_fst_readItems, joinFields_map, headItems_append, joinFields_append, hcut,
      count_joinFields (hput comma (.inl rfl))] at h
    obtain ⟨r, hr⟩ := readFields_isOk Prod.snd (readItem_restItems flag)
      (show restItems.length ≤ _ from Nat.le_of_add_le_add_left h)
      (headItems.foldl (fun o' st => st.1.copy o o') .new)
    have hread : readFields comma (readItem flag) Prod.snd readItems (cstr (writeRecord o)) .new =
        .ok r := by
      rw [writeRecord_eq, headItems_append, joinFields_append, hcut, readFields_append,
        readFields_joinFields _ (hput comma (.inl rfl)) fun st _ r o' => readItem_put hk o' st r]
      exact hr
    exact ⟨_, by rw [readRecord, hread]⟩

/-! ## The readers' errors, and the six functions -/

theorem readRecord_error {flag : Int32} {pBuf : Bytes} {e : Int}
    (h : readRecord flag pBuf = .error e) : e < 0 := by
  unfold readRecord at h
  split at h
  · rename_i hread
    cases h
    refine readFields_error (P := fun e : Int => e < 0) (by decide) ?_ hread
    intro st _ s t o e he
    simp only [readItem] at he
    split at he
    · cases he
      decide
    · cases he
  · cases h

/-- A reader returns 0 exactly if it appends one object. -/
theorem Kind.transStringTo_eq_zero {k : Kind} {pBuf : Bytes} {v v' : List RemainObj} :
    k.transStringTo pBuf v = (0, v') ↔ ∃ o, readRecord k.flag pBuf = .ok o ∧ v' = v ++ [o] := by
  rw [k.transStringTo_eq]
  cases h : readRecord k.flag pBuf with
  | error e => simp [pushObj, (readRecord_error h).ne]
  | ok o => simp [pushObj, eq_comm]

/-- The reader of kind `k` appends nothing but the record itself when it accepts its line. -/
def Kind.NeverOther (k : Kind) (o : RemainObj) : Prop :=
  ∀ v v', k.transStringTo (k.transToString o) v = (0, v') → ∃ o', v' = v ++ [o'] ∧ o'.Agrees o

/-- An accepted line can only be the record that was written exactly if the raw fields are clean,
or a NUL in one of them cuts the line off before its ninetieth comma, so that it is refused. -/
theorem neverOther_iff (k : Kind) (o : RemainObj) (hk : o.int .bitFlag_ = k.flag) :
    k.NeverOther o ↔ o.RawClean ∨ sepsBeforeNul o writeItems < 90 := by
  constructor
  · intro h
    rcases Nat.lt_or_ge (sepsBeforeNul o writeItems) 90 with hlt | hge
    · exact .inr hlt
    · obtain ⟨o₁, h₁⟩ := (readRecord_isOk hk).mpr hge
      obtain ⟨o', hv, hag⟩ := h [] _ (Kind.transStringTo_eq_zero.mpr
        ⟨o₁, by rw [k.transToString_eq, h₁], rfl⟩)
      cases hv
      exact .inl (rawClean_of_agrees h₁ hag)
  · intro h v v' hv
    obtain ⟨o₁, h₁, rfl⟩ := Kind.transStringTo_eq_zero.mp hv
    rw [k.transToString_eq] at h₁
    refine ⟨o₁, rfl, ?_⟩
    rcases h with h | h
    · obtain ⟨o', h', hag⟩ := readRecord_writeRecord hk h
      rw [h₁] at h'
      cases h'
      exact hag
    · have := (readRecord_isOk hk).mp ⟨o₁, h₁⟩
      omega

/-- A downstream message whose `m_strUserId` is a comma. -/
def commaMt : RemainObj := (RemainObj.new.setInt .bitFlag_ 3).setStr .m_strUserId [comma]

theorem neverOther_iff_commaMt : Kind.mt.NeverOther commaMt ↔
    commaMt.RawClean ∨ sepsBeforeNul commaMt writeItems < 90 :=
  neverOther_iff .mt commaMt (by decide)

/-- The line of `commaMt` is accepted, and what it becomes is another record. -/
theorem commaMt_becomes_other : commaMt.int .bitFlag_ = remainObjmgrMtFlag ∧ ∃ o',
    transStringToMt (transMtToString commaMt) [] = (0, [o']) ∧ ¬ o'.Agrees commaMt := by
  refine ⟨by decide, ?_⟩
  obtain ⟨o', h⟩ := (readRecord_isOk (show commaMt.int .bitFlag_ = remainObjmgrMtFlag from rfl)).mpr
    (by decide)
  refine ⟨o', Kind.transStringTo_eq_zero (k := .mt).mpr ⟨o', h, rfl⟩, fun hag => ?_⟩
  have hclean := (rawClean_of_agrees h hag).1 .m_strUserId (by decide)
  exact absurd hclean (by decide)

end Remain
end CmakeFrame
