import CmakeFrame.Lib.Separated
import CmakeFrame.MsgFile.DetailQueue
import CmakeFrame.Remain.Incommon
import CmakeFrame.Remain.RoundTrip

/-!
# `msgFile/DetailFileSys.cpp`: the text of a record

`writeMoinfoMsgfile` and `writeMtinfoMsgfile` make a line of a protocol object: columns with a comma
between them, some of them in Base64, and a line end.

* `Column`: what an accessor gives, and how it is written.
* `Call`: a call of either function; `row` is its kind and its columns, `info` what goes to
  `writeFileSys`.
* `readDetails`: the lines of the files of one kind, cut into columns.
* `details_read_back`: the columns are read back exactly when those that stand raw are clean.

The classes of the protocol objects and the macros for the flags of `MoProtocol` are in files that are
not there.
-/

namespace CmakeFrame
namespace MsgFile

open Lib

/-! ## Columns -/

/-- The ways to write a column. -/
inductive ColumnKind where
  /-- `%ld` of the eight bytes of an id. -/
  | msgId
  | raw
  | base64
  /-- `%d`. -/
  | num
  deriving DecidableEq, Repr

inductive Column where
  | msgId (id : Vector UInt8 8)
  | raw (s : Bytes)
  | base64 (s : Bytes)
  | num (n : Int32)
  deriving DecidableEq, Repr

namespace Column

def kind : Column → ColumnKind
  | .msgId _ => .msgId
  | .raw _ => .raw
  | .base64 _ => .base64
  | .num _ => .num

/-- What is appended. `baseResult` is empty before each `Encode`. -/
def put : Column → Bytes
  | .msgId id => intDec (Remain.TranMsgIdCharToI64 id).toInt
  | .raw s => s
  | .base64 s => (Base64.encode s []).2
  | .num n => intDec n.toInt

/-- Only a raw column can bring a separator into the text. -/
def Clean : Column → Prop
  | .raw s => Remain.comma ∉ s ∧ ¬ crlf <:+: s
  | _ => True

end Column

/-- The way back, by the inverse of each. -/
def ColumnKind.get (s : Bytes) : ColumnKind → Column
  | .msgId => .msgId (Remain.TranMsgIdI64ToChar (strtoul s).toInt64)
  | .raw => .raw s
  | .base64 => .base64 (Base64.decode s []).2
  | .num => .num (atoi s)

theorem Column.get_put (c : Column) : c.kind.get c.put = c := by
  have hend : EndsNumber [] := nofun
  cases c with
  | msgId id =>
    have h := toInt64_strtoul_intDec (Remain.TranMsgIdCharToI64 id) hend
    rw [List.append_nil] at h
    simp only [kind, put, ColumnKind.get, h, Remain.TranMsgIdI64ToChar_CharToI64]
  | raw s => rfl
  | base64 s => simp only [kind, put, ColumnKind.get, Remain.decode_encode_snd]
  | num n =>
    have h := atoi_intDec n hend
    rw [List.append_nil] at h
    simp only [kind, put, ColumnKind.get, h]

theorem Column.clean_iff (c : Column) : Remain.comma ∉ c.put ∧ ¬ crlf <:+: c.put ↔ c.Clean := by
  have hint (z : Int) : Remain.comma ∉ intDec z ∧ ¬ crlf <:+: intDec z :=
    ⟨Remain.notMem_intDec (by decide) (by decide) z, fun h =>
      Remain.notMem_intDec (c := 10) (by decide) (by decide) z (h.subset (by decide))⟩
  cases c with
  | msgId id => exact iff_of_true (hint _) trivial
  | raw s => exact Iff.rfl
  | base64 s =>
    rw [put, Remain.encode_snd]
    exact iff_of_true ⟨Base64.notMem_encodeLoop (by decide) (by decide) s, fun h =>
      Base64.notMem_encodeLoop (c := 10) (by decide) (by decide) s (h.subset (by decide))⟩ trivial
  | num n => exact iff_of_true (hint _) trivial

/-! ## A line -/

/-- `msgDetail` without its line end. -/
def columnsText (cols : List Column) : Bytes := [Remain.comma].intercalate (cols.map Column.put)

/-- The line of a file, as a reader that knows its kind takes it. -/
def readLine (kinds : List ColumnKind) (line : Bytes) : Option (List Column) :=
  let texts := line.splitOn Remain.comma
  if texts.length = kinds.length then some (List.zipWith ColumnKind.get texts kinds) else none

theorem crlf_columnsText_iff (cols : List Column) :
    crlf <:+: columnsText cols ↔ ∃ c ∈ cols, crlf <:+: c.put := by
  rw [columnsText, infix_intercalate_iff (by decide) (by decide)]
  simp only [List.mem_map, exists_exists_and_eq_and]

theorem readLine_columnsText {cols : List Column} (hne : cols ≠ []) :
    readLine (cols.map Column.kind) (columnsText cols) = some cols ↔
      ∀ c ∈ cols, Remain.comma ∉ c.put := by
  have hmap : cols.map Column.put ≠ [] := by simpa using hne
  have hlen := length_splitOn_intercalate_iff (x := Remain.comma) hmap
  rw [List.length_map, List.forall_mem_map] at hlen
  constructor
  · intro h
    refine hlen.mp ?_
    simp only [readLine, List.length_map, Option.ite_none_right_eq_some] at h
    exact h.1
  · intro h
    rw [readLine, columnsText, List.splitOn_intercalate _ (List.forall_mem_map.mpr h) hmap,
      if_pos (by simp), List.zipWith_map, List.zipWith_self]
    simp [Column.get_put]

/-! ## The functions -/

/-- `moProtocolFlag`. -/
inductive MoFlag where
  | MO_PROTOCOL_REPORT_TYPE
  | MO_PROTOCOL_SMS_TYPE
  | unknow
  deriving DecidableEq, Repr

/-- What the accessors of a `MoProtocolPtr` give. -/
structure MoProtocol where
  moProtocolFlag : MoFlag
  moProtocolMsgId : Vector UInt8 8
  moProtocolUserId : Bytes
  moProtocolStrPhone : Bytes
  moProtocolSpgateNo : Bytes
  moProtocolExNo : Bytes
  moProtocolCustid : Bytes
  moProtocolUserExdata : Bytes
  moProtocolState : Bytes
  moProtocolSendTime : Bytes
  moProtocolRecvTime : Bytes
  moProtocolPkNum : Int32
  moProtocolPkTotal : Int32
  moProtocolMsgFmt : Int32
  moProtocolMsgContent : Bytes
  deriving DecidableEq, Repr

/-- What the accessors of a `MtProtocolPtr` give. -/
structure MtProtocol where
  mtProtocolMsgId : Vector UInt8 8
  mtProtocolUserId : Bytes
  mtProtocolPhoneCount : Int32
  mtProtocolStrPhone : Bytes
  mtProtocolSpgateNo : Bytes
  mtProtocolStrExNo : Bytes
  mtProtocolCustid : Bytes
  mtProtocolUserExdata : Bytes
  mtProtocolUserIpaddr : Bytes
  mtProtocolMsgFmt : Int32
  mtProtocolMsgContent : Bytes
  deriving DecidableEq, Repr

def MoProtocol.report (mo : MoProtocol) : List Column :=
  [.msgId mo.moProtocolMsgId, .raw mo.moProtocolUserId, .base64 mo.moProtocolStrPhone,
    .raw mo.moProtocolSpgateNo, .raw mo.moProtocolExNo, .base64 mo.moProtocolCustid,
    .base64 mo.moProtocolUserExdata, .raw mo.moProtocolState, .raw mo.moProtocolSendTime,
    .raw mo.moProtocolRecvTime, .num mo.moProtocolPkNum, .num mo.moProtocolPkTotal]

def MoProtocol.sms (mo : MoProtocol) : List Column :=
  [.msgId mo.moProtocolMsgId, .raw mo.moProtocolUserId, .base64 mo.moProtocolStrPhone,
    .raw mo.moProtocolSpgateNo, .raw mo.moProtocolExNo, .raw mo.moProtocolSendTime,
    .raw mo.moProtocolRecvTime, .num mo.moProtocolMsgFmt, .base64 mo.moProtocolMsgContent]

def MtProtocol.columns (mt : MtProtocol) : List Column :=
  [.msgId mt.mtProtocolMsgId, .raw mt.mtProtocolUserId, .num mt.mtProtocolPhoneCount,
    .base64 mt.mtProtocolStrPhone, .raw mt.mtProtocolSpgateNo, .raw mt.mtProtocolStrExNo,
    .base64 mt.mtProtocolCustid, .base64 mt.mtProtocolUserExdata, .raw mt.mtProtocolUserIpaddr,
    .num mt.mtProtocolMsgFmt, .base64 mt.mtProtocolMsgContent]

/-- What `writeFileSys` is called with. An unknown flag is only reported. -/
def writeMoinfoMsgfile (mo : MoProtocol) (flag : Int) : Option DetailInfo :=
  match mo.moProtocolFlag with
  | .MO_PROTOCOL_REPORT_TYPE =>
    some ⟨if flag = 0 then .recvRe else .sendRe, columnsText mo.report ++ crlf⟩
  | .MO_PROTOCOL_SMS_TYPE =>
    some ⟨if flag = 0 then .recvMo else .sendMo, columnsText mo.sms ++ crlf⟩
  | .unknow => none

def writeMtinfoMsgfile (mt : MtProtocol) (flag : Int) : DetailInfo :=
  ⟨if flag = 0 then .recvMsg else .mtMsg, columnsText mt.columns ++ crlf⟩

inductive Call where
  | mo (mo : MoProtocol) (flag : Int)
  | mt (mt : MtProtocol) (flag : Int)
  deriving DecidableEq, Repr

def Call.info : Call → Option DetailInfo
  | .mo p flag => writeMoinfoMsgfile p flag
  | .mt p flag => some (writeMtinfoMsgfile p flag)

/-- The columns of a call, with their kind of file. -/
def Call.row : Call → Option (DETAILTYPE × List Column)
  | .mo p flag =>
    match p.moProtocolFlag with
    | .MO_PROTOCOL_REPORT_TYPE => some (if flag = 0 then .recvRe else .sendRe, p.report)
    | .MO_PROTOCOL_SMS_TYPE => some (if flag = 0 then .recvMo else .sendMo, p.sms)
    | .unknow => none
  | .mt p flag => some (if flag = 0 then .recvMsg else .mtMsg, p.columns)

theorem Call.info_eq (c : Call) :
    c.info = c.row.map fun (type, cols) => ⟨type, columnsText cols ++ crlf⟩ := by
  cases c with
  | mo p flag =>
    rw [info, row, writeMoinfoMsgfile]
    cases p.moProtocolFlag <;> rfl
  | mt p flag => rfl

/-! ## The files -/

/-- The columns of the lines of a kind. -/
def DETAILTYPE.kinds : DETAILTYPE → List ColumnKind
  | .recvRe | .sendRe =>
    [.msgId, .raw, .base64, .raw, .raw, .base64, .base64, .raw, .raw, .raw, .num, .num]
  | .recvMo | .sendMo => [.msgId, .raw, .base64, .raw, .raw, .raw, .raw, .num, .base64]
  | .recvMsg | .mtMsg =>
    [.msgId, .raw, .num, .base64, .raw, .raw, .base64, .base64, .raw, .num, .base64]
  | .unknow => []

theorem Call.kinds_row {c : Call} {type : DETAILTYPE} {cols : List Column} (h : c.row = some (type, cols)) :
    cols.map Column.kind = type.kinds ∧ cols ≠ [] := by
  cases c with
  | mo p flag =>
    rw [row] at h
    split at h <;> cases h
    · split <;> exact ⟨rfl, List.cons_ne_nil _ _⟩
    · split <;> exact ⟨rfl, List.cons_ne_nil _ _⟩
  | mt p flag =>
    cases h
    split <;> exact ⟨rfl, List.cons_ne_nil _ _⟩

/-- The text of the calls that go to the files of kind `type`. -/
def detailsText (type : DETAILTYPE) (calls : List Call) : Bytes :=
  ((calls.filterMap Call.info).filter (·.type = type)).flatMap DetailInfo.detail

def detailRows (type : DETAILTYPE) (calls : List Call) : List (List Column) :=
  ((calls.filterMap Call.row).filter (·.1 = type)).map Prod.snd

/-- The lines of a text, cut into the columns of a kind. -/
def readDetails (type : DETAILTYPE) (text : Bytes) : Option (List (List Column)) :=
  (lines text).mapM (readLine type.kinds)

theorem detailsText_eq (type : DETAILTYPE) (calls : List Call) : detailsText type calls =
    ((detailRows type calls).map columnsText).flatMap (· ++ crlf) := by
  have hinfo : calls.filterMap Call.info =
      (calls.filterMap Call.row).map fun (type, cols) => ⟨type, columnsText cols ++ crlf⟩ := by
    rw [List.map_filterMap]
    exact List.filterMap_congr fun c _ => c.info_eq
  rw [detailsText, detailRows, hinfo, List.filter_map, List.flatMap_map, List.flatMap_map,
    List.flatMap_map]
  rfl

theorem kinds_detailRows {type : DETAILTYPE} {calls : List Call} {cols : List Column}
    (h : cols ∈ detailRows type calls) : cols.map Column.kind = type.kinds ∧ cols ≠ [] := by
  obtain ⟨⟨t, cols'⟩, hrow, rfl⟩ := List.mem_map.mp h
  obtain ⟨hrow, ht⟩ := List.mem_filter.mp hrow
  obtain ⟨c, -, hc⟩ := List.mem_filterMap.mp hrow
  obtain rfl := of_decide_eq_true ht
  exact Call.kinds_row hc

/-- The columns are read back exactly when no raw column holds a comma or a line end. -/
theorem details_read_back (type : DETAILTYPE) (calls : List Call) :
    readDetails type (detailsText type calls) = some (detailRows type calls) ↔
      ∀ cols ∈ detailRows type calls, ∀ c ∈ cols, c.Clean := by
  have hlines := length_lines_flatMap_iff ((detailRows type calls).map columnsText)
  have hclean (cols : List Column) : (∀ c ∈ cols, c.Clean) ↔
      (∀ c ∈ cols, Remain.comma ∉ c.put) ∧ ¬ crlf <:+: columnsText cols := by
    rw [crlf_columnsText_iff]
    simp only [← Column.clean_iff, not_exists, not_and]
    exact forall₂_and
  have hread (cols : List Column) (hcols : cols ∈ detailRows type calls) :
      readLine type.kinds (columnsText cols) = some cols ↔ ∀ c ∈ cols, Remain.comma ∉ c.put := by
    rw [← (kinds_detailRows hcols).1]
    exact readLine_columnsText (kinds_detailRows hcols).2
  rw [readDetails, detailsText_eq, mapM_eq_some_iff]
  -- Either side makes the lines those that were written.
  have hsame (h : ∀ cols ∈ detailRows type calls, ¬ crlf <:+: columnsText cols) :
      lines (((detailRows type calls).map columnsText).flatMap (· ++ crlf)) =
        (detailRows type calls).map columnsText := by
    have := (lines_join (List.forall_mem_map.mpr h) (t := []) (by decide)).1
    rwa [List.append_nil] at this
  constructor
  · intro h
    have hlen := h.length_eq
    rw [← List.length_map (f := columnsText), hlines, List.forall_mem_map] at hlen
    rw [hsame hlen, List.forall₂_map_left_iff, List.forall₂_same] at h
    exact fun cols hcols => (hclean cols).mpr ⟨(hread cols hcols).mp (h cols hcols), hlen cols hcols⟩
  · intro h
    rw [hsame fun cols hcols => ((hclean cols).mp (h cols hcols)).2, List.forall₂_map_left_iff,
      List.forall₂_same]
    exact fun cols hcols => (hread cols hcols).mpr ((hclean cols).mp (h cols hcols)).1

end MsgFile
end CmakeFrame
