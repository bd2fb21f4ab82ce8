import CmakeFrame.Common.Base64
import CmakeFrame.Remain.Incommon

/-!
# Retained records: `RemainObj` and its text form

`remainFile/RemainObjMgr.h` and the six `trans…` functions of `remainFile/src/RemainObjMgr.cpp`.
A record is one line: 91 fields in a fixed order, each but the last followed by a comma, the last
one by CR LF. Integers are decimal; most strings are Base64, twelve are written raw.

* `RemainObj`: the fields that the text holds, addressed by name, and `m_strFragFolder`.
* `writeItems`, `readItems`: the field sequence of the three writers (their bodies are the same
  text) and the one of the three readers (the same but for the flag they want).
* `transReToString` … `transStringToMt`: the six functions. A reader works on the C string behind
  `pBuf`; it refuses a line with a missing comma or a foreign `bitFlag_` and nothing else: the
  result of `Base64::Decode` is ignored.

The readers' first error exit, for `new RemainObj()` returning null, is left out: a failing `new`
throws.
-/

namespace CmakeFrame
namespace Remain

open Lib

/-- The `int` fields, in the order of the text. -/
inductive IntField where
  | m_nMsgFmt | bitFlag_ | m_nPkNumber | m_nPkTotal | m_nPhoneCount | m_nMsgLevel | m_nEcid
  | m_nPreNodeid | m_nLocalNodeid | m_nGateId | m_nBatchType | m_nRptFlag | m_nRptFrom
  | m_nTpudhi | m_nTppid | m_nLongMsgSeq | m_nChargeNum | m_nSignPos | m_nFileSize | m_nMmstype
  | m_nMobileCountry | m_nMobileArea | m_nMobileCity | m_nMobileType | m_nFeeFlag | m_nChargeType
  | m_nChargeRate | m_nMsgSeqId | m_nDttype | m_nSendFlag | m_nPassThrough
  deriving DecidableEq

/-- The `int64_t` fields. -/
inductive LongField where
  | m_nPtMsgId | m_nSuppMsgId | m_nInitMgsId | m_nCreateTime | m_nRecvTime | m_nRespTime
  | m_nInsertTime | m_nSubmitTime | m_nDoneTime | m_nRecvRptTime | m_nTranTime | m_nDealTime
  | m_nDeliverTime | m_nAttime | m_nValidtime | m_nMsgHashCode | m_nMwBatchId
  deriving DecidableEq

/-- The `std::string` fields of the text: all but `m_strFragFolder`. -/
inductive StrField where
  | m_strSpMsgId | m_strPtcode | m_strUserBatchId | m_strSvrType | m_strSignature
  | m_strMsgHash256 | m_strCustName | m_strAccNumber | m_strBankNumber | m_strTransSeq
  | m_strAccInfo | m_strChangeMark | m_strExitSign | m_strCustNumber | m_strDepartCode
  | m_strSignOrgcode | m_strReserve | m_strSubmitter | m_strReviewer | m_strSignStatus
  | m_strMsgSrcIp | m_strSpip | m_strUserId | m_strPhone | m_strMsgContent | m_strUserCustid
  | m_strUserExData | m_strSpNumber | m_strSpGate | m_strCpno | m_strExno | m_strServiceNo
  | m_strAuthenInfo | m_strFileName | m_strSeqNo | m_strTplid | m_strMmsTitle | m_strMmsMsgPath
  | m_strErrorCode | m_strErrorCode2 | m_strErrorMsg | m_strSubmitDate | m_strDoneDate
  deriving DecidableEq

/-- `RemainObj`. -/
structure RemainObj where
  int : IntField → Int32
  long : LongField → Int64
  str : StrField → Bytes
  m_strFragFolder : Bytes

namespace RemainObj

/-- `"ccb"`, the default folder. -/
def ccb : Bytes := [99, 99, 98]

/-- `RemainObj()`. -/
def new : RemainObj := ⟨fun _ => 0, fun _ => 0, fun _ => [], ccb⟩

def setInt (o : RemainObj) (f : IntField) (x : Int32) : RemainObj :=
  { o with int := fun g => if g = f then x else o.int g }

def setLong (o : RemainObj) (f : LongField) (x : Int64) : RemainObj :=
  { o with long := fun g => if g = f then x else o.long g }

def setStr (o : RemainObj) (f : StrField) (x : Bytes) : RemainObj :=
  { o with str := fun g => if g = f then x else o.str g }

@[simp] theorem setStr_int (o : RemainObj) (f : StrField) (x : Bytes) :
    (o.setStr f x).int = o.int := rfl

@[simp] theorem setStr_long (o : RemainObj) (f : StrField) (x : Bytes) :
    (o.setStr f x).long = o.long := rfl

theorem setStr_str (o : RemainObj) (f g : StrField) (x : Bytes) :
    (o.setStr f x).str g = if g = f then x else o.str g := rfl

/-- `o'` equals `o` in every field of the text. -/
def Agrees (o' o : RemainObj) : Prop := o'.int = o.int ∧ o'.long = o.long ∧ o'.str = o.str

end RemainObj

/-- A field with the way the text holds it. -/
inductive Item where
  /-- `sprintf "%d"`, read by `atoi`. -/
  | d (f : IntField)
  /-- `sprintf "%ld"`, read by `strtoul`. -/
  | ld (f : LongField)
  /-- `Base64::Encode`, read by `Base64::Decode`. -/
  | base64 (f : StrField)
  /-- As it is. -/
  | raw (f : StrField)
  deriving DecidableEq

/-- The separator `,`. -/
def comma : UInt8 := 44

/-! ## Writing -/

/-- The text of one field. -/
def Item.put (o : RemainObj) : Item → Bytes
  | .d f => intDec (o.int f).toInt
  | .ld f => intDec (o.long f).toInt
  | .base64 f => (Base64.encode (o.str f) []).2
  | .raw f => o.str f

/-- The fields that the writers end with a comma. -/
def writeItems : List Item :=
  [
    .ld .m_nPtMsgId, .ld .m_nSuppMsgId, .ld .m_nInitMgsId, .d .m_nMsgFmt, .d .bitFlag_,
    .d .m_nPkNumber, .d .m_nPkTotal, .d .m_nPhoneCount, .d .m_nMsgLevel, .d .m_nEcid,
    .d .m_nPreNodeid, .d .m_nLocalNodeid, .d .m_nGateId, .d .m_nBatchType, .d .m_nRptFlag,
    .d .m_nRptFrom, .d .m_nTpudhi, .d .m_nTppid, .d .m_nLongMsgSeq, .d .m_nChargeNum,
    .d .m_nSignPos, .d .m_nFileSize, .d .m_nMmstype, .d .m_nMobileCountry, .d .m_nMobileArea,
    .d .m_nMobileCity, .d .m_nMobileType, .d .m_nFeeFlag, .d .m_nChargeType, .d .m_nChargeRate,
    .d .m_nMsgSeqId, .d .m_nDttype, .d .m_nSendFlag, .d .m_nPassThrough, .ld .m_nCreateTime,
    .ld .m_nRecvTime, .ld .m_nRespTime, .ld .m_nInsertTime, .ld .m_nSubmitTime, .ld .m_nDoneTime,
    .ld .m_nRecvRptTime, .ld .m_nTranTime, .ld .m_nDealTime, .ld .m_nDeliverTime, .ld .m_nAttime,
    .ld .m_nValidtime, .ld .m_nMsgHashCode, .ld .m_nMwBatchId, .base64 .m_strSpMsgId,
    .raw .m_strPtcode, .base64 .m_strUserBatchId, .base64 .m_strSvrType, .base64 .m_strSignature,
    .base64 .m_strMsgHash256, .base64 .m_strCustName, .base64 .m_strAccNumber,
    .base64 .m_strBankNumber, .base64 .m_strTransSeq, .base64 .m_strAccInfo,
    .base64 .m_strChangeMark, .base64 .m_strExitSign, .base64 .m_strCustNumber,
    .base64 .m_strDepartCode, .base64 .m_strSignOrgcode, .base64 .m_strReserve,
    .base64 .m_strSubmitter, .base64 .m_strReviewer, .base64 .m_strSignStatus, .raw .m_strMsgSrcIp,
    .raw .m_strSpip, .raw .m_strUserId, .base64 .m_strPhone, .base64 .m_strMsgContent,
    .base64 .m_strUserCustid, .base64 .m_strUserExData, .raw .m_strSpNumber, .raw .m_strSpGate,
    .raw .m_strCpno, .raw .m_strExno, .base64 .m_strServiceNo, .base64 .m_strAuthenInfo,
    .base64 .m_strFileName, .base64 .m_strSeqNo, .base64 .m_strTplid, .base64 .m_strMmsTitle,
    .base64 .m_strMmsMsgPath, .raw .m_strErrorCode, .raw .m_strErrorCode2, .base64 .m_strErrorMsg,
    .raw .m_strSubmitDate]

/-- The common body of the writers: the fields, then `m_strDoneDate` and CR LF. -/
def writeRecord (o : RemainObj) : Bytes :=
  joinFields comma (Item.put o) writeItems (Item.put o (.raw .m_strDoneDate) ++ crlf)

def transReToString (obj : RemainObj) : Bytes := writeRecord obj

def transMoToString (obj : RemainObj) : Bytes := writeRecord obj

def transMtToString (obj : RemainObj) : Bytes := writeRecord obj

/-! ## Reading -/

/-- Sets one field. The numbers are read from `s`, that is from `pBuf` on; the strings from the
text `tok` up to the comma. -/
def Item.get (s tok : Bytes) (o : RemainObj) : Item → RemainObj
  | .d f => o.setInt f (atoi s)
  | .ld f => o.setLong f (strtoul s).toInt64
  | .base64 f => o.setStr f (Base64.decode tok []).2
  | .raw f => o.setStr f tok

/-- The fields that the readers look for a comma behind, with the error code for its absence. -/
def readItems : List (Item × Int) :=
  [
    (.ld .m_nPtMsgId, -1422), (.ld .m_nSuppMsgId, -1422), (.ld .m_nInitMgsId, -1422),
    (.d .m_nMsgFmt, -1424), (.d .bitFlag_, -1424), (.d .m_nPkNumber, -1424),
    (.d .m_nPkTotal, -1424), (.d .m_nPhoneCount, -1424), (.d .m_nMsgLevel, -1424),
    (.d .m_nEcid, -1424), (.d .m_nPreNodeid, -1424), (.d .m_nLocalNodeid, -1424),
    (.d .m_nGateId, -1424), (.d .m_nBatchType, -1424), (.d .m_nRptFlag, -1424),
    (.d .m_nRptFrom, -1424), (.d .m_nTpudhi, -1424), (.d .m_nTppid, -1424),
    (.d .m_nLongMsgSeq, -1424), (.d .m_nChargeNum, -1424), (.d .m_nSignPos, -1424),
    (.d .m_nFileSize, -1424), (.d .m_nMmstype, -1424), (.d .m_nMobileCountry, -1424),
    (.d .m_nMobileArea, -1424), (.d .m_nMobileCity, -1424), (.d .m_nMobileType, -1424),
    (.d .m_nFeeFlag, -1424), (.d .m_nChargeType, -1424), (.d .m_nChargeRate, -1424),
    (.d .m_nMsgSeqId, -1424), (.d .m_nDttype, -1424), (.d .m_nSendFlag, -1424),
    (.d .m_nPassThrough, -1424), (.ld .m_nCreateTime, -1422), (.ld .m_nRecvTime, -1422),
    (.ld .m_nRespTime, -1422), (.ld .m_nInsertTime, -1422), (.ld .m_nSubmitTime, -1422),
    (.ld .m_nDoneTime, -1422), (.ld .m_nRecvRptTime, -1422), (.ld .m_nTranTime, -1422),
    (.ld .m_nDealTime, -1422), (.ld .m_nDeliverTime, -1422), (.ld .m_nAttime, -1422),
    (.ld .m_nValidtime, -1422), (.ld .m_nMsgHashCode, -1422), (.ld .m_nMwBatchId, -1424),
    (.base64 .m_strSpMsgId, -1422), (.raw .m_strPtcode, -1422), (.base64 .m_strUserBatchId, -1422),
    (.base64 .m_strSvrType, -1422), (.base64 .m_strSignature, -1422),
    (.base64 .m_strMsgHash256, -1422), (.base64 .m_strCustName, -1422),
    (.base64 .m_strAccNumber, -1422), (.base64 .m_strBankNumber, -1422),
    (.base64 .m_strTransSeq, -1422), (.base64 .m_strAccInfo, -1422),
    (.base64 .m_strChangeMark, -1422), (.base64 .m_strExitSign, -1422),
    (.base64 .m_strCustNumber, -1422), (.base64 .m_strDepartCode, -1422),
    (.base64 .m_strSignOrgcode, -1422), (.base64 .m_strReserve, -1422),
    (.base64 .m_strSubmitter, -1422), (.base64 .m_strReviewer, -1422),
    (.base64 .m_strSignStatus, -1422), (.raw .m_strMsgSrcIp, -1422), (.raw .m_strSpip, -1422),
    (.raw .m_strUserId, -1422), (.base64 .m_strPhone, -1422), (.base64 .m_strMsgContent, -1422),
    (.base64 .m_strUserCustid, -1422), (.base64 .m_strUserExData, -1422),
    (.raw .m_strSpNumber, -1422), (.raw .m_strSpGate, -1422), (.raw .m_strCpno, -1422),
    (.raw .m_strExno, -1422), (.base64 .m_strServiceNo, -1422), (.base64 .m_strAuthenInfo, -1422),
    (.base64 .m_strFileName, -1422), (.base64 .m_strSeqNo, -1422), (.base64 .m_strTplid, -1422),
    (.base64 .m_strMmsTitle, -1422), (.base64 .m_strMmsMsgPath, -1422),
    (.raw .m_strErrorCode, -1422), (.raw .m_strErrorCode2, -1422), (.base64 .m_strErrorMsg, -1422),
    (.raw .m_strSubmitDate, -1422)]

/-- One field of a reader that wants `bitFlag_` to be `flag`. -/
def readItem (flag : Int32) (step : Item × Int) (s tok : Bytes) (o : RemainObj) :
    Except Int RemainObj :=
  let o := step.1.get s tok o
  if step.1 = .d .bitFlag_ ∧ o.int .bitFlag_ ≠ flag then .error (-1426) else .ok o

/-- The common body of the readers. The last field reaches to CR LF, or to the end of the text. -/
def readRecord (flag : Int32) (pBuf : Bytes) : Except Int RemainObj :=
  match readFields comma (readItem flag) Prod.snd readItems (cstr pBuf) .new with
  | .error e => .error e
  | .ok (s, o) =>
    let bufLen := (strFirstConstStr s crlf).getD s.length
    .ok (o.setStr .m_strDoneDate (s.take bufLen))

/-- The end of a reader: `objVect.push_back(reObj); return 0`, or an early return. -/
def pushObj (r : Except Int RemainObj) (objVect : List RemainObj) : Int × List RemainObj :=
  match r with
  | .error e => (e, objVect)
  | .ok o => (0, objVect ++ [o])

/-- `REMAIN_OBJMGR_RE_FLAG`, `REMAIN_OBJMGR_MO_FLAG`, `REMAIN_OBJMGR_MT_FLAG`. -/
def remainObjmgrReFlag : Int32 := 1
def remainObjmgrMoFlag : Int32 := 2
def remainObjmgrMtFlag : Int32 := 3

def transStringToRe (pBuf : Bytes) (objVect : List RemainObj) : Int × List RemainObj :=
  pushObj (readRecord remainObjmgrReFlag pBuf) objVect

def transStringToMo (pBuf : Bytes) (objVect : List RemainObj) : Int × List RemainObj :=
  pushObj (readRecord remainObjmgrMoFlag pBuf) objVect

def transStringToMt (pBuf : Bytes) (objVect : List RemainObj) : Int × List RemainObj :=
  pushObj (readRecord remainObjmgrMtFlag pBuf) objVect

/-! ## The three kinds of record -/

/-- Status reports, upstream and downstream messages. -/
inductive Kind where
  | re | mo | mt
  deriving DecidableEq

namespace Kind

def flag : Kind → Int32
  | re => remainObjmgrReFlag
  | mo => remainObjmgrMoFlag
  | mt => remainObjmgrMtFlag

def transToString : Kind → RemainObj → Bytes
  | re => transReToString
  | mo => transMoToString
  | mt => transMtToString

def transStringTo : Kind → Bytes → List RemainObj → Int × List RemainObj
  | re => transStringToRe
  | mo => transStringToMo
  | mt => transStringToMt

theorem transToString_eq (k : Kind) (o : RemainObj) : k.transToString o = writeRecord o := by
  cases k <;> rfl

theorem transStringTo_eq (k : Kind) (pBuf : Bytes) (v : List RemainObj) :
    k.transStringTo pBuf v = pushObj (readRecord k.flag pBuf) v := by
  cases k <;> rfl

end Kind

end Remain
end CmakeFrame
