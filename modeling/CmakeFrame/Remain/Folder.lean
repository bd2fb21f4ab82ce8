import CmakeFrame.Remain.Lines
import CmakeFrame.Remain.Limits

/-!
# The folder of a record that is read and written again

`RemainObjMgr::writeRemainObject` and `readRemainObject` of `remainFile/src/RemainObjMgr.cpp`. The
folder is a member of the object, but no part of its text, and no reader sets it.

* `writeRemainObject`, `writeRemainObjectBak`, `readRemainObject`.
* `writeFolder`: the folder of the `WriteFileMgr` that gets the record;
  `writeRemainObject_eq`: that is the one whose files change.
* `fragFolder_of_read`: an object that was read has the default folder.
* `retry_folder_iff`: an object that was read from a folder is written to it again exactly if it is
  the default one.
-/

namespace CmakeFrame
namespace Remain

open Lib

/-! ## `RemainObjMgr` -/

/-- The members of `RemainObjMgr` that its functions look at. -/
structure RemainObjMgr where
  isInit_ : Bool
  isExit_ : Bool

namespace RemainObjMgr

variable (localtime : UInt64 → Tm)

/-- The body of `writeRemainObject` and `writeRemainObjectBak`: `empty` are the codes for a text that
came out empty, `badFlag` the one for a foreign `bitFlag_`. -/
def writeObject (empty : Kind → Int) (badFlag : Int)
    (write : Int32 → Bytes → Bytes → RemainMgr → Disk FileName → Int × RemainMgr × Disk FileName)
    (om : RemainObjMgr) (obj : RemainObj) (g : RemainMgr) (d : Disk FileName) :
    Int × RemainMgr × Disk FileName :=
  if om.isInit_ = false then (-1429, g, d)
  else if om.isExit_ then (-141, g, d)
  else
    match kindOf (obj.int .bitFlag_) with
    | none => (badFlag, g, d)
    | some k =>
      let msgDetail := k.transToString obj
      if msgDetail = [] then (empty k, g, d)
      else write (obj.int .bitFlag_) obj.m_strFragFolder msgDetail g d

def writeRemainObject (shareIo localIo : WriteIo) (om : RemainObjMgr) (obj : RemainObj)
    (g : RemainMgr) (d : Disk FileName) : Int × RemainMgr × Disk FileName :=
  om.writeObject (fun | .re => -1414 | .mo => -1415 | .mt => -1416) (-145)
    (fun bitFlag f data => RemainMgr.writeRemainFile localtime bitFlag f data shareIo localIo) obj g d

def writeRemainObjectBak (shareIo localIo : WriteIo) (om : RemainObjMgr) (obj : RemainObj)
    (g : RemainMgr) (d : Disk FileName) : Int × RemainMgr × Disk FileName :=
  om.writeObject (fun | .re => -1417 | .mo => -1418 | .mt => -1419) (-144)
    (fun bitFlag f data => RemainMgr.writeRemainFileBak localtime bitFlag f data shareIo localIo)
    obj g d

/-- `readRemainObject(bitFlag, objVect, fragFolder)`. `file` is what `RemainMgr::readRemainFile`
returned for the folder, with the text of the file it read. -/
def readRemainObject (om : RemainObjMgr) (bitFlag : Int32) (fragFolder : Bytes) (file : Int × Bytes)
    (objVect : List RemainObj) : TransState :=
  if om.isInit_ = false then ⟨-1429, objVect, []⟩
  else if om.isExit_ then ⟨-141, objVect, []⟩
  else if file.1 < 0 then ⟨file.1, objVect, []⟩
  else transStringToObject bitFlag fragFolder file.2 objVect

end RemainObjMgr

/-! ## Where a record goes -/

/-- `folderFragName()` of the `WriteFileMgr` that `RemainMgr` hands the record to. -/
def writeFolder (g : RemainMgr) (obj : RemainObj) : Bytes :=
  (g.fileMgr obj.m_strFragFolder).fragFolder_

theorem transToString_ne_nil (k : Kind) (o : RemainObj) : k.transToString o ≠ [] := by
  rw [k.transToString_eq, writeRecord_eq_lineOf]
  simp [crlf]

theorem flagOf_flag (k : Kind) : ∃ flag, flagOf false k.flag = some flag := by
  cases k <;> exact ⟨_, rfl⟩

/-- A record of one of the three kinds is handed on with its text. -/
theorem RemainObjMgr.writeObject_eq {om : RemainObjMgr} (hinit : om.isInit_ = true)
    (hexit : om.isExit_ = false) (empty : Kind → Int) (badFlag : Int)
    (write : Int32 → Bytes → Bytes → RemainMgr → Disk FileName → Int × RemainMgr × Disk FileName)
    {k : Kind} {obj : RemainObj} (hk : obj.int .bitFlag_ = k.flag) (g : RemainMgr)
    (d : Disk FileName) :
    om.writeObject empty badFlag write obj g d =
      write k.flag obj.m_strFragFolder (k.transToString obj) g d := by
  unfold RemainObjMgr.writeObject
  rw [hinit, hexit, hk, kindOf_flag]
  simp only [transToString_ne_nil, if_false]
  rfl

/-- A record of one of the three kinds goes to the manager of its `writeFolder`, and no other
folder's manager changes. -/
theorem writeRemainObject_eq (localtime : UInt64 → Tm) (shareIo localIo : WriteIo) {om : RemainObjMgr}
    (hinit : om.isInit_ = true) (hexit : om.isExit_ = false) {g : RemainMgr} (hg : Limits.Inv g)
    {k : Kind} {obj : RemainObj} (hk : obj.int .bitFlag_ = k.flag) (d : Disk FileName) :
    ∃ flag, om.writeRemainObject localtime shareIo localIo obj g d =
      let r := (g.fileMgr (writeFolder g obj)).writeToFile localtime flag shareIo localIo
        (k.transToString obj) d
      (r.1, g.put (writeFolder g obj) r.2.1, r.2.2) := by
  obtain ⟨flag, hflag⟩ := flagOf_flag k
  refine ⟨flag, ?_⟩
  rw [show writeFolder g obj = obj.m_strFragFolder from (hg.fileMgr _).2]
  unfold RemainObjMgr.writeRemainObject
  rw [RemainObjMgr.writeObject_eq hinit hexit _ _ _ hk]
  exact RemainMgr.writeFile_eq localtime hg.isInit hg.isExit hflag _ _ _ shareIo localIo d

/-! ## What a read returns -/

theorem Item.get_fragFolder (s tok : Bytes) (o : RemainObj) (it : Item) :
    (it.get s tok o).m_strFragFolder = o.m_strFragFolder := by
  cases it <;> rfl

/-- A reader leaves the folder at its default. -/
theorem fragFolder_of_readRecord {flag : Int32} {pBuf : Bytes} {o : RemainObj}
    (h : readRecord flag pBuf = .ok o) : o.m_strFragFolder = RemainObj.ccb := by
  unfold readRecord at h
  split at h
  · cases h
  · rename_i s o₁ hread
    cases h
    show o₁.m_strFragFolder = RemainObj.new.m_strFragFolder
    refine readFields_frame RemainObj.m_strFragFolder (fun st _ s t o o' ho => ?_) hread
    simp only [readItem] at ho
    split at ho
    · cases ho
    · cases ho
      exact Item.get_fragFolder ..

theorem fragFolder_of_transLine {k : Kind} {f : Bytes} {st : TransState} {line : Bytes}
    {o : RemainObj} (h : o ∈ (transLine k f st line).objVect) :
    o ∈ st.objVect ∨ o.m_strFragFolder = RemainObj.ccb := by
  simp only [transLine] at h
  split at h
  · rw [k.transStringTo_eq] at h
    cases hr : readRecord k.flag (line ++ List.replicate (3072 - line.length) 0) with
    | error e =>
      rw [hr] at h
      exact .inl h
    | ok o' =>
      rw [hr] at h
      rcases List.mem_append.mp h with h | h
      · exact .inl h
      · rw [List.mem_singleton.mp h]
        exact .inr (fragFolder_of_readRecord hr)
  · exact .inl h

theorem fragFolder_of_foldl {k : Kind} {f : Bytes} {ls : List Bytes} {st : TransState}
    {o : RemainObj} (h : o ∈ (ls.foldl (transLine k f) st).objVect) :
    o ∈ st.objVect ∨ o.m_strFragFolder = RemainObj.ccb := by
  induction ls generalizing st with
  | nil => exact .inl h
  | cons l ls ih =>
    rcases ih h with h | h
    · exact fragFolder_of_transLine h
    · exact .inr h

/-- An object that a read returns has the default folder, whichever folder it was read from. -/
theorem fragFolder_of_read {om : RemainObjMgr} {bitFlag : Int32} {f : Bytes} {file : Int × Bytes}
    {o : RemainObj} (h : o ∈ (om.readRemainObject bitFlag f file []).objVect) :
    o.m_strFragFolder = RemainObj.ccb := by
  unfold RemainObjMgr.readRemainObject at h
  split at h
  · cases h
  · split at h
    · cases h
    · split at h
      · cases h
      · unfold transStringToObject at h
        split at h
        · cases h
        · split at h
          · cases h
          · rw [transLoop_eq] at h
            rcases fragFolder_of_foldl h with h | h
            · cases h
            · exact h

/-- An object that was read back from the folder of `o` is written to that folder again exactly if
it is the default folder. -/
theorem retry_folder_iff (localtime : UInt64 → Tm) (gateNo maxCount outSeconds : Int32)
    (sharePath localPath exePath : Bytes) (ops : List Limits.Op) (om : RemainObjMgr)
    (o o' : RemainObj) (file : Int × Bytes)
    (ho' : o' ∈ (om.readRemainObject (o.int .bitFlag_) o.m_strFragFolder file []).objVect) :
    let g := (Limits.run localtime
      (Limits.start gateNo maxCount outSeconds sharePath localPath exePath) ops).g
    writeFolder g o' = o.m_strFragFolder ↔ o.m_strFragFolder = RemainObj.ccb := by
  intro g
  have hg : Limits.Inv g := Limits.run_inv
    (Limits.start_inv gateNo maxCount outSeconds sharePath localPath exePath) ops
  rw [writeFolder, (hg.fileMgr _).2, fragFolder_of_read ho']
  exact eq_comm

/-- A downstream message in the folder `abc`. -/
def abcMt : RemainObj :=
  { RemainObj.new.setInt .bitFlag_ 3 with m_strFragFolder := [97, 98, 99] }

/-- The message of `abcMt`, read back. -/
theorem read_abcMt : ∃ o',
    RemainObjMgr.readRemainObject ⟨true, false⟩ (abcMt.int .bitFlag_) abcMt.m_strFragFolder
      (0, transMtToString abcMt) [] = ⟨0, [o'], []⟩ ∧ o'.Agrees abcMt := by
  have hraw : abcMt.RawPlain := by decide
  obtain ⟨o', ho', hag⟩ := transLine_lineOf (k := .mt) (o := abcMt) rfl hraw (by decide +kernel)
    abcMt.m_strFragFolder ⟨0, [], []⟩
  refine ⟨o', ?_, hag⟩
  have h := transStringToObject_encoded .mt (List.cons_ne_nil abcMt []) (by simpa using hraw)
    abcMt.m_strFragFolder []
  rw [List.map_singleton, List.foldl_cons, List.foldl_nil, ho'] at h
  rw [List.flatMap_cons, List.flatMap_nil, List.append_nil] at h
  rw [RemainObjMgr.readRemainObject, if_neg (by simp), if_neg (by simp), if_neg (by simp),
    show abcMt.int .bitFlag_ = Kind.mt.flag from rfl]
  exact h

theorem retry_folder_iff_abcMt : ∃ o',
    o' ∈ (RemainObjMgr.readRemainObject ⟨true, false⟩ (abcMt.int .bitFlag_) abcMt.m_strFragFolder
      (0, transMtToString abcMt) []).objVect ∧
    (writeFolder (Limits.run (fun _ => ⟨1, 1, 0, 0, 0⟩) (Limits.start 7 50 60 [115] [108] []) []).g o' =
      abcMt.m_strFragFolder ↔ abcMt.m_strFragFolder = RemainObj.ccb) := by
  obtain ⟨o', ho', -⟩ := read_abcMt
  have hm : o' ∈ (RemainObjMgr.readRemainObject ⟨true, false⟩ (abcMt.int .bitFlag_)
      abcMt.m_strFragFolder (0, transMtToString abcMt) []).objVect := by
    rw [ho']
    exact List.mem_singleton_self o'
  exact ⟨o', hm, retry_folder_iff (fun _ => ⟨1, 1, 0, 0, 0⟩) 7 50 60 [115] [108] [] [] ⟨true, false⟩
    abcMt o' _ hm⟩

/-- `abcMt`, stored in its folder, read back from there and written again, goes to `ccb`. -/
theorem abcMt_changes_folder : ∃ o',
    RemainObjMgr.readRemainObject ⟨true, false⟩ (abcMt.int .bitFlag_) abcMt.m_strFragFolder
      (0, transMtToString abcMt) [] = ⟨0, [o'], []⟩ ∧ o'.Agrees abcMt ∧
    let g := RemainMgr.init 7 50 60 [115] [108] []
    writeFolder g abcMt = [97, 98, 99] ∧ writeFolder g o' = [99, 99, 98] := by
  obtain ⟨o', ho', hag⟩ := read_abcMt
  have hf : o'.m_strFragFolder = RemainObj.ccb := by
    have hm : o' ∈ (RemainObjMgr.readRemainObject ⟨true, false⟩ (abcMt.int .bitFlag_)
        abcMt.m_strFragFolder (0, transMtToString abcMt) []).objVect := by
      rw [ho']
      exact List.mem_singleton_self o'
    exact fragFolder_of_read hm
  refine ⟨o', ho', hag, by decide, ?_⟩
  rw [writeFolder, hf]
  decide

end Remain
end CmakeFrame
