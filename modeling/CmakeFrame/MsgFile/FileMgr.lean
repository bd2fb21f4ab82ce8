import CmakeFrame.Lib.Disk
import CmakeFrame.Lib.Sys

/-!
# `msgFile/FileMgr.{h,cpp}`: a record file and its rotation

A `FileMgr` appends records to one file, `….txt`, and renames it to `…_ok.txt` when it goes on to the
next one. The name of a file is the day, the hour and the millisecond of the day at which it was
opened.

* `GenFileId`, `GenDirId`: the names, from the clock.
* `FileMgr.ApplyFileInfo`, `WriteToFile`, `SwitchToNewFile`, `Close`, `updateGenFreq`,
  `updateMaxFileSize`, `ReadFromFile`.
* `fileSystem`: any sequence of calls, under a clock that does not go back.

What the operating system answers is an argument, and so is `localtime_r`. A name is a value of its
own, `FileName`, not its text. `opens` says whether `GetFilePtr` gives a stream. Its buffer has 256
bytes and cuts a longer name, which the names here do not show: `PathFits` says that the folder of
`ApplyFileInfo` leaves room for the rest, and the conditions on a call ask for it.
-/

namespace CmakeFrame
namespace MsgFile

open Lib

/-! ## Names -/

/-- The members of `struct tm` that a name shows. -/
structure Tm where
  tm_year : Int
  tm_mon : Int
  tm_mday : Int
  tm_hour : Int
  tm_min : Int
  tm_sec : Int
  deriving DecidableEq, Repr

/-- `.txt`, `_ok.txt` and `_bak.txt`. -/
inductive Suffix where
  | txt
  | ok
  | bak
  deriving DecidableEq, Repr

/-- `path/YYYY/MM/DD/HH/fileId` and the suffix. -/
structure FileName where
  path : Bytes
  yyyymmdd : Int
  hour : Int
  fileId : Int
  suffix : Suffix
  deriving DecidableEq, Repr

/-- The buffer of `GetFilePtr` has room for the folder, five bytes of the year, three each of the
month, the day and the hour, 14 of the file and the NUL. -/
def PathFits (path : Bytes) : Prop := path.length + 28 < 256

instance (path : Bytes) : Decidable (PathFits path) := inferInstanceAs (Decidable (_ < _))

/-- `GenFileId`, when `gettimeofday` gives `ms` milliseconds. -/
def GenFileId (localtime_r : Nat → Tm) (ms : Nat) : Int :=
  let tm_time := localtime_r (ms / 1000)
  tm_time.tm_hour * 10000000 + tm_time.tm_min * 100000 + tm_time.tm_sec * 1000 + (ms % 1000 : Nat)

/-- `GenDirId`, when the clock shows `ms` milliseconds: the day and the hour. -/
def GenDirId (localtime_r : Nat → Tm) (ms : Nat) : Int × Int :=
  let tm_time := localtime_r (ms / 1000)
  ((tm_time.tm_year + 1900) * 10000 + (tm_time.tm_mon + 1) * 100 + tm_time.tm_mday,
    tm_time.tm_hour)

/-! ## The calls -/

/-- The members. `fp_` is the number of the open file. -/
structure FileMgr where
  path_ : Bytes
  fp_ : Option Nat
  maxFileSize_ : Int
  genFreq_ : Int
  yyyymmdd_ : Int
  hour_ : Int
  fileId_ : Int
  curPos_ : Int32
  lastSwitch_ : Nat
  bApply_ : Bool
  deriving DecidableEq, Repr

/-- When the clock is read, in milliseconds: by `GenDirId`, by the test of `genFreq_`, by `GenFileId`
and for `lastSwitch_`. -/
structure Times where
  dir : Nat
  freq : Nat
  file : Nat
  switch : Nat
  deriving DecidableEq, Repr

/-- The clock does not go back. -/
def Times.From (now : Nat) (t : Times) : Prop :=
  now ≤ t.dir ∧ t.dir ≤ t.freq ∧ t.freq ≤ t.file ∧ t.file ≤ t.switch

instance (now : Nat) (t : Times) : Decidable (t.From now) := by
  unfold Times.From
  infer_instance

/-- How `fwrite` and `fflush` come out. When they fail, `k` bytes of the record are in the file by the
time it is closed. -/
inductive WriteIo where
  | done
  | short (k : Nat)
  | unflushed (k : Nat)
  deriving DecidableEq, Repr

namespace FileMgr

variable (localtime_r : Nat → Tm)

/-- The constructor. -/
def new (t : Times) : FileMgr :=
  ⟨[], none, 20, 60, (GenDirId localtime_r t.dir).1, (GenDirId localtime_r t.dir).2,
    GenFileId localtime_r t.file, 0, 0, false⟩

/-- The current file, with a suffix. -/
def name (m : FileMgr) (suffix : Suffix) : FileName :=
  ⟨m.path_, m.yyyymmdd_, m.hour_, m.fileId_, suffix⟩

/-- `maxFileSize < 1 ? maxFileSize = 20 : 1; maxFileSize > 1000 ? maxFileSize = 20 : 1;` -/
def applySize (maxFileSize : Int) : Int :=
  if maxFileSize < 1 then 20 else if 1000 < maxFileSize then 20 else maxFileSize

def applyFreq (genFreq : Int) : Int :=
  if genFreq < 1 then 60 else if 1800 < genFreq then 60 else genFreq

/-- The file that is opened by a call at `t`. -/
def nextName (path : Bytes) (t : Times) (suffix : Suffix) : FileName :=
  ⟨path, (GenDirId localtime_r t.dir).1, (GenDirId localtime_r t.dir).2,
    GenFileId localtime_r t.file, suffix⟩

/-- `GetFilePtr` -/
def GetFilePtr (d : Disk FileName) (name : FileName) (opens : Bool) :
    Option Nat × Disk FileName :=
  if opens then (some (d.fopen name).1, (d.fopen name).2) else (none, d)

def ApplyFileInfo (m : FileMgr) (d : Disk FileName) (szMainPath : Bytes) (maxFileSize genFreq : Int)
    (t : Times) (opens : Bool) : FileMgr × Disk FileName × Int :=
  if m.bApply_ then (m, d, 0)
  else
    let r := GetFilePtr d (nextName localtime_r szMainPath t .txt) opens
    ({ m with
      path_ := szMainPath
      maxFileSize_ := applySize maxFileSize
      genFreq_ := applyFreq genFreq
      yyyymmdd_ := (GenDirId localtime_r t.dir).1
      hour_ := (GenDirId localtime_r t.dir).2
      fileId_ := GenFileId localtime_r t.file
      fp_ := r.1
      lastSwitch_ := t.switch / 1000
      bApply_ := r.1.isSome }, r.2, if r.1.isSome then 0 else -1)

def updateGenFreq (m : FileMgr) (freq : Int) : FileMgr := { m with genFreq_ := applyFreq freq }

def updateMaxFileSize (m : FileMgr) (size : Int) : FileMgr :=
  { m with maxFileSize_ := if size < 1 then 20 else if 1024 < size then 1024 else size }

/-- What makes `SwitchFile` switch. -/
def switches (m : FileMgr) (force : Bool) (t : Times) : Bool :=
  force || (GenDirId localtime_r t.dir).1 != m.yyyymmdd_ || (GenDirId localtime_r t.dir).2 != m.hour_ ||
    decide (m.maxFileSize_ * 1024 * 1024 ≤ m.curPos_.toInt) ||
    decide (m.genFreq_ < (t.freq / 1000 : Nat) - (m.lastSwitch_ : Int))

/-- `fclose` and `RenameFile`. -/
def closeAndRename (m : FileMgr) (d : Disk FileName) : FileMgr × Disk FileName :=
  ({ m with fp_ := none }, (d.rename (m.name .txt) (m.name .ok)).2)

/-- The members behind a switch. -/
def reset (m : FileMgr) (t : Times) : FileMgr :=
  { m with
    lastSwitch_ := t.switch / 1000
    yyyymmdd_ := (GenDirId localtime_r t.dir).1
    hour_ := (GenDirId localtime_r t.dir).2
    fileId_ := GenFileId localtime_r t.file
    curPos_ := 0 }

def SwitchFile (m : FileMgr) (d : Disk FileName) (force : Bool) (t : Times) (opens : Bool) :
    FileMgr × Disk FileName :=
  if ¬ m.bApply_ then (m, d)
  else if m.switches localtime_r force t then
    let (m, d) := m.closeAndRename d
    let (fp_, d) := GetFilePtr d (nextName localtime_r m.path_ t .txt) opens
    ({ m.reset localtime_r t with fp_ }, d)
  else (m, d)

def CloseCurFile (m : FileMgr) (d : Disk FileName) (t : Times) : FileMgr × Disk FileName :=
  if ¬ m.bApply_ then (m, d)
  else
    let (m, d) := m.closeAndRename d
    (m.reset localtime_r t, d)

def SwitchToNewFile (m : FileMgr) (d : Disk FileName) (t : Times) (opens : Bool) :
    FileMgr × Disk FileName :=
  if m.bApply_ then m.SwitchFile localtime_r d false t opens else (m, d)

def Close (m : FileMgr) (d : Disk FileName) (t : Times) : FileMgr × Disk FileName :=
  let (m, d) := m.CloseCurFile localtime_r d t
  ({ m with bApply_ := false }, d)

/-- `fwrite` and `fflush`, and whether both succeed; it fails without a stream. -/
def put (m : FileMgr) (d : Disk FileName) (content : Bytes) (io : WriteIo) :
    FileMgr × Disk FileName × Bool :=
  match m.fp_, io with
  | none, _ => (m, d, false)
  | some h, .done =>
    ({ m with curPos_ := m.curPos_ + Int32.ofNat content.length }, d.append h content, true)
  | some h, .short k | some h, .unflushed k => (m, d.append h (content.take k), false)

theorem put_done {m : FileMgr} {h : Nat} (hfp : m.fp_ = some h) (d : Disk FileName)
    (content : Bytes) : m.put d content .done =
      ({ m with curPos_ := m.curPos_ + Int32.ofNat content.length }, d.append h content, true) := by
  simp [put, hfp]

/-- A failure forces a switch, by `t'`. -/
def WriteToFile (m : FileMgr) (d : Disk FileName) (content : Bytes) (io : WriteIo) (t t' : Times)
    (opens opens' : Bool) : FileMgr × Disk FileName × Int :=
  if ¬ m.bApply_ then (m, d, -1)
  else
    let (m, d) := m.SwitchFile localtime_r d false t opens
    match m.put d content io with
    | (m, d, true) => (m, d, 0)
    | (m, d, false) =>
      let (m, d) := m.SwitchFile localtime_r d true t' opens'
      (m, d, -1)

/-! ## Reading -/

/-- An `int` as a `size_t`. -/
def sizeT (size : Int32) : Nat := (size.toInt % 2 ^ 64).toNat

/-- `fseek` and `fread` into `content`, which keeps what it has where nothing is read, and the test
of `size == static_cast<int>(fread(...) && size > 0)`. -/
def readAt (data : Bytes) (offset size : Int32) (content : Option Bytes) : Bool × Option Bytes :=
  if offset.toInt < 0 then (false, content)
  else
    let got := (data.drop offset.toInt.toNat).take (sizeT size)
    (size.toInt = if got ≠ [] ∧ 0 < size.toInt then 1 else 0, if got ≠ [] then some got else content)

/-- `SearchCurrentFile`; `none` if it reads from a null pointer. -/
def SearchCurrentFile (m : FileMgr) (d : Disk FileName) (yyyymmdd hour fileId : Int)
    (offset size : Int32) (content : Option Bytes) : Option (Bool × Option Bytes) :=
  if yyyymmdd = m.yyyymmdd_ ∧ hour = m.hour_ ∧ fileId = m.fileId_ then
    m.fp_.map fun h => readAt (d.data h) offset size content
  else some (false, content)

/-- `SearchOkFile` and `SearchBakFile`. -/
def searchFile (d : Disk FileName) (name : FileName) (offset size : Int32) (content : Option Bytes) :
    Bool × Option Bytes :=
  match d.find? name with
  | none => (false, content)
  | some h => readAt (d.data h) offset size content

/-- The result and what is in `content`. -/
def ReadFromFile (m : FileMgr) (d : Disk FileName) (yyyymmdd hour fileId : Int)
    (offset size : Int32) : Option (Int × Option Bytes) :=
  if ¬ m.bApply_ then some (0, none)
  else
    match m.SearchCurrentFile d yyyymmdd hour fileId offset size none with
    | none => none
    | some (true, content) => some (0, content)
    | some (false, content) =>
      match searchFile d ⟨m.path_, yyyymmdd, hour, fileId, .ok⟩ offset size content with
      | (true, content) => some (0, content)
      | (false, content) =>
        match searchFile d ⟨m.path_, yyyymmdd, hour, fileId, .bak⟩ offset size content with
        | (true, content) => some (0, content)
        | (false, content) => some (-1, content)

end FileMgr

/-! ## Sequences of calls -/

/-- A record for which `WriteToFile` has returned 0: the members that say where it went, and the file
and the position where it really is. -/
structure Written where
  path : Bytes
  yyyymmdd : Int
  hour : Int
  fileId : Int
  offset : Int32
  bytes : Bytes
  file : Nat
  pos : Nat
  deriving DecidableEq, Repr

/-- `written` is history, the oldest first. -/
structure FileState where
  mgr : FileMgr
  disk : Disk FileName
  now : Nat
  written : List Written

inductive FileAct where
  | ApplyFileInfo (szMainPath : Bytes) (maxFileSize genFreq : Int) (t : Times) (opens : Bool)
  | updateGenFreq (freq : Int)
  | updateMaxFileSize (size : Int)
  | WriteToFile (content : Bytes) (io : WriteIo) (t t' : Times) (opens opens' : Bool)
  | SwitchToNewFile (t : Times) (opens : Bool)
  | Close (t : Times)
  deriving DecidableEq, Repr

namespace FileState

variable (localtime_r : Nat → Tm)

/-- What is noted of a record that the stream of `m` takes. -/
def note (m : FileMgr) (d : Disk FileName) (content : Bytes) : List Written :=
  match m.fp_ with
  | none => []
  | some h =>
    [⟨m.path_, m.yyyymmdd_, m.hour_, m.fileId_, m.curPos_, content, h, (d.data h).length⟩]

theorem note_of_stream {m : FileMgr} {h : Nat} (hfp : m.fp_ = some h) (d : Disk FileName)
    (content : Bytes) : note m d content =
      [⟨m.path_, m.yyyymmdd_, m.hour_, m.fileId_, m.curPos_, content, h, (d.data h).length⟩] := by
  rw [note, hfp]

def next (s : FileState) : FileAct → Option FileState
  | .ApplyFileInfo szMainPath maxFileSize genFreq t opens =>
    if t.From s.now then
      let (mgr, disk, _) :=
        s.mgr.ApplyFileInfo localtime_r s.disk szMainPath maxFileSize genFreq t opens
      some { s with mgr, disk, now := t.switch }
    else none
  | .updateGenFreq freq => some { s with mgr := s.mgr.updateGenFreq freq }
  | .updateMaxFileSize size => some { s with mgr := s.mgr.updateMaxFileSize size }
  | .WriteToFile content io t t' opens opens' =>
    if t.From s.now ∧ t'.From t.switch then
      let (mgr, disk, ret) := s.mgr.WriteToFile localtime_r s.disk content io t t' opens opens'
      let (m, d) := s.mgr.SwitchFile localtime_r s.disk false t opens
      some ⟨mgr, disk, t'.switch, s.written ++ if ret = 0 then note m d content else []⟩
    else none
  | .SwitchToNewFile t opens =>
    if t.From s.now then
      let (mgr, disk) := s.mgr.SwitchToNewFile localtime_r s.disk t opens
      some { s with mgr, disk, now := t.switch }
    else none
  | .Close t =>
    if t.From s.now then
      let (mgr, disk) := s.mgr.Close localtime_r s.disk t
      some { s with mgr, disk, now := t.switch }
    else none

end FileState

/-- A `FileMgr` made at `t`, on the disk `d`. -/
def fileSystem (localtime_r : Nat → Tm) (d : Disk FileName) (t : Times) : Sys FileState FileAct where
  init := ⟨.new localtime_r t, d, t.switch, []⟩
  next := FileState.next localtime_r

end MsgFile
end CmakeFrame
