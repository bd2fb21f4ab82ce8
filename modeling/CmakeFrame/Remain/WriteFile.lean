import CmakeFrame.Lib.Disk

/-!
# The writers of retained records

`remainFile/src/WriteFileMgr.{h,cpp}`. A `WriteFileMgr` serves one folder. For each of six kinds of
text it has a writer on the share and one on the local disk, both created on first use; a record
goes to the local one if the share refuses it. A writer appends to a `.tmp` file and closes it,
renaming it to `.ok`, when it is full or too old.

* `Writer`: the members of `ShareWriteFileMgr` and of `localWriteFileMgr`, which are the same.
* `ShareWriteFileMgr.…`, `LocalWriteFileMgr.…`: their functions. The two classes differ in
  `CloseCurFile` and `writeToFile`; the bodies they share are `Writer.…`.
* `WriteFileMgr.…`: the functions of the folder's manager.

What the operating system answers is an argument: `CloseIo`, `SwitchIo` and `WriteIo` hold the
results of the calls of one function, `true` for success. The bytes that `fwrite` takes are in the
file, whether or not the following `fflush` succeeds. `localtime_r` is the parameter `localtime`.
A name is a value of its own, `FileName`, not its text.
-/

namespace CmakeFrame
namespace Remain

open Lib

/-! ## Names -/

/-- The members of `struct tm` that a name shows. -/
structure Tm where
  mon : Nat
  mday : Nat
  hour : Nat
  min : Nat
  sec : Nat
  deriving DecidableEq

/-- `.tmp` while it is written, `.ok` when it is complete. -/
inductive Ext where
  | tmp | ok
  deriving DecidableEq

/-- `path/gateNo_count_MMDDHHMMSSmmmSSSSS.ext`. -/
structure FileName where
  path : Bytes
  gateNo : Int32
  count : Nat
  tm : Tm
  millSecond : Nat
  seqId : Nat
  ext : Ext
  deriving DecidableEq

/-- What `snprintf` returns for a `.tmp` name: `path`, `/`, the gate, `_0_`, ten digits of the time,
three of the millisecond, five of the sequence number and the extension. -/
def tmpNameLen (path : Bytes) (gateNo : Int32) : Nat :=
  path.length + 1 + (intDec gateNo.toInt).length + 3 + 18 + 4

/-! ## What the operating system answers -/

/-- The calls of `CloseCurFile`. -/
structure CloseIo where
  access : Bool
  fflush : Bool
  fclose : Bool
  rename : Bool

/-- The calls of `switchToNewFile`: those of `CloseCurFile`, `mkdirs`, `gettimeofday`, `fopen`. -/
structure SwitchIo where
  close : CloseIo
  mkdirs : Bool
  second : UInt64
  usec : Nat
  fopen : Bool

/-- The calls of `writeToFile`: those of the first `switchToNewFile`, `accessPath`, the results of
the up to three `fwrite`s, `fflush`, and those of the `switchToNewFile` after a failed `fflush`. -/
structure WriteIo where
  switch : SwitchIo
  access : Bool
  fwrite₁ : Nat
  fwrite₂ : Nat
  fwrite₃ : Nat
  fflush : Bool
  again : SwitchIo

/-- No call of `CloseCurFile` fails. -/
structure CloseIo.Ok (io : CloseIo) : Prop where
  access : io.access = true
  fflush : io.fflush = true
  fclose : io.fclose = true
  rename : io.rename = true

/-- No call of `switchToNewFile` fails. -/
structure SwitchIo.Ok (io : SwitchIo) : Prop where
  close : io.close.Ok
  mkdirs : io.mkdirs = true
  fopen : io.fopen = true

/-- No call of `writeToFile` fails; `fwrite` takes all `size` bytes at once. -/
structure WriteIo.Ok (io : WriteIo) (size : Nat) : Prop where
  switch : io.switch.Ok
  access : io.access = true
  fwrite : size ≤ io.fwrite₁
  fflush : io.fflush = true

/-- `accessPath(muldir)`: an empty path counts as accessible. -/
def accessPath (muldir : Bytes) (access : Bool) : Int :=
  if 0 < muldir.length ∧ access = false then -1 else 0

/-! ## One writer -/

/-- The members of `ShareWriteFileMgr` and `localWriteFileMgr`; `path_` is `sharePath_` in the one
and `localPath_` in the other. `pFile_` is the number of the open file. -/
structure Writer where
  isExit_ : Bool
  gateNo_ : Int32
  seqId_ : Nat
  millSecond_ : Nat
  outSecond_ : Int32
  maxCount_ : Int32
  curCount_ : Nat
  creatSecond_ : UInt64
  pFile_ : Option Nat
  rootPath_ : Bytes
  path_ : Bytes

/-- The results of a function: its return value, the writer, the disk. -/
abbrev Res := Int × Writer × Disk FileName

/-- `if(seqId_ < 1 || seqId_ > 99999) seqId_ = 1` after the increment. -/
def nextSeqId (seqId : Nat) : Nat :=
  if seqId + 1 < 1 ∨ seqId + 1 > 99999 then 1 else seqId + 1

/-- `updateGenFreq`: the value that takes effect. -/
def clampGenFreq (second : Int32) : Int32 :=
  let second := if second < 1 then 60 else second
  if second > 1800 then 60 else second

/-- `updateMaxFileSize`: the value that takes effect. -/
def clampMaxFileSize (size : Int32) : Int32 :=
  let size := if size < 1 then 20 else size
  if size > 1000 then 20 else size

/-- The `do … while(size > 0)` loop around `fwrite`: `wriSize` at its end. The list holds the results
of the tries that are left; one of them takes at most `size` bytes. -/
def fwriteLoop : List Nat → Nat → Nat → Nat
  | [], _, wriSize => wriSize
  | n :: tries, size, wriSize =>
    let tmpSize := min n size
    if size - tmpSize > 0 then fwriteLoop tries (size - tmpSize) (wriSize + tmpSize)
    else wriSize + tmpSize

/-- The bytes of a record that one `writeToFile` gets into the file. -/
def WriteIo.wriSize (io : WriteIo) (size : Nat) : Nat :=
  fwriteLoop [io.fwrite₁, io.fwrite₂, io.fwrite₃] size 0

namespace Writer

variable (localtime : UInt64 → Tm)

/-- The name that `switchToNewFile` opens and `CloseCurFile` builds again as `szCurName`. -/
def tmpName (w : Writer) : FileName :=
  ⟨w.path_, w.gateNo_, 0, localtime w.creatSecond_, w.millSecond_, w.seqId_, .tmp⟩

/-- `szOkName`. -/
def okName (w : Writer) : FileName :=
  ⟨w.path_, w.gateNo_, w.curCount_, localtime w.creatSecond_, w.millSecond_, w.seqId_, .ok⟩

/-- The end of `CloseCurFile`: the file is closed, `rename` may fail. -/
def closed (w : Writer) : Writer :=
  { w with pFile_ := none, creatSecond_ := 0, millSecond_ := 0, curCount_ := 0 }

/-- `renameFile(szCurName, szOkName)`. -/
def renameOk (rename : Bool) (w : Writer) (d : Disk FileName) : Bool × Disk FileName :=
  if rename then d.rename (w.tmpName localtime) (w.okName localtime) else (false, d)

/-- The number and the time of the next file. -/
def stamp (io : SwitchIo) (w : Writer) : Writer :=
  { w with
    seqId_ := nextSeqId w.seqId_, creatSecond_ := io.second, millSecond_ := io.usec / 1000 }

/-- `switchToNewFile`, from the first `snprintf` on: `pFile_` is null here. -/
def openNew (tooLong mkdirsErr nameTooLong fopenErr : Int) (io : SwitchIo) (w : Writer)
    (d : Disk FileName) : Res :=
  if w.path_.length ≥ 1024 then (tooLong, w, d)
  else if io.mkdirs = false then (mkdirsErr, w, d)
  else if tmpNameLen w.path_ w.gateNo_ ≥ 1024 then (nameTooLong, w.stamp io, d)
  else if io.fopen = false then (fopenErr, { w.stamp io with pFile_ := none }, d)
  else
    let r := d.fopen ((w.stamp io).tmpName localtime)
    (0, { w.stamp io with pFile_ := some r.1, curCount_ := 0 }, r.2)

/-- `writeToFile`, from the `fwrite` loop on, with `pFile_` open on file `h`. -/
def putContent (switchToNewFile : SwitchIo → Writer → Disk FileName → Res) (shortErr : Int)
    (io : WriteIo) (content : Bytes) (h : Nat) (w : Writer) (d : Disk FileName) : Res :=
  let wriSize := io.wriSize content.length
  let d := d.append h (content.take wriSize)
  if content.length - wriSize > 0 then (shortErr, w, d)
  else if io.fflush = false then
    let r := switchToNewFile io.again w d
    if r.1 < 0 then r else (-1036, { r.2.1 with pFile_ := none }, r.2.2)
  else (0, { w with curCount_ := w.curCount_ + 1 }, d)

/-- `everySecondCheck(second)`: the age is the unsigned difference, cut to an `int`. -/
def everySecondCheck (closeCurFile : CloseIo → Writer → Disk FileName → Res) (second : UInt64)
    (io : CloseIo) (w : Writer) (d : Disk FileName) : Writer × Disk FileName :=
  if w.isExit_ then (w, d)
  else
    let tmpSecond : Int32 := (second - w.creatSecond_).toUInt32.toInt32
    if w.pFile_ ≠ none ∧ w.creatSecond_ > 0 ∧ tmpSecond > w.outSecond_ then (closeCurFile io w d).2
    else (w, d)

/-- `exitClose()`, also the destructor. -/
def exitClose (closeCurFile : CloseIo → Writer → Disk FileName → Res) (io : CloseIo) (w : Writer)
    (d : Disk FileName) : Writer × Disk FileName :=
  let w := { w with isExit_ := true }
  if w.pFile_ = none then (w, d)
  else
    let r := (closeCurFile io w d).2
    ({ r.1 with pFile_ := none }, r.2)

def updateGenFreq (second : Int32) (w : Writer) : Writer :=
  { w with outSecond_ := clampGenFreq second }

def updateMaxFileSize (size : Int32) (w : Writer) : Writer :=
  { w with maxCount_ := clampMaxFileSize size }

end Writer

/-- On which disk a writer works. -/
inductive Side where
  | share | loc
  deriving DecidableEq

/-- `RE_REMAIN_FLAG` … `MT_REMAIN_BAK_FLAG`. -/
inductive Flag where
  | re | reBak | mo | moBak | mt | mtBak
  deriving DecidableEq

/-- `reportDir`, `reportBakDir`, `moDir`, `moBakDir`, `mtDir`, `mtBak`: `"RemainRe"` and so on. -/
def Flag.dir : Flag → Bytes
  | re => [82, 101, 109, 97, 105, 110, 82, 101]
  | reBak => [82, 101, 109, 97, 105, 110, 82, 101, 66, 97, 107]
  | mo => [82, 101, 109, 97, 105, 110, 77, 111]
  | moBak => [82, 101, 109, 97, 105, 110, 77, 111, 66, 97, 107]
  | mt => [82, 101, 109, 97, 105, 110, 77, 116]
  | mtBak => [82, 101, 109, 97, 105, 110, 77, 116, 66, 97, 107]

/-- `snprintf(filePath, 1024, "%s/%s/%s", rootPath, dir, fragFolder)`. -/
def filePath (rootPath : Bytes) (flag : Flag) (fragFolder : Bytes) : Bytes :=
  (cstr rootPath ++ 47 :: flag.dir ++ 47 :: cstr fragFolder).take 1023

namespace ShareWriteFileMgr

variable (localtime : UInt64 → Tm)

/-- `CloseCurFile()`. Behind a failed `fclose` the pointer is as it was, but what it points to is
gone: the functions below describe calls only up to there. -/
def closeCurFile (io : CloseIo) (w : Writer) (d : Disk FileName) : Res :=
  match w.pFile_ with
  | none => (0, w, d)
  | some _ =>
    if accessPath w.rootPath_ io.access < 0 then (-102, w, d)
    else if io.fflush = false then (-109, w, d)
    -- `pFile_` keeps a stream that `fclose` has ended
    else if io.fclose = false then (-1010, w, d)
    else
      let r := w.renameOk localtime io.rename d
      (if r.1 then 0 else -1011, w.closed, r.2)

/-- `switchToNewFile()`. -/
def switchToNewFile (io : SwitchIo) (w : Writer) (d : Disk FileName) : Res :=
  let r := closeCurFile localtime io.close w d
  if r.1 < 0 then r else r.2.1.openNew localtime (-105) (-106) (-107) (-108) io r.2.2

/-- `writeToFile(content, size)`. -/
def writeToFile (io : WriteIo) (content : Bytes) (w : Writer) (d : Disk FileName) : Res :=
  if w.rootPath_ = [] ∨ w.path_ = [] then (-1050, w, d)
  else if w.isExit_ then (-101, w, d)
  else
    let r : Res :=
      if w.pFile_ = none ∨ w.maxCount_.toInt ≤ w.curCount_ then
        switchToNewFile localtime io.switch w d
      else (if accessPath w.rootPath_ io.access < 0 then -102 else 0, w, d)
    if r.1 < 0 then r
    else
      match r.2.1.pFile_ with
      | none => (-103, r.2)
      | some h =>
        r.2.1.putContent (switchToNewFile localtime) (-104) io content h r.2.2

/-- The constructor. Without a root there is no path, and every write is refused. -/
def new (gateNo maxCout outSecond : Int32) (flag : Flag) (rootPath fragFolder : Bytes) : Writer :=
  ⟨false, gateNo, 0, 0, outSecond, maxCout, 0, 0, none, rootPath,
    if rootPath = [] then [] else filePath rootPath flag fragFolder⟩

end ShareWriteFileMgr

namespace LocalWriteFileMgr

variable (localtime : UInt64 → Tm)

/-- `CloseCurFile()`. The results of `fflush` and `fclose` are overwritten by that of `rename`. -/
def closeCurFile (io : CloseIo) (w : Writer) (d : Disk FileName) : Res :=
  match w.pFile_ with
  | none => (0, w, d)
  | some _ =>
    let r := w.renameOk localtime io.rename d
    (if r.1 then 0 else -1022, w.closed, r.2)

/-- `switchToNewFile()`. -/
def switchToNewFile (io : SwitchIo) (w : Writer) (d : Disk FileName) : Res :=
  let r := closeCurFile localtime io.close w d
  if r.1 < 0 then r else r.2.1.openNew localtime (-1016) (-1017) (-1018) (-1019) io r.2.2

/-- `writeToFile(content, size)`. -/
def writeToFile (io : WriteIo) (content : Bytes) (w : Writer) (d : Disk FileName) : Res :=
  if w.isExit_ then (-1012, w, d)
  else
    let r : Res :=
      if w.pFile_ = none ∨ w.maxCount_.toInt ≤ w.curCount_ then
        switchToNewFile localtime io.switch w d
      else (0, w, d)
    if r.1 < 0 then r
    else
      match r.2.1.pFile_ with
      | none => (-1014, r.2)
      | some h =>
        r.2.1.putContent (switchToNewFile localtime) (-1015) io content h r.2.2

/-- The constructor. -/
def new (gateNo maxCout outSecond : Int32) (flag : Flag) (rootPath fragFolder : Bytes) : Writer :=
  ⟨false, gateNo, 0, 0, outSecond, maxCout, 0, 0, none, rootPath, filePath rootPath flag fragFolder⟩

end LocalWriteFileMgr

namespace Side

/-- The constructors. -/
def new : Side → Int32 → Int32 → Int32 → Flag → Bytes → Bytes → Writer
  | share => ShareWriteFileMgr.new
  | loc => LocalWriteFileMgr.new

variable (localtime : UInt64 → Tm)

def closeCurFile : Side → CloseIo → Writer → Disk FileName → Res
  | share => ShareWriteFileMgr.closeCurFile localtime
  | loc => LocalWriteFileMgr.closeCurFile localtime

def switchToNewFile : Side → SwitchIo → Writer → Disk FileName → Res
  | share => ShareWriteFileMgr.switchToNewFile localtime
  | loc => LocalWriteFileMgr.switchToNewFile localtime

def writeToFile : Side → WriteIo → Bytes → Writer → Disk FileName → Res
  | share => ShareWriteFileMgr.writeToFile localtime
  | loc => LocalWriteFileMgr.writeToFile localtime

end Side

/-! ## The manager of a folder -/

/-- One of the twelve pointers `shareReFile` … `localMtBakFile`. -/
abbrev Slot := Side × Flag

/-- The order in which `exitClose`, `everySecondCheck` and the updates go through them. -/
def slots : List Slot :=
  [Side.share, Side.loc].flatMap fun side =>
    [Flag.re, .reBak, .mo, .moBak, .mt, .mtBak].map fun flag => (side, flag)

structure WriteFileMgr where
  gateNo_ : Int32
  maxCount_ : Int32
  outSecond_ : Int32
  localPath_ : Bytes
  sharePath_ : Bytes
  fragFolder_ : Bytes
  file : Slot → Option Writer

namespace WriteFileMgr

variable (localtime : UInt64 → Tm)

/-- The constructor. -/
def new (gateNo maxCout outSecond : Int32) (sharePath localPath fragFolder : Bytes) :
    WriteFileMgr :=
  ⟨gateNo, maxCout, outSecond, localPath, sharePath, fragFolder, fun _ => none⟩

/-- `reset` of one pointer. -/
def set (m : WriteFileMgr) (s : Slot) (w : Option Writer) : WriteFileMgr :=
  { m with file := Function.update m.file s w }

/-- `sharePath_` or `localPath_`. -/
def rootPath (m : WriteFileMgr) : Side → Bytes
  | .share => m.sharePath_
  | .loc => m.localPath_

/-- The writer that a null pointer is replaced by. -/
def newWriter (m : WriteFileMgr) (s : Slot) : Writer :=
  s.1.new m.gateNo_ m.maxCount_ m.outSecond_ s.2 (m.rootPath s.1) m.fragFolder_

/-- One pointer in `writeToFile`: create the writer if there is none, hand it the record. -/
def writeSlot (s : Slot) (io : WriteIo) (content : Bytes) (m : WriteFileMgr) (d : Disk FileName) :
    Int × WriteFileMgr × Disk FileName :=
  let r := s.1.writeToFile localtime io content ((m.file s).getD (m.newWriter s)) d
  (r.1, m.set s (some r.2.1), r.2.2)

/-- `writeToFile(flag, content, size)`; the six cases of its `switch` are the same text. -/
def writeToFile (flag : Flag) (shareIo localIo : WriteIo) (content : Bytes) (m : WriteFileMgr)
    (d : Disk FileName) : Int × WriteFileMgr × Disk FileName :=
  let r := m.writeSlot localtime (.share, flag) shareIo content d
  if r.1 < 0 then r.2.1.writeSlot localtime (.loc, flag) localIo content r.2.2 else r

/-- Does something to each writer that exists, in order. -/
def forEach (f : Slot → Writer → Disk FileName → Option Writer × Disk FileName)
    (m : WriteFileMgr) (d : Disk FileName) : WriteFileMgr × Disk FileName :=
  slots.foldl (fun md s =>
    match md.1.file s with
    | none => md
    | some w => (md.1.set s (f s w md.2).1, (f s w md.2).2)) (m, d)

/-- `exitClose()`: every writer is destroyed. -/
def exitClose (io : Slot → CloseIo) (m : WriteFileMgr) (d : Disk FileName) :
    WriteFileMgr × Disk FileName :=
  m.forEach (fun s w d => (none, (w.exitClose (s.1.closeCurFile localtime) (io s) d).2)) d

/-- `everySecondCheck(second)`. -/
def everySecondCheck (second : UInt64) (io : Slot → CloseIo) (m : WriteFileMgr)
    (d : Disk FileName) : WriteFileMgr × Disk FileName :=
  m.forEach (fun s w d =>
    let r := w.everySecondCheck (s.1.closeCurFile localtime) second (io s) d
    (some r.1, r.2)) d

/-- `updateGenFreq(second)`. The manager's own `outSecond_` stays as it is. -/
def updateGenFreq (second : Int32) (m : WriteFileMgr) : WriteFileMgr :=
  { m with file := fun s => (m.file s).map (Writer.updateGenFreq second) }

/-- `updateMaxFileSize(size)`. The manager's own `maxCount_` stays as it is. -/
def updateMaxFileSize (size : Int32) (m : WriteFileMgr) : WriteFileMgr :=
  { m with file := fun s => (m.file s).map (Writer.updateMaxFileSize size) }

end WriteFileMgr

end Remain
end CmakeFrame
