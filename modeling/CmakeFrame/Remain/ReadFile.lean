import CmakeFrame.Lib.Dir
import CmakeFrame.Lib.Sys
import CmakeFrame.Remain.WriteFile

/-!
# `remainFile/src/ReadFileMgr.cpp` and `ReadDirMgr.cpp`: readers of shared directories

Any number of readers, in any number of processes, scan the directories that the writers publish
their `.ok` files in. A reader claims a file by renaming it to a name with its gate number, reads
it and removes it; on the way it may have to give the file back or move it aside.

* `ReadFileMgr`: the three names of a file; `FilePc`: the points of `readFromFile` between two
  system calls; `FilePc.step`: one system call and what follows it up to the next one.
* `Pc`: the points of `ReadDirMgr::readReaminData`, which looks into the local directory and then
  into the shared one.
* `readers`: the system of all readers over one name space, with the writers' publications.

What `fopen`, `malloc` and `fread` give is not known (`Io`), nor the order in which `readdir` gives
the entries. `rename` fails if its source is absent, `stat` and `access` if the file is.
-/

namespace CmakeFrame
namespace Remain

open Lib

/-- `tailOkFile`. -/
def tailOkFile : Bytes := [46, 111, 107]

/-- The ends of the names that `ReadFileMgr` makes: `.bak` and `.err`. -/
def tailBakFile : Bytes := [46, 98, 97, 107]

@[inherit_doc tailBakFile] def tailErrFile : Bytes := [46, 101, 114, 114]

/-! ## `ReadFileMgr` -/

/-- The members of `ReadFileMgr` that `readFromFile` uses. -/
structure ReadFileMgr where
  fileName_ : Bytes
  bakFileName_ : Bytes
  errFileName : Bytes
  deriving DecidableEq, Repr

namespace ReadFileMgr

/-- The name without its last `TAIL_OKFILE_STRLEN` characters, followed by `_<gateNo><tail>`. -/
def gateName (gateNo : Int32) (tail fileName : Bytes) : Bytes :=
  fileName.take (fileName.length - tailOkFile.length) ++ 95 :: (intDec gateNo.toInt ++ tail)

/-- `ReadFileMgr(gateNo, fileName)`. -/
def new (gateNo : Int32) (fileName : Bytes) : ReadFileMgr :=
  ⟨fileName, gateName gateNo tailBakFile fileName, gateName gateNo tailErrFile fileName⟩

/-- `readFileLen`: `0` if `stat` fails. -/
def readFileLen (m : ReadFileMgr) (d : Dir Bytes) : Nat :=
  match d m.bakFileName_ with
  | none => 0
  | some c => c.length

end ReadFileMgr

/-- What the outside decides in one step: whether `fopen` and `malloc` succeed, and how many bytes
`fread` gives if there are that many. -/
structure Io where
  fopen : Bool
  malloc : Bool
  fread : Nat
  deriving DecidableEq, Repr

/-- Where `readFromFile` is: the system call that comes next, with the local variables that are
still needed. A stream is the bytes it has not given yet. -/
inductive FilePc where
  /-- `renameFile(szCurName, szBakName)`. -/
  | claim
  /-- `readFileLen()`. -/
  | stat
  | fopen (fileLen : Nat)
  | malloc (fileLen : Nat) (pFile : Bytes)
  /-- The loop around `fread`; `readBuf` are the `nTrueRead` bytes read so far. -/
  | fread (readBuf : Bytes) (fileLen : Nat) (pFile : Bytes) (trytime : Nat)
  /-- `renameErrorFile()`, then return `ret`. -/
  | error (ret : Int)
  /-- `renameFile(szBakName, szCurName)`, then return `ret`. -/
  | undo (ret : Int)
  /-- `access` of `deleteReadFile`, when `readData` has been assigned. -/
  | access (readData : Bytes)
  /-- `remove` of `deleteReadFile`. -/
  | remove (readData : Bytes)
  deriving DecidableEq, Repr

namespace FilePc

/-- What a step leads to: a point of `readFromFile`, or its return. `.ok` is `ret == 0`, with
`readData`. -/
abbrev Next := FilePc ⊕ Except Int Bytes

/-- One turn of the loop around `fread`, up to the next `fread` or out of the loop. -/
def freadStep (io : Io) (readBuf : Bytes) (fileLen : Nat) (pFile : Bytes) (trytime : Nat) : FilePc :=
  let tmpLen := min io.fread (min fileLen pFile.length)
  let readBuf := readBuf ++ pFile.take tmpLen
  let fileLen := fileLen - tmpLen
  let trytime := trytime + 1
  if trytime < 3 ∧ fileLen > 0 then .fread readBuf fileLen (pFile.drop tmpLen) trytime
  else if fileLen > 0 then .error (-114)
  else .access readBuf

/-- One system call of `readFromFile` and what follows it. -/
def step (m : ReadFileMgr) (io : Io) : FilePc → Dir Bytes → Next × Dir Bytes
  | .claim, d =>
    match d.rename m.fileName_ m.bakFileName_ with
    | (false, d) => (.inr (.error (-111)), d)
    | (true, d) => (.inl .stat, d)
  | .stat, d =>
    let fileLen := m.readFileLen d
    if fileLen = 0 then (.inl (.error (-112)), d) else (.inl (.fopen fileLen), d)
  | .fopen fileLen, d =>
    match (if io.fopen then d m.bakFileName_ else none) with
    | none => (.inl (.undo (-113)), d)
    | some pFile => (.inl (.malloc fileLen pFile), d)
  | .malloc fileLen pFile, d =>
    if io.malloc then (.inl (.fread [] fileLen pFile 0), d) else (.inl (.undo (-114)), d)
  | .fread readBuf fileLen pFile trytime, d => (.inl (freadStep io readBuf fileLen pFile trytime), d)
  | .error ret, d => (.inr (.error ret), (d.rename m.bakFileName_ m.errFileName).2)
  | .undo ret, d => (.inr (.error ret), (d.rename m.bakFileName_ m.fileName_).2)
  | .access readData, d =>
    if (d m.bakFileName_).isSome then (.inl (.remove readData), d) else (.inr (.ok readData), d)
  | .remove readData, d => (.inr (.ok readData), d.remove m.bakFileName_)

end FilePc

/-! ## `ReadDirMgr` -/

/-- The members of `ReadDirMgr` that its functions use: `localPath_` and `sharePath_` are
`path .loc` and `path .share`. -/
structure ReadDirMgr where
  gateNo_ : Int32
  path : Side → Bytes

/-- Where a reader is. -/
inductive Pc where
  /-- Outside `readReaminData`. -/
  | idle
  /-- At `readdir` of `readFileFromDir(path side)`. -/
  | scan (side : Side)
  /-- In `readFile->readFromFile`. -/
  | file (side : Side) (m : ReadFileMgr) (p : FilePc)

/-- `strcmp` of the last three characters with `tailOkFile`. -/
def isOkFile (name : Bytes) : Bool := tailOkFile.isSuffixOf name

namespace ReadDirMgr

/-- One entry of `readFileFromDir`'s loop: `stat` and the check of the name. -/
def readEntry (g : ReadDirMgr) (side : Side) (d_name : Bytes) (d : Dir Bytes) : Pc :=
  let strFilename := g.path side ++ 47 :: d_name
  if (d strFilename).isSome ∧ isOkFile d_name then
    .file side (ReadFileMgr.new g.gateNo_ strFilename) .claim
  else .scan side

/-- Behind the last entry, or if `opendir` fails: the shared directory comes after the local one,
if `accessPath(shareRootPath_)` allows. -/
def endDir (accessShare : Bool) : Side → Pc
  | .loc => if accessShare then .scan .share else .idle
  | .share => .idle

end ReadDirMgr

/-! ## All readers -/

/-- The full name of a file that is published: it ends in `.ok`. -/
abbrev OkName := { n : Bytes // isOkFile n = true }

/-- A return of `readFromFile` with `ret == 0`. -/
structure Delivery where
  reader : Nat
  fileName : Bytes
  readData : Bytes
  deriving DecidableEq, Repr

/-- The directories, what was published under each name so far, where each reader is, and the
returns with `ret == 0` so far. -/
structure ReadState where
  dir : Dir Bytes
  published : OkName → Option Bytes
  pc : Nat → Pc
  log : List Delivery

/-- The steps: a writer publishes a file; a reader starts `readReaminData`, gets an entry or the end
from `readdir`, or makes the next call of `readFromFile`. -/
inductive ReadAct where
  | publish (n : OkName) (content : Bytes)
  | start (r : Nat)
  | readdir (r : Nat) (d_name : Bytes)
  | endDir (r : Nat) (accessShare : Bool)
  | call (r : Nat) (io : Io)

namespace ReadState

def setPc (s : ReadState) (r : Nat) (p : Pc) : ReadState :=
  { s with pc := Function.update s.pc r p }

/-- The state after a step of `readFromFile` of reader `r`. A return with `ret == 0` ends
`readReaminData`; any other one goes on with the next entry. -/
def afterCall (s : ReadState) (r : Nat) (side : Side) (m : ReadFileMgr) :
    FilePc.Next × Dir Bytes → ReadState
  | (.inl p, d) => { s.setPc r (.file side m p) with dir := d }
  | (.inr (.error _), d) => { s.setPc r (.scan side) with dir := d }
  | (.inr (.ok data), d) =>
    { s.setPc r .idle with dir := d, log := s.log ++ [⟨r, m.fileName_, data⟩] }

/-- The steps of all readers; `g r` is the `ReadDirMgr` of reader `r`. A writer never publishes a
name twice. -/
def next (g : Nat → ReadDirMgr) (s : ReadState) : ReadAct → Option ReadState
  | .publish n c =>
    if s.published n = none then
      some { s with
        dir := Function.update s.dir n.1 (some c)
        published := Function.update s.published n (some c) }
    else none
  | .start r =>
    match s.pc r with
    | .idle => some (s.setPc r (.scan .loc))
    | _ => none
  | .readdir r d_name =>
    match s.pc r with
    | .scan side => some (s.setPc r ((g r).readEntry side d_name s.dir))
    | _ => none
  | .endDir r accessShare =>
    match s.pc r with
    | .scan side => some (s.setPc r (ReadDirMgr.endDir accessShare side))
    | _ => none
  | .call r io =>
    match s.pc r with
    | .file side m p => some (s.afterCall r side m (p.step m io s.dir))
    | _ => none

end ReadState

/-- Readers with the directory managers `g`. At first no file is published. -/
def readers (g : Nat → ReadDirMgr) : Sys ReadState ReadAct where
  init := ⟨fun _ => none, fun _ => none, fun _ => .idle, []⟩
  next := ReadState.next g

end Remain
end CmakeFrame
