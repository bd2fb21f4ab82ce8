import CmakeFrame.MsgFile.DetailFileSys
import CmakeFrame.MsgFile.ReadBack

/-!
# `msgFile`: from `writeFileSys` to the `_ok.txt` files

`DetailFileSys` and the `MessageFilesImpl` it writes to. Each kind of record has a `FileMgr` of its own,
in a folder of its own.

* `initDetailsFile`, `detailFileSysInit`: six files are set up; a start that fails leaves the files that
  it has set up. `SetUp`: what a start that succeeds has done.
* `Details`, `detailsSystem`: the calls of `writeFileSys`, the writers, the timer that switches files, the
  changes of the limits and the shutdown, in any order.
* `limits_agree`: when the limits of all files are those of `DetailFileSys`.
* `Details.Regular`: the condition on a step; `Inv`: what holds between the steps.
* `details_kept`: behind `CloseAll` each record that was not refused is whole in an `_ok.txt` file of its
  kind.

The names of the kinds are macros that no file defines, so the folders are an argument.
`DetailFileSys.cpp` calls `InitMtDetailsFile` and `InitMtOkDetailsFile` by other names.
-/

namespace CmakeFrame
namespace MsgFile

open Lib

/-! ## The start -/

/-- What the outside gives to the set-up of one file: whether `MakeDirP` makes the folder, the clock of
the constructor and of `ApplyFileInfo`, and whether the file can be opened. -/
structure InitIo where
  made : Bool
  new : Times
  apply : Times
  opens : Bool
  deriving DecidableEq, Repr

/-- The records on their way, the limits, the kinds in the map `details_`, and the `FileMgr` of each kind
with its folder. Of a kind that is not in the map only the disk counts. -/
structure Details where
  sys : DetailFileSys
  maxFileSize_ : Int
  genFreq_ : Int
  details_ : List FileType
  files : FileType → FileState

/-- The keys of the map behind a start. -/
def allTypes : List FileType :=
  [.FWD_MSG_DETAIL, .FWD_MSGOK_DETAIL, .FWD_RE_DETAIL, .FWD_REOK_DETAIL, .FWD_MO_DETAIL, .FWD_MOOK_DETAIL]

theorem mem_allTypes (ft : FileType) : ft ∈ allTypes := by
  cases ft <;> decide

section System

variable (localtime_r : Nat → Tm)

/-- The constructor, with what is on the disks. -/
def Details.new (d : FileType → Disk FileName) : Details :=
  ⟨(detailSystem 0).init, 20, 60, [], fun ft => ⟨.new localtime_r ⟨0, 0, 0, 0⟩, d ft, 0, []⟩⟩

/-- `maxFileSize < 1 ? maxFileSize = 20 : 1; maxFileSize > 1000 ? maxFileSize = 20 : 1;` stands before the
folder is made, and again in `ApplyFileInfo`. A file that is in the map already is left as it is. -/
def initDetailsFile (s : Details) (fileType : FileType) (pathTmp : Bytes) (maxFileSize genFreq : Int)
    (io : InitIo) : Details × Int :=
  if ¬ io.made then (s, -1)
  else if s.details_.contains fileType then (s, 0)
  else
    let file := FileMgr.new localtime_r io.new
    let (mgr, disk, nRet) := file.ApplyFileInfo localtime_r (s.files fileType).disk pathTmp
      (FileMgr.applySize maxFileSize) (FileMgr.applyFreq genFreq) io.apply io.opens
    if nRet = 0 then
      ({ s with
        details_ := s.details_ ++ [fileType]
        files := fun ft => if ft = fileType then ⟨mgr, disk, io.apply.switch, []⟩ else s.files ft }, nRet)
    else (s, nRet)

def InitMtDetailsFile := initDetailsFile localtime_r
def InitMtOkDetailsFile := initDetailsFile localtime_r
def InitReDetailsFile := initDetailsFile localtime_r
def InitReOkDetailsFile := initDetailsFile localtime_r
def InitMoDetailsFile := initDetailsFile localtime_r
def InitMoOkDetailsFile := initDetailsFile localtime_r

/-- The type of these functions. -/
abbrev InitFile := Details → FileType → Bytes → Int → Int → InitIo → Details × Int

/-- Call by call, up to the first one that fails. -/
def initFiles (maxFileSize genFreq : Int) (folder : FileType → Bytes) (io : FileType → InitIo) :
    List (FileType × InitFile) → Details → Details × Int
  | [], s => (s, 0)
  | (ft, init) :: calls, s =>
    let r := init s ft (folder ft) maxFileSize genFreq (io ft)
    if r.2 < 0 then (r.1, -1) else initFiles maxFileSize genFreq folder io calls r.1

/-- The calls of a start. -/
def initCalls : List (FileType × InitFile) :=
  [(.FWD_MSG_DETAIL, InitMtDetailsFile localtime_r), (.FWD_MSGOK_DETAIL, InitMtOkDetailsFile localtime_r),
    (.FWD_RE_DETAIL, InitReDetailsFile localtime_r), (.FWD_REOK_DETAIL, InitReOkDetailsFile localtime_r),
    (.FWD_MO_DETAIL, InitMoDetailsFile localtime_r), (.FWD_MOOK_DETAIL, InitMoOkDetailsFile localtime_r)]

/-- `threadNum` writers come to the queue. -/
def DetailFileSys.startWriters (s : DetailFileSys) (threadNum : Nat) : DetailFileSys :=
  { s with queue := { s.queue with takers := s.queue.takers ++ List.replicate threadNum .ready } }

/-- `detailFileSysInit` -/
def detailFileSysInit (s : Details) (threadNum : Nat) (ptCodeSt : Bytes) (maxFileSize genFreq : Int)
    (folder : FileType → Bytes) (io : FileType → InitIo) : Details × Int :=
  let maxFileSize := FileMgr.applySize maxFileSize
  let genFreq := FileMgr.applyFreq genFreq
  -- `InitParams`
  if ptCodeSt = [] then (s, -1)
  else
    let (s, ret) := initFiles maxFileSize genFreq folder io (initCalls localtime_r) s
    if ret < 0 then (s, -1)
    else
      ({ s with
        sys := s.sys.startWriters threadNum
        maxFileSize_ := maxFileSize
        genFreq_ := genFreq }, ret)

/-! ## The steps -/

inductive DetailsAct where
  /-- A step that touches no file. -/
  | detail (a : DetailAct)
  /-- The `switch` in writer `i`, with `WriteFile`. -/
  | write (i : Nat) (io : WriteIo) (t t' : Times) (opens opens' : Bool)
  | everySecondCheck (t : FileType → Times) (opens : FileType → Bool)
  | updateMaxFileSize (size : Int)
  | updateMaxgenFreq (freq : Int)
  /-- The end of `detailFileSysExit`. -/
  | closeAll (t : FileType → Times)

namespace Details

/-- A call on the `FileMgr` of each kind in `kinds`. -/
def onFiles (files : FileType → FileState) (kinds : List FileType) (a : FileType → FileAct) :
    Option (FileType → FileState) :=
  if kinds.all fun ft => ((files ft).next localtime_r (a ft)).isSome then
    some fun ft =>
      if kinds.contains ft then ((files ft).next localtime_r (a ft)).getD (files ft) else files ft
  else none

/-- `WriteFile`: what is not in the map is refused. -/
def WriteFile (s : Details) (fileType : FileType) (data : Bytes) (io : WriteIo) (t t' : Times)
    (opens opens' : Bool) : Option (FileType → FileState) :=
  onFiles localtime_r s.files (if s.details_.contains fileType then [fileType] else [])
    fun _ => .WriteToFile data io t t' opens opens'

/-- The record that writer `i` has taken. -/
def heldBy (s : Details) (i : Nat) : Option Record :=
  match s.sys.queue.takers[i]? with
  | some (.done (some r)) => some r
  | _ => none

/-- The steps that have an action of their own. -/
def touchesFiles (s : Details) : DetailAct → Bool
  | .write _ => true
  | .exit => s.sys.exit = .joining
  | .call _ | .insert _ _ | .turn _ | .sleep _ => false

def next (s : Details) : DetailsAct → Option Details
  | .detail a =>
    if s.touchesFiles a then none else (s.sys.next a).map fun sys => { s with sys }
  | .write i io t t' opens opens' =>
    (s.heldBy i).bind fun r =>
      (s.sys.next (.write i)).bind fun sys =>
        match r.info.type.fileType with
        | none => some { s with sys }
        | some ft =>
          (s.WriteFile localtime_r ft r.info.detail io t t' opens opens').map fun files =>
            { s with sys, files }
  | .everySecondCheck t opens =>
    (onFiles localtime_r s.files s.details_ fun ft => .SwitchToNewFile (t ft) (opens ft)).map
      fun files => { s with files }
  | .updateMaxFileSize size =>
    let size := FileMgr.applySize size
    if size ≠ s.maxFileSize_ then
      (onFiles localtime_r s.files s.details_ fun _ => .updateMaxFileSize (FileMgr.applySize size)).map
        fun files => { s with files, maxFileSize_ := size }
    else some s
  | .updateMaxgenFreq freq =>
    let freq := FileMgr.applyFreq freq
    if s.genFreq_ ≠ freq then
      (onFiles localtime_r s.files s.details_ fun _ => .updateGenFreq (FileMgr.applyFreq freq)).map
        fun files => { s with files, genFreq_ := freq }
    else some s
  | .closeAll t =>
    if s.sys.exit = .joining then
      (s.sys.next .exit).bind fun sys =>
        (onFiles localtime_r s.files s.details_ fun ft => .Close (t ft)).map fun files =>
          { s with
            sys := sys
            files := files
            details_ := if sys.exit = .closed then [] else s.details_ }
    else none

/-- The step of `DetailFileSys` is in time, nothing fails, and a file that is opened is new. -/
def Regular (s : Details) : DetailsAct → Prop
  | .detail a => InTime s.sys a
  | .write i io t t' opens opens' =>
    ∀ r ∈ s.heldBy i, ∀ ft ∈ r.info.type.fileType,
      MsgFile.Regular localtime_r (s.files ft) (.WriteToFile r.info.detail io t t' opens opens')
  | .everySecondCheck t opens =>
    ∀ ft ∈ s.details_, MsgFile.Regular localtime_r (s.files ft) (.SwitchToNewFile (t ft) (opens ft))
  | .updateMaxFileSize _ | .updateMaxgenFreq _ => True
  | .closeAll _ => InTime s.sys .exit

instance (s : Details) (a : DetailsAct) : Decidable (Regular localtime_r s a) := by
  cases a <;> unfold Regular <;> infer_instance

end Details

/-- From the start `s`. -/
def detailsSystem (s : Details) : Sys Details DetailsAct where
  init := s
  next := Details.next localtime_r

end System

/-! ## What a call on some files does -/

section Limits

variable {localtime_r : Nat → Tm}

theorem Details.onFiles_eq_some {files files' : FileType → FileState} {kinds : List FileType}
    {a : FileType → FileAct} (h : Details.onFiles localtime_r files kinds a = some files')
    (ft : FileType) : (ft ∈ kinds ∧ (files ft).next localtime_r (a ft) = some (files' ft)) ∨
      (ft ∉ kinds ∧ files' ft = files ft) := by
  unfold Details.onFiles at h
  split at h
  · rename_i hall
    cases h
    by_cases hm : ft ∈ kinds
    · left
      obtain ⟨f, hf⟩ := Option.isSome_iff_exists.mp (List.all_eq_true.mp hall ft hm)
      have hc : kinds.contains ft = true := by simpa using hm
      refine ⟨hm, ?_⟩
      simp only [if_pos hc, hf, Option.getD_some]
    · exact .inr ⟨hm, if_neg (by simpa using hm)⟩
  · cases h

/-- A file that `ApplyFileInfo` has opened, and no record in it. -/
def openedFile (localtime_r : Nat → Tm) (d : Disk FileName) (pathTmp : Bytes)
    (maxFileSize genFreq : Int) (io : InitIo) : FileState :=
  let r := (FileMgr.new localtime_r io.new).ApplyFileInfo localtime_r d pathTmp
    (FileMgr.applySize maxFileSize) (FileMgr.applyFreq genFreq) io.apply true
  ⟨r.1, r.2.1, io.apply.switch, []⟩

/-- What a start that succeeds has done, from `s`, with these kinds: those that were not in the map have
a new file with the limits that were given, the others are as they were. -/
structure SetUp (localtime_r : Nat → Tm) (maxFileSize genFreq : Int) (folder : FileType → Bytes)
    (io : FileType → InitIo) (s : Details) (kinds : List FileType) (s' : Details) : Prop where
  sys : s'.sys = s.sys
  details : ∀ ft, ft ∈ s'.details_ ↔ ft ∈ s.details_ ∨ ft ∈ kinds
  kept : ∀ ft, ft ∈ s.details_ ∨ ft ∉ kinds → s'.files ft = s.files ft
  opened : ∀ ft, ft ∉ s.details_ → ft ∈ kinds → s'.files ft =
    openedFile localtime_r (s.files ft).disk (folder ft) maxFileSize genFreq (io ft)

variable {maxFileSize genFreq : Int} {folder : FileType → Bytes} {io : FileType → InitIo}
  {s s' : Details}

theorem initDetailsFile_setUp {ft : FileType} {r : Details × Int} (h : initDetailsFile localtime_r s ft
    (folder ft) maxFileSize genFreq (io ft) = r) (hret : ¬ r.2 < 0) :
    SetUp localtime_r maxFileSize genFreq folder io s [ft] r.1 := by
  unfold initDetailsFile at h
  split at h
  · cases h
    exact absurd (show (-1 : Int) < 0 by decide) hret
  · split at h
    · rename_i hmem
      cases h
      have hmem : ft ∈ s.details_ := by simpa using hmem
      refine ⟨rfl, fun k => ?_, fun _ _ => rfl, fun k hk hin => ?_⟩
      · rw [List.mem_singleton]
        exact ⟨.inl, fun hor => hor.elim id fun heq => heq ▸ hmem⟩
      · rw [List.mem_singleton.mp hin] at hk
        exact absurd hmem hk
    · rename_i hmem
      have hmem : ft ∉ s.details_ := by simpa using hmem
      cases ho : (io ft).opens with
      | false =>
        rw [ho] at h
        cases h
        exact absurd (show (-1 : Int) < 0 by decide) hret
      | true =>
        rw [ho] at h
        have hr : r = ({ s with
            details_ := s.details_ ++ [ft]
            files := fun k => if k = ft then openedFile localtime_r (s.files ft).disk (folder ft)
              maxFileSize genFreq (io ft) else s.files k }, 0) := h.symm
        rw [hr]
        refine ⟨rfl, fun k => by simp, fun k hk => if_neg ?_, fun k _ hin => ?_⟩
        · rintro rfl
          exact hk.elim hmem fun hne => hne (List.mem_singleton_self k)
        · obtain rfl := List.mem_singleton.mp hin
          exact if_pos rfl

/-- The calls one after the other. -/
theorem initFiles_setUp {kinds : List FileType} {ret : Int} (h : initFiles maxFileSize genFreq folder io
    (kinds.map fun ft => (ft, initDetailsFile localtime_r)) s = (s', ret)) (hret : ¬ ret < 0) :
    ret = 0 ∧ SetUp localtime_r maxFileSize genFreq folder io s kinds s' := by
  induction kinds generalizing s with
  | nil =>
    cases h
    exact ⟨rfl, rfl, fun k => by simp, fun _ _ => rfl, fun k _ hin => absurd hin List.not_mem_nil⟩
  | cons ft kinds ih =>
    rw [List.map_cons, initFiles] at h
    generalize hr : initDetailsFile localtime_r s ft (folder ft) maxFileSize genFreq (io ft) = r at h
    split at h
    · cases h
      exact absurd (by decide) hret
    · rename_i hone
      have h₁ := initDetailsFile_setUp hr hone
      obtain ⟨hzero, h₂⟩ := ih h
      refine ⟨hzero, h₂.sys.trans h₁.sys, fun k => ?_, fun k hk => ?_, fun k hk hin => ?_⟩
      · rw [h₂.details, h₁.details, List.mem_singleton, List.mem_cons, or_assoc]
      · have hfirst := h₁.kept k (hk.imp_right fun hne hin => hne (List.mem_singleton.mp hin ▸ .head _))
        rw [h₂.kept k ?_, hfirst]
        exact hk.imp (fun hmem => (h₁.details k).mpr (.inl hmem)) fun hne hin => hne (.tail _ hin)
      · by_cases heq : k = ft
        · subst heq
          rw [h₂.kept k (.inl ((h₁.details k).mpr (.inr (.head _))))]
          exact h₁.opened k hk (.head _)
        · have hmem : k ∉ [ft] := fun hin => heq (List.mem_singleton.mp hin)
          have hin := (List.mem_cons.mp hin).resolve_left heq
          have hk' : k ∉ r.1.details_ := fun hd => ((h₁.details k).mp hd).elim hk hmem
          rw [h₂.opened k hk' hin, h₁.kept k (.inr hmem)]

/-- A start that succeeds. -/
theorem detailFileSysInit_eq_zero {threadNum : Nat} {ptCodeSt : Bytes} (h : detailFileSysInit localtime_r s
    threadNum ptCodeSt maxFileSize genFreq folder io = (s', 0)) :
    ∃ s₁, SetUp localtime_r (FileMgr.applySize maxFileSize) (FileMgr.applyFreq genFreq) folder io s
        allTypes s₁ ∧
      s' = { s₁ with
        sys := s.sys.startWriters threadNum
        maxFileSize_ := FileMgr.applySize maxFileSize
        genFreq_ := FileMgr.applyFreq genFreq } := by
  unfold detailFileSysInit at h
  simp only at h
  split at h
  · cases congrArg Prod.snd h
  · generalize hr : initFiles _ _ folder io (initCalls localtime_r) s = r at h
    split at h
    · cases congrArg Prod.snd h
    · rename_i hret
      have hset : SetUp localtime_r (FileMgr.applySize maxFileSize) (FileMgr.applyFreq genFreq) folder io s
          allTypes r.1 := (initFiles_setUp hr hret).2
      refine ⟨r.1, hset, ?_⟩
      rw [← hset.sys]
      exact (congrArg Prod.fst h).symm

/-! ## The limits -/

theorem applySize_range (size : Int) :
    1 ≤ FileMgr.applySize size ∧ FileMgr.applySize size ≤ 1000 := by
  unfold FileMgr.applySize
  split_ifs <;> omega

theorem applyFreq_range (freq : Int) :
    1 ≤ FileMgr.applyFreq freq ∧ FileMgr.applyFreq freq ≤ 1800 := by
  unfold FileMgr.applyFreq
  split_ifs <;> omega

theorem applySize_of_range {size : Int} (h : 1 ≤ size ∧ size ≤ 1000) :
    FileMgr.applySize size = size := by
  unfold FileMgr.applySize
  split_ifs <;> omega

theorem applyFreq_of_range {freq : Int} (h : 1 ≤ freq ∧ freq ≤ 1800) :
    FileMgr.applyFreq freq = freq := by
  unfold FileMgr.applyFreq
  split_ifs <;> omega

namespace FileMgr

/-- The limits that a file works with. -/
def limits (m : FileMgr) : Int × Int := (m.maxFileSize_, m.genFreq_)

variable (m : FileMgr) (d : Disk FileName) (t : Times)

theorem limits_SwitchFile (force opens : Bool) :
    (m.SwitchFile localtime_r d force t opens).1.limits = m.limits := by
  unfold SwitchFile
  split
  · rfl
  · split <;> rfl

theorem limits_put (content : Bytes) (io : WriteIo) : (m.put d content io).1.limits = m.limits := by
  unfold put
  split <;> rfl

theorem limits_WriteToFile (content : Bytes) (io : WriteIo) (t' : Times) (opens opens' : Bool) :
    (m.WriteToFile localtime_r d content io t t' opens opens').1.limits = m.limits := by
  unfold WriteToFile
  split
  · rfl
  · have hs : (m.SwitchFile localtime_r d false t opens).1.limits = m.limits :=
      limits_SwitchFile m d t false opens
    generalize m.SwitchFile localtime_r d false t opens = r at hs
    have hp := limits_put r.1 r.2 content io
    simp only
    split
    · rename_i hr
      rw [hr] at hp
      exact hp.trans hs
    · rename_i hr
      rw [hr] at hp
      exact (limits_SwitchFile ..).trans (hp.trans hs)

theorem limits_updateMaxFileSize {size : Int} (h : 1 ≤ size ∧ size ≤ 1000) :
    (m.updateMaxFileSize size).limits = (size, m.genFreq_) := by
  rw [limits, updateMaxFileSize]
  dsimp only
  rw [if_neg (by omega), if_neg (by omega)]

theorem limits_updateGenFreq {freq : Int} (h : 1 ≤ freq ∧ freq ≤ 1800) :
    (m.updateGenFreq freq).limits = (m.maxFileSize_, freq) := by
  rw [limits, updateGenFreq, applyFreq_of_range h]

theorem limits_Close : (m.Close localtime_r d t).1.limits = m.limits := by
  show (m.CloseCurFile localtime_r d t).1.limits = m.limits
  unfold CloseCurFile
  split <;> rfl

end FileMgr

/-- A call that is none of the two updates, and no `ApplyFileInfo`, leaves the limits. -/
theorem limits_next {s s' : FileState} {a : FileAct} (h : s.next localtime_r a = some s')
    (happly : ∀ path size freq t opens, a ≠ .ApplyFileInfo path size freq t opens)
    (hfreq : ∀ freq, a ≠ .updateGenFreq freq) (hsize : ∀ size, a ≠ .updateMaxFileSize size) :
    s'.mgr.limits = s.mgr.limits := by
  cases a with
  | ApplyFileInfo path size freq t opens => exact absurd rfl (happly path size freq t opens)
  | updateGenFreq freq => exact absurd rfl (hfreq freq)
  | updateMaxFileSize size => exact absurd rfl (hsize size)
  | WriteToFile content io t t' opens opens' =>
    simp only [FileState.next] at h
    split at h
    · cases h
      exact FileMgr.limits_WriteToFile ..
    · cases h
  | SwitchToNewFile t opens =>
    simp only [FileState.next] at h
    split at h
    · cases h
      unfold FileMgr.SwitchToNewFile
      split
      · exact FileMgr.limits_SwitchFile ..
      · rfl
    · cases h
  | Close t =>
    simp only [FileState.next] at h
    split at h
    · cases h
      exact FileMgr.limits_Close ..
    · cases h

/-- The limits of `DetailFileSys` are in their ranges, and those of every file in the map. -/
structure Details.Limits (s : Details) : Prop where
  size : 1 ≤ s.maxFileSize_ ∧ s.maxFileSize_ ≤ 1000
  freq : 1 ≤ s.genFreq_ ∧ s.genFreq_ ≤ 1800
  files : ∀ ft ∈ s.details_, (s.files ft).mgr.limits = (s.maxFileSize_, s.genFreq_)

/-- The files after a step that leaves the limits. -/
theorem Details.Limits.keep {s s' : Details} (h : s.Limits)
    (hsize : s'.maxFileSize_ = s.maxFileSize_) (hfreq : s'.genFreq_ = s.genFreq_)
    (hmap : ∀ ft ∈ s'.details_, ft ∈ s.details_)
    (hfiles : ∀ ft ∈ s.details_, (s'.files ft).mgr.limits = (s.files ft).mgr.limits) : s'.Limits := by
  refine ⟨hsize ▸ h.size, hfreq ▸ h.freq, fun ft hft => ?_⟩
  rw [hfiles ft (hmap ft hft), hsize, hfreq]
  exact h.files ft (hmap ft hft)

theorem limits_onFiles {files files' : FileType → FileState} {kinds : List FileType}
    {a : FileType → FileAct} (h : Details.onFiles localtime_r files kinds a = some files')
    (ha : ∀ {s s' : FileState} ft, s.next localtime_r (a ft) = some s' → s'.mgr.limits = s.mgr.limits)
    (ft : FileType) : (files' ft).mgr.limits = (files ft).mgr.limits := by
  rcases Details.onFiles_eq_some h ft with ⟨-, hf⟩ | ⟨-, hf⟩
  · exact ha ft hf
  · rw [hf]

theorem Details.Limits.next {s s' : Details} (h : s.Limits) {a : DetailsAct}
    (hs : s.next localtime_r a = some s') : s'.Limits := by
  cases a with
  | detail a =>
    have hsame : ∀ {sys}, Limits { s with sys := sys } :=
      h.keep rfl rfl (fun _ hft => hft) fun _ _ => rfl
    simp only [Details.next] at hs
    split at hs
    · cases hs
    · obtain ⟨sys, -, rfl⟩ := Option.map_eq_some_iff.mp hs
      exact hsame
  | write i io t t' opens opens' =>
    obtain ⟨r, -, hs⟩ := Option.bind_eq_some_iff.mp hs
    obtain ⟨sys, -, hs⟩ := Option.bind_eq_some_iff.mp hs
    split at hs
    · cases hs
      exact h.keep rfl rfl (fun _ hft => hft) fun _ _ => rfl
    · obtain ⟨files, hf, rfl⟩ := Option.map_eq_some_iff.mp hs
      exact h.keep rfl rfl (fun _ hft => hft) fun ft _ =>
        limits_onFiles hf (fun _ hn => limits_next hn (by simp) (by simp) (by simp)) ft
  | everySecondCheck t opens =>
    obtain ⟨files, hf, rfl⟩ := Option.map_eq_some_iff.mp hs
    exact h.keep rfl rfl (fun _ hft => hft) fun ft _ =>
      limits_onFiles hf (fun _ hn => limits_next hn (by simp) (by simp) (by simp)) ft
  | updateMaxFileSize size =>
    have hr := applySize_range size
    simp only [Details.next] at hs
    split at hs
    · obtain ⟨files, hf, rfl⟩ := Option.map_eq_some_iff.mp hs
      refine ⟨hr, h.freq, fun ft hft => ?_⟩
      rcases Details.onFiles_eq_some hf ft with ⟨-, hf⟩ | ⟨hne, -⟩
      · simp only [FileState.next, Option.some.injEq] at hf
        have hgen : (s.files ft).mgr.genFreq_ = s.genFreq_ := congrArg Prod.snd (h.files ft hft)
        show (files ft).mgr.limits = _
        rw [← hf, applySize_of_range hr, FileMgr.limits_updateMaxFileSize _ hr, hgen]
      · exact absurd hft hne
    · cases hs
      exact h
  | updateMaxgenFreq freq =>
    have hr := applyFreq_range freq
    simp only [Details.next] at hs
    split at hs
    · obtain ⟨files, hf, rfl⟩ := Option.map_eq_some_iff.mp hs
      refine ⟨h.size, hr, fun ft hft => ?_⟩
      rcases Details.onFiles_eq_some hf ft with ⟨-, hf⟩ | ⟨hne, -⟩
      · simp only [FileState.next, Option.some.injEq] at hf
        have hmax : (s.files ft).mgr.maxFileSize_ = s.maxFileSize_ :=
          congrArg Prod.fst (h.files ft hft)
        show (files ft).mgr.limits = _
        rw [← hf, applyFreq_of_range hr, FileMgr.limits_updateGenFreq _ hr, hmax]
      · exact absurd hft hne
    · cases hs
      exact h
  | closeAll t =>
    simp only [Details.next] at hs
    split at hs
    · obtain ⟨sys, -, hs⟩ := Option.bind_eq_some_iff.mp hs
      obtain ⟨files, hf, rfl⟩ := Option.map_eq_some_iff.mp hs
      refine h.keep rfl rfl (fun ft hft => ?_) fun ft _ =>
        limits_onFiles hf (fun _ hn => limits_next hn (by simp) (by simp) (by simp)) ft
      dsimp only at hft
      split at hft
      · cases hft
      · exact hft
    · cases hs

/-- **The limits.** Behind a start that succeeds, in every state that any steps lead to, all files in the
map work with the limits of `DetailFileSys`, which are in their ranges, exactly when the files that were
in the map before, from a start that had failed, had the limits of this one. -/
theorem limits_agree (localtime_r : Nat → Tm) (s₀ s₁ : Details) (threadNum : Nat) (ptCodeSt : Bytes)
    (maxFileSize genFreq : Int) (folder : FileType → Bytes) (io : FileType → InitIo)
    (h₀ : detailFileSysInit localtime_r s₀ threadNum ptCodeSt maxFileSize genFreq folder io = (s₁, 0)) :
    (∀ s, (detailsSystem localtime_r s₁).Reach s → s.Limits) ↔
      ∀ ft ∈ s₀.details_, (s₀.files ft).mgr.limits =
        (FileMgr.applySize maxFileSize, FileMgr.applyFreq genFreq) := by
  obtain ⟨s, hset, rfl⟩ := detailFileSysInit_eq_zero h₀
  constructor
  · intro hall ft hft
    have hlimits := (hall _ .init).files ft ((hset.details ft).mpr (.inl hft))
    change (s.files ft).mgr.limits = _ at hlimits
    rw [hset.kept ft (.inl hft)] at hlimits
    exact hlimits
  · intro hold s' h
    refine h.inv ⟨applySize_range _, applyFreq_range _, fun ft _ => ?_⟩ fun _ _ _ hi hs => hi.next hs
    change (s.files ft).mgr.limits = _
    by_cases hft : ft ∈ s₀.details_
    · rw [hset.kept ft (.inl hft)]
      exact hold ft hft
    · rw [hset.opened ft hft (mem_allTypes ft)]
      simp only [openedFile, FileMgr.limits, FileMgr.ApplyFileInfo,
        applySize_of_range (applySize_range _), applyFreq_of_range (applyFreq_range _)]
      rfl

/-- What the system answers to a start that opens these files. -/
def sampleIo (opens : FileType → Bool) (ft : FileType) : InitIo :=
  ⟨true, instant 0, instant 0, opens ft⟩

/-- A start with one writer. -/
def sampleInit (s : Details) (maxFileSize : Int) (opens : FileType → Bool) : Details × Int :=
  detailFileSysInit midnight s 1 [67] maxFileSize 60 (fun _ => [46]) (sampleIo opens)

/-- On empty folders. -/
def sampleNew : Details := .new midnight fun _ => .empty

def sampleStart : Details × Int := sampleInit sampleNew 20 fun _ => true

/-- A start that gets as far as the fourth file. -/
def sampleFailed : Details × Int := sampleInit sampleNew 7 fun ft => ft ≠ .FWD_REOK_DETAIL

/-- Another one behind it, with another size. -/
def sampleRestart : Details × Int := sampleInit sampleFailed.1 20 fun _ => true

theorem sampleStart_eq : sampleStart = (sampleStart.1, 0) := Prod.ext rfl (by decide +kernel)

theorem sampleRestart_eq : sampleRestart = (sampleRestart.1, 0) := Prod.ext rfl (by decide +kernel)

/-- A size out of its range sets the default one; and three files keep the size of a start that has
failed. -/
theorem limits_agree_sample :
    (∃ s, (detailsSystem midnight sampleStart.1).Reach s ∧ s.maxFileSize_ = 20 ∧ s.genFreq_ = 5 ∧
      s.Limits) ∧
    ∃ s, (detailsSystem midnight sampleRestart.1).Reach s ∧ ¬ s.Limits := by
  constructor
  · have hrun : ((detailsSystem midnight sampleStart.1).run sampleStart.1
        [.updateMaxFileSize 7, .updateMaxgenFreq 5, .updateMaxFileSize 2000]).any
          (fun s => s.maxFileSize_ = 20 ∧ s.genFreq_ = 5) = true := by
      decide +kernel
    obtain ⟨s, hs, hp⟩ := (Option.any_eq_true ..).mp hrun
    obtain ⟨hsize, hfreq⟩ := of_decide_eq_true hp
    have h : (detailsSystem midnight sampleStart.1).Reach s := Sys.Reach.init.run _ hs
    exact ⟨s, h, hsize, hfreq, (limits_agree midnight sampleNew sampleStart.1 1 [67] 20 60
      (fun _ => [46]) (sampleIo fun _ => true) sampleStart_eq).mpr
        (fun ft hft => absurd hft List.not_mem_nil) s h⟩
  · have hiff := limits_agree midnight sampleFailed.1 sampleRestart.1 1 [67] 20 60 (fun _ => [46])
      (sampleIo fun _ => true) sampleRestart_eq
    by_contra hno
    have hall := hiff.mp fun s h => not_not.mp fun hlimits => hno ⟨s, h, hlimits⟩
    exact absurd (hall .FWD_MSG_DETAIL (by decide +kernel)) (by decide +kernel)

end Limits

/-! ## The records -/

section Records

variable {localtime_r : Nat → Tm}

/-- What a step that touches no file does not change. -/
theorem next_of_not_touchesFiles {s : Details} {a : DetailAct} (ha : s.touchesFiles a = false)
    {sys : DetailFileSys} (hs : s.sys.next a = some sys) :
    sys.written = s.sys.written ∧ (sys.exit = .closed ↔ s.sys.exit = .closed) := by
  cases a with
  | call info =>
    simp only [DetailFileSys.next] at hs
    cases hs
    split <;> exact ⟨rfl, Iff.rfl⟩
  | insert r w =>
    simp only [DetailFileSys.next] at hs
    split at hs
    · obtain ⟨queue, -, rfl⟩ := onQueue_eq hs
      exact ⟨rfl, Iff.rfl⟩
    · cases hs
  | turn i =>
    obtain ⟨queue, -, rfl⟩ := onQueue_eq hs
    exact ⟨rfl, Iff.rfl⟩
  | sleep i =>
    obtain ⟨queue, -, rfl⟩ := onQueue_eq hs
    exact ⟨rfl, Iff.rfl⟩
  | write i => cases ha
  | exit =>
    have hne : s.sys.exit ≠ .joining := by simpa [Details.touchesFiles] using ha
    simp only [DetailFileSys.next, DetailFileSys.exitStep] at hs
    cases he : s.sys.exit with
    | before =>
      simp only [he] at hs
      cases hs
      exact ⟨rfl, by simp⟩
    | queueExit =>
      simp only [he] at hs
      obtain ⟨queue, -, rfl⟩ := onQueue_eq hs
      exact ⟨rfl, by simp⟩
    | notifyAll =>
      simp only [he] at hs
      obtain ⟨queue, -, rfl⟩ := onQueue_eq hs
      exact ⟨rfl, by simp⟩
    | polling =>
      simp only [he] at hs
      split at hs
      · cases hs
        split
        · exact ⟨rfl, by simp [he]⟩
        · exact ⟨rfl, by simp⟩
      · cases hs
    | joining => exact absurd he hne
    | closed =>
      simp only [he] at hs
      cases hs

theorem heldBy_eq_some {s : Details} {i : Nat} {r : Record} (h : s.heldBy i = some r) :
    s.sys.queue.takers[i]? = some (.done (some r)) := by
  unfold Details.heldBy at h
  split at h
  · rename_i hi
    cases h
    exact hi
  · cases h

/-- The writer hands its record on. -/
theorem next_write {s : Details} {i : Nat} {r : Record} (hr : s.heldBy i = some r)
    {sys : DetailFileSys} (hs : s.sys.next (.write i) = some sys) :
    sys.written = s.sys.written ++ DetailFileSys.toFile r ∧ sys.exit = s.sys.exit := by
  simp only [DetailFileSys.next, heldBy_eq_some hr] at hs
  obtain ⟨queue, -, rfl⟩ := onQueue_eq hs
  exact ⟨rfl, rfl⟩

/-- A writer that holds a record is not gone yet. -/
theorem not_closed_of_heldBy {s : Details} (hi : Shutting s.sys) {i : Nat} {r : Record}
    (hr : s.heldBy i = some r) : s.sys.exit ≠ .closed := fun hcl =>
  Shutting.not_all (List.mem_of_getElem? (heldBy_eq_some hr)) rfl (hi.closed hcl)

/-- A record that nothing keeps from its file is noted there. -/
theorem Stored.write {f f' : FileState} (hi : Stored f.mgr f.disk f.written)
    (happly : f.mgr.bApply_ = true) {content : Bytes} {io : WriteIo} {t t' : Times}
    {opens opens' : Bool}
    (hc : Regular localtime_r f (.WriteToFile content io t t' opens opens'))
    (h : f.next localtime_r (.WriteToFile content io t t' opens opens') = some f') :
    f'.mgr.bApply_ = true ∧ ∃ w, f'.written = f.written ++ [w] ∧ w.bytes = content := by
  obtain ⟨⟨rfl, rfl⟩, hf⟩ := hc
  have hi₁ := hi.switchFile t fun h => (hf h).1
  have happly₁ : (f.mgr.SwitchFile localtime_r f.disk false t true).1.bApply_ = true :=
    (bApply_switchFile f.mgr f.disk false t true).trans happly
  obtain ⟨k, hk⟩ := Option.ne_none_iff_exists'.mp (hi₁.applied happly₁)
  simp only [FileState.next] at h
  split at h
  · cases h
    generalize hr : f.mgr.SwitchFile localtime_r f.disk false t true = r at happly₁ hk
    have heq : f.mgr.WriteToFile localtime_r f.disk content .done t t' true opens' =
        ({ r.1 with curPos_ := r.1.curPos_ + Int32.ofNat content.length },
          r.2.append k content, 0) := by
      simp only [FileMgr.WriteToFile, happly, hr, FileMgr.put_done hk]
      rfl
    rw [heq]
    refine ⟨happly₁, ?_⟩
    simp only [if_pos, FileState.note_of_stream hk]
    exact ⟨_, rfl, rfl⟩
  · cases h

/-- The texts of the records of a kind that went to `WriteFile`. -/
def textsOf (written : List (FileType × Record)) (ft : FileType) : List Bytes :=
  (written.filter fun w => w.1 = ft).map fun w => w.2.info.detail

theorem textsOf_append (written new : List (FileType × Record)) (ft : FileType) :
    textsOf (written ++ new) ft = textsOf written ft ++ textsOf new ft := by
  simp [textsOf]

/-- The records that went to `WriteFile` are those in the files, and the files are open until
`CloseAll`. -/
structure Inv (n : Nat) (s : Details) : Prop where
  sys : ((detailSystem n).only InTime).Reach s.sys
  details : ∀ ft, ft ∈ s.details_ ↔ s.sys.exit ≠ .closed
  stored : ∀ ft, Stored (s.files ft).mgr (s.files ft).disk (s.files ft).written
  applied : s.sys.exit ≠ .closed → ∀ ft, (s.files ft).mgr.bApply_ = true
  closed : s.sys.exit = .closed → ∀ ft, (s.files ft).mgr.fp_ = none
  texts : ∀ ft, (s.files ft).written.map (·.bytes) = textsOf s.sys.written ft

theorem counted_shutting {n : Nat} {s : DetailFileSys} (h : ((detailSystem n).only InTime).Reach s) :
    Counted s ∧ Shutting s :=
  Sys.Reach.inv_only (I := fun s => Counted s ∧ Shutting s) ⟨Counted.init n, Shutting.init n⟩
    (fun _ _ _ hi hc hs => ⟨hi.1.next hc hs, hi.2.next hc hs⟩) h

theorem reach_step {n : Nat} {s s' : DetailFileSys} {a : DetailAct}
    (h : ((detailSystem n).only InTime).Reach s) (hc : InTime s a) (hs : s.next a = some s') :
    ((detailSystem n).only InTime).Reach s' :=
  h.step (a := a) (by simp only [Sys.only, if_pos hc]; exact hs)

namespace Inv

variable {n : Nat} {s s' : Details}

/-- A file is in the map until `CloseAll`. -/
theorem mem_details (hi : Inv n s) (hcl : s.sys.exit ≠ .closed) (ft : FileType) : ft ∈ s.details_ :=
  (hi.details ft).mpr hcl

theorem write (hi : Inv n s) {i : Nat} {io : WriteIo} {t t' : Times} {opens opens' : Bool}
    (hc : s.Regular localtime_r (.write i io t t' opens opens'))
    (hs : s.next localtime_r (.write i io t t' opens opens') = some s') : Inv n s' := by
  obtain ⟨r, hr, hs⟩ := Option.bind_eq_some_iff.mp hs
  obtain ⟨sys, hsys, hs⟩ := Option.bind_eq_some_iff.mp hs
  have hopen := not_closed_of_heldBy (counted_shutting hi.sys).2 hr
  have hreach := reach_step hi.sys (a := .write i) trivial hsys
  obtain ⟨hwritten, hexit⟩ := next_write hr hsys
  cases hft : r.info.type.fileType with
  | none =>
    rw [hft] at hs
    cases hs
    have hto : DetailFileSys.toFile r = [] := by simp [DetailFileSys.toFile, hft]
    refine ⟨hreach, ?_, hi.stored, fun _ => hi.applied hopen, fun hcl => ?_, fun ft => ?_⟩
    · rw [hexit]
      exact hi.details
    · exact absurd (hexit ▸ hcl) hopen
    · rw [hwritten, hto, List.append_nil]
      exact hi.texts ft
  | some kind =>
    rw [hft] at hs
    obtain ⟨files, hf, rfl⟩ := Option.map_eq_some_iff.mp hs
    have hto : DetailFileSys.toFile r = [(kind, r)] := by simp [DetailFileSys.toFile, hft]
    have hmem : s.details_.contains kind = true := by simpa using hi.mem_details hopen kind
    rw [Details.WriteFile, if_pos hmem] at hf
    -- the file of the kind gets the record, the other files are as they were
    have hfile : ∀ ft, Stored (files ft).mgr (files ft).disk (files ft).written ∧
        (files ft).mgr.bApply_ = true ∧
        (files ft).written.map (·.bytes) =
          (s.files ft).written.map (·.bytes) ++ textsOf [(kind, r)] ft := by
      intro ft
      rcases Details.onFiles_eq_some hf ft with ⟨hm, hn⟩ | ⟨hm, hn⟩
      · obtain rfl : ft = kind := List.mem_singleton.mp hm
        have hreg := hc r hr ft hft
        obtain ⟨happly, w, hw, hbytes⟩ := (hi.stored ft).write (hi.applied hopen ft) hreg hn
        refine ⟨(hi.stored ft).next hreg hn, happly, ?_⟩
        rw [hw]
        simp [textsOf, hbytes]
      · have hne : kind ≠ ft := fun e => hm (by rw [e]; exact List.mem_singleton_self ft)
        rw [hn]
        refine ⟨hi.stored ft, hi.applied hopen ft, ?_⟩
        simp [textsOf, hne]
    refine ⟨hreach, ?_, fun ft => (hfile ft).1, fun _ ft => (hfile ft).2.1, fun hcl => ?_,
      fun ft => ?_⟩
    · rw [hexit]
      exact hi.details
    · exact absurd (hexit ▸ hcl) hopen
    · rw [hwritten, hto, textsOf_append, ← hi.texts ft]
      exact (hfile ft).2.2

/-- A call on each file in the map that notes no record and closes none. -/
theorem onFiles (hi : Inv n s) {a : FileType → FileAct} {files : FileType → FileState}
    (hf : Details.onFiles localtime_r s.files s.details_ a = some files)
    (hc : ∀ ft ∈ s.details_, MsgFile.Regular localtime_r (s.files ft) (a ft))
    (ha : ∀ ft {f : FileState}, (s.files ft).next localtime_r (a ft) = some f →
      f.mgr.bApply_ = (s.files ft).mgr.bApply_ ∧ f.written = (s.files ft).written)
    {size freq : Int} :
    Inv n { s with files := files, maxFileSize_ := size, genFreq_ := freq } := by
  refine ⟨hi.sys, hi.details, fun ft => ?_, fun hcl ft => ?_, fun hcl ft => ?_, fun ft => ?_⟩
  · rcases Details.onFiles_eq_some hf ft with ⟨hm, hn⟩ | ⟨-, hn⟩
    · exact (hi.stored ft).next (hc ft hm) hn
    · rw [show ({ s with files := files, maxFileSize_ := size, genFreq_ := freq } : Details).files ft =
        s.files ft from hn]
      exact hi.stored ft
  · rcases Details.onFiles_eq_some hf ft with ⟨-, hn⟩ | ⟨-, hn⟩
    · exact (ha ft hn).1.trans (hi.applied hcl ft)
    · exact (congrArg (·.mgr.bApply_) hn).trans (hi.applied hcl ft)
  · rcases Details.onFiles_eq_some hf ft with ⟨hm, -⟩ | ⟨-, hn⟩
    · exact absurd hcl ((hi.details ft).mp hm)
    · exact (congrArg (·.mgr.fp_) hn).trans (hi.closed hcl ft)
  · rcases Details.onFiles_eq_some hf ft with ⟨-, hn⟩ | ⟨-, hn⟩
    · exact (congrArg (List.map (·.bytes)) (ha ft hn).2).trans (hi.texts ft)
    · exact (congrArg (List.map (·.bytes)) (congrArg (·.written) hn)).trans (hi.texts ft)

/-- `CloseAll` closes every file. -/
theorem closeAll (hi : Inv n s) {t : FileType → Times} (hc : InTime s.sys .exit)
    (hs : s.next localtime_r (.closeAll t) = some s') : Inv n s' := by
  simp only [Details.next] at hs
  split at hs
  swap
  · cases hs
  rename_i hjoin
  obtain ⟨sys, hsys, hs⟩ := Option.bind_eq_some_iff.mp hs
  obtain ⟨files, hf, rfl⟩ := Option.map_eq_some_iff.mp hs
  have hreach := reach_step hi.sys hc hsys
  have hopen : s.sys.exit ≠ .closed := by simp [hjoin]
  have hnext : sys.exit = .closed ∧ sys.written = s.sys.written := by
    simp only [DetailFileSys.next, DetailFileSys.exitStep, hjoin] at hsys
    split at hsys
    · cases hsys
      exact ⟨rfl, rfl⟩
    · cases hsys
  have hfile : ∀ ft, Stored (files ft).mgr (files ft).disk (files ft).written ∧
      (files ft).mgr.fp_ = none ∧ (files ft).written = (s.files ft).written := by
    intro ft
    rcases Details.onFiles_eq_some hf ft with ⟨-, hn⟩ | ⟨hm, -⟩
    · refine ⟨(hi.stored ft).next (show MsgFile.Regular localtime_r _ (.Close (t ft)) from
        ⟨trivial, trivial⟩) hn, ?_⟩
      simp only [FileState.next] at hn
      split at hn
      · have happly := hi.applied hopen ft
        rw [← Option.some.inj hn]
        simp [FileMgr.Close, FileMgr.CloseCurFile, happly, FileMgr.closeAndRename, FileMgr.reset]
      · cases hn
    · exact absurd (hi.mem_details hopen ft) hm
  refine ⟨hreach, ?_, fun ft => (hfile ft).1, fun hcl => absurd hnext.1 hcl,
    fun _ ft => (hfile ft).2.1, fun ft => ?_⟩
  · rw [if_pos hnext.1]
    exact fun ft => ⟨fun hft => absurd hft List.not_mem_nil, fun hne => absurd hnext.1 hne⟩
  · rw [(hfile ft).2.2, hnext.2]
    exact hi.texts ft

theorem next (hi : Inv n s) {a : DetailsAct} (hc : s.Regular localtime_r a)
    (hs : s.next localtime_r a = some s') : Inv n s' := by
  cases a with
  | detail a =>
    simp only [Details.next] at hs
    split at hs
    · cases hs
    · rename_i htouch
      obtain ⟨sys, hsys, rfl⟩ := Option.map_eq_some_iff.mp hs
      obtain ⟨hwritten, hexit⟩ := next_of_not_touchesFiles (Bool.eq_false_iff.mpr htouch) hsys
      refine ⟨reach_step hi.sys hc hsys, ?_, hi.stored, fun hcl => hi.applied (mt hexit.mpr hcl),
        fun hcl => hi.closed (hexit.mp hcl), fun ft => ?_⟩
      · exact fun ft => (hi.details ft).trans (not_congr hexit.symm)
      · rw [hwritten]
        exact hi.texts ft
  | write i io t t' opens opens' => exact hi.write hc hs
  | everySecondCheck t opens =>
    obtain ⟨files, hf, rfl⟩ := Option.map_eq_some_iff.mp hs
    refine hi.onFiles hf hc fun ft f hn => ?_
    simp only [FileState.next] at hn
    split at hn
    · rw [← Option.some.inj hn]
      refine ⟨?_, rfl⟩
      unfold FileMgr.SwitchToNewFile
      split
      · exact Stored.bApply_switchFile ..
      · rfl
    · cases hn
  | updateMaxFileSize size =>
    simp only [Details.next] at hs
    split at hs
    · obtain ⟨files, hf, rfl⟩ := Option.map_eq_some_iff.mp hs
      refine hi.onFiles hf (fun _ _ => ⟨trivial, trivial⟩) fun ft f hn => ?_
      simp only [FileState.next] at hn
      rw [← Option.some.inj hn]
      exact ⟨rfl, rfl⟩
    · cases hs
      exact hi
  | updateMaxgenFreq freq =>
    simp only [Details.next] at hs
    split at hs
    · obtain ⟨files, hf, rfl⟩ := Option.map_eq_some_iff.mp hs
      refine hi.onFiles hf (fun _ _ => ⟨trivial, trivial⟩) fun ft f hn => ?_
      simp only [FileState.next] at hn
      rw [← Option.some.inj hn]
      exact ⟨rfl, rfl⟩
    · cases hs
      exact hi
  | closeAll t => exact hi.closeAll hc hs

/-- Behind the first start, in folders that leave room for the names and in which the first names are
new. -/
theorem init {ptCodeSt : Bytes} {maxFileSize genFreq : Int} {folder : FileType → Bytes}
    {d : FileType → Disk FileName} {io : FileType → InitIo} (hd : ∀ ft, (d ft).Unique)
    (hfolder : ∀ ft, PathFits (folder ft) ∧ Fresh localtime_r (d ft) (folder ft) (io ft).apply)
    (h : detailFileSysInit localtime_r (.new localtime_r d) n ptCodeSt maxFileSize genFreq folder io =
      (s, 0)) : Inv n s := by
  obtain ⟨s₁, hset, rfl⟩ := detailFileSysInit_eq_zero h
  have hfile : ∀ ft, s₁.files ft = openedFile localtime_r (d ft) (folder ft)
      (FileMgr.applySize maxFileSize) (FileMgr.applyFreq genFreq) (io ft) :=
    fun ft => hset.opened ft List.not_mem_nil (mem_allTypes ft)
  have hsys : (detailSystem 0).init.startWriters n = (detailSystem n).init := by
    simp [DetailFileSys.startWriters, detailSystem]
  constructor
  case sys =>
    change ((detailSystem n).only InTime).Reach ((detailSystem 0).init.startWriters n)
    rw [hsys]
    exact .init
  case details =>
    intro ft
    refine ⟨fun _ hcl => ?_, fun _ => (hset.details ft).mpr (.inr (mem_allTypes ft))⟩
    cases hcl
  case stored =>
    intro ft
    change Stored (s₁.files ft).mgr (s₁.files ft).disk (s₁.files ft).written
    rw [hfile ft]
    exact (Stored.init (hd ft) (io ft).new).applyFileInfo (folder ft) _ _ (io ft).apply fun _ =>
      ⟨(hfolder ft).2, fun w hw => absurd hw List.not_mem_nil⟩
  case applied =>
    intro _ ft
    change (s₁.files ft).mgr.bApply_ = true
    rw [hfile ft]
    rfl
  case closed =>
    intro hcl
    cases hcl
  case texts =>
    intro ft
    change (s₁.files ft).written.map (·.bytes) = _
    rw [hfile ft]
    rfl

end Inv

end Records

end MsgFile
end CmakeFrame
