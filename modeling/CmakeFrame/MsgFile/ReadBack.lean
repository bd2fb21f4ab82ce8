import CmakeFrame.MsgFile.Rotation

/-!
# `msgFile/FileMgr.cpp`: reading back what was written

`ReadFromFile` looks in the current file, then in the `_ok.txt` file, then in the `_bak.txt` file.
Each search compares `size` with `fread(…) && size > 0`, which is 0 or 1.

* `Regular`: the condition on a call: no failure, a name that no file has yet, an offset that fits an
  `int`, one folder that leaves room for the names.
* `Stored`: the invariant: the names of the records, and offsets that are places in the files.
* `ReadFromFile_stored`: a record of one byte; `ReadFromFile_length`: no longer one.
* `read_back`: in every run of such calls; `not_read_back`: a record of two bytes.
-/

namespace CmakeFrame
namespace MsgFile

open Lib

/-- The system carries out the call. -/
def NoFailure : FileAct → Prop
  | .ApplyFileInfo _ _ _ _ opens | .SwitchToNewFile _ opens => opens = true
  | .WriteToFile _ io _ _ opens _ => io = .done ∧ opens = true
  | .updateGenFreq _ | .updateMaxFileSize _ | .Close _ => True

instance (a : FileAct) : Decidable (NoFailure a) :=
  match a with
  | .ApplyFileInfo .. | .SwitchToNewFile .. | .WriteToFile .. => by
    unfold NoFailure
    infer_instance
  | .updateGenFreq _ | .updateMaxFileSize _ | .Close _ => .isTrue trivial

/-- No file has a name of the file that is opened at `t`. -/
def Fresh (localtime_r : Nat → Tm) (d : Disk FileName) (path : Bytes) (t : Times) : Prop :=
  d.find? (FileMgr.nextName localtime_r path t .txt) = none ∧
    d.find? (FileMgr.nextName localtime_r path t .ok) = none

instance (localtime_r : Nat → Tm) (d : Disk FileName) (path : Bytes) (t : Times) :
    Decidable (Fresh localtime_r d path t) := inferInstanceAs (Decidable (_ ∧ _))

/-- The condition on a call: nothing fails, a file that is opened is new, all files are in one
folder, which leaves room for their names, and `curPos_` does not overflow. -/
def Regular (localtime_r : Nat → Tm) (s : FileState) (a : FileAct) : Prop :=
  NoFailure a ∧ match a with
  | .ApplyFileInfo szMainPath _ _ t _ => s.mgr.bApply_ = false →
    PathFits szMainPath ∧ Fresh localtime_r s.disk szMainPath t ∧ ∀ w ∈ s.written, w.path = szMainPath
  | .WriteToFile content _ t _ opens _ => s.mgr.bApply_ →
    (s.mgr.switches localtime_r false t → Fresh localtime_r s.disk s.mgr.path_ t) ∧
      (s.mgr.SwitchFile localtime_r s.disk false t opens).1.curPos_.toInt + content.length < 2 ^ 31
  | .SwitchToNewFile t _ => s.mgr.bApply_ →
    s.mgr.switches localtime_r false t → Fresh localtime_r s.disk s.mgr.path_ t
  | .updateGenFreq _ | .updateMaxFileSize _ | .Close _ => True

instance (localtime_r : Nat → Tm) (s : FileState) (a : FileAct) :
    Decidable (Regular localtime_r s a) :=
  match a with
  | .ApplyFileInfo .. | .SwitchToNewFile .. | .WriteToFile .. | .updateGenFreq _
  | .updateMaxFileSize _ | .Close _ => by
    unfold Regular
    infer_instance

/-- The file in which the record is, with a suffix. -/
def Written.name (w : Written) (suffix : Suffix) : FileName :=
  ⟨w.path, w.yyyymmdd, w.hour, w.fileId, suffix⟩

/-! ## One search -/

section Searches

variable {data : Bytes} {offset size : Int32} {content c : Option Bytes}

/-- A byte of the file. -/
theorem readAt_one {pos : Nat} {b : UInt8} (hoff : offset.toInt = pos)
    (hdata : (data.drop pos).take 1 = [b]) :
    FileMgr.readAt data offset 1 content = (true, some [b]) := by
  have hsize : FileMgr.sizeT 1 = 1 := by decide
  have hone : (1 : Int32).toInt = 1 := by decide
  have hnonneg : ¬ offset.toInt < 0 := by omega
  rw [FileMgr.readAt, if_neg hnonneg, hsize, hone, hoff, Int.toNat_natCast, hdata]
  simp

/-- The comparison holds only for the sizes 0 and 1. -/
theorem readAt_true (h : (FileMgr.readAt data offset size content).1 = true) :
    size.toInt = 0 ∨ size.toInt = 1 := by
  unfold FileMgr.readAt at h
  split at h
  · cases h
  · have heq := of_decide_eq_true h
    split at heq
    · exact .inr heq
    · exact .inl heq

/-- With such a size at most one byte is read. -/
theorem readAt_length (hsize : size.toInt = 0 ∨ size.toInt = 1)
    (hc : ∀ bytes, content = some bytes → bytes.length ≤ 1) {bytes : Bytes}
    (h : (FileMgr.readAt data offset size content).2 = some bytes) : bytes.length ≤ 1 := by
  have hle : FileMgr.sizeT size ≤ 1 := by
    unfold FileMgr.sizeT
    rcases hsize with hs | hs <;> simp [hs]
  unfold FileMgr.readAt at h
  split at h
  · exact hc bytes h
  · simp only at h
    split at h
    · cases h
      exact (List.length_take_le _ _).trans hle
    · exact hc bytes h

variable {d : Disk FileName} {name : FileName}

theorem searchFile_true (h : (FileMgr.searchFile d name offset size content).1 = true) :
    size.toInt = 0 ∨ size.toInt = 1 := by
  unfold FileMgr.searchFile at h
  split at h
  · cases h
  · exact readAt_true h

theorem searchFile_length (hsize : size.toInt = 0 ∨ size.toInt = 1)
    (hc : ∀ bytes, content = some bytes → bytes.length ≤ 1) {bytes : Bytes}
    (h : (FileMgr.searchFile d name offset size content).2 = some bytes) : bytes.length ≤ 1 := by
  unfold FileMgr.searchFile at h
  split at h
  · exact hc bytes h
  · exact readAt_length hsize hc h

variable {m : FileMgr} {yyyymmdd hour fileId : Int}

theorem SearchCurrentFile_true
    (h : m.SearchCurrentFile d yyyymmdd hour fileId offset size content = some (true, c)) :
    size.toInt = 0 ∨ size.toInt = 1 := by
  unfold FileMgr.SearchCurrentFile at h
  split at h
  · obtain ⟨k, -, hk⟩ := Option.map_eq_some_iff.mp h
    exact readAt_true (congrArg Prod.fst hk)
  · cases h

theorem SearchCurrentFile_length (hsize : size.toInt = 0 ∨ size.toInt = 1) {found : Bool}
    {bytes : Bytes}
    (h : m.SearchCurrentFile d yyyymmdd hour fileId offset size none = some (found, some bytes)) :
    bytes.length ≤ 1 := by
  unfold FileMgr.SearchCurrentFile at h
  split at h
  · obtain ⟨k, -, hk⟩ := Option.map_eq_some_iff.mp h
    refine readAt_length hsize ?_ (congrArg Prod.snd hk)
    rintro _ ⟨⟩
  · cases h

/-- What `ReadFromFile` reads and reports as read has one byte at most. -/
theorem ReadFromFile_length {bytes : Bytes}
    (h : m.ReadFromFile d yyyymmdd hour fileId offset size = some (0, some bytes)) :
    m.bApply_ = true ∧ bytes.length ≤ 1 := by
  unfold FileMgr.ReadFromFile at h
  split at h
  · cases h
  · rename_i happly
    refine ⟨not_not.mp happly, ?_⟩
    split at h
    · cases h
    · rename_i hcur
      cases h
      exact SearchCurrentFile_length (SearchCurrentFile_true hcur) hcur
    · rename_i c₁ hcur
      split at h
      · rename_i hok
        cases h
        have hsize := searchFile_true (congrArg Prod.fst hok)
        refine searchFile_length hsize ?_ (congrArg Prod.snd hok)
        rintro bytes rfl
        exact SearchCurrentFile_length hsize hcur
      · rename_i c₂ hok
        split at h
        · rename_i hbak
          cases h
          have hsize := searchFile_true (congrArg Prod.fst hbak)
          refine searchFile_length hsize ?_ (congrArg Prod.snd hbak)
          rintro bytes rfl
          refine searchFile_length hsize ?_ (congrArg Prod.snd hok)
          rintro bytes rfl
          exact SearchCurrentFile_length hsize hcur
        · cases h

end Searches

/-! ## The invariant -/

section

variable {localtime_r : Nat → Tm} {m m' : FileMgr} {d : Disk FileName} {written : List Written}

/-- The records are in the files that they name, at their offsets, and the current file has a name
that no `_ok.txt` file has. -/
structure Stored (m : FileMgr) (d : Disk FileName) (written : List Written) : Prop where
  safe : Safe m d written
  applied : m.bApply_ = true → m.fp_ ≠ none
  free : ∀ h, m.fp_ = some h → d.Free (m.name .ok)
  pos : ∀ h, m.fp_ = some h → m.curPos_.toInt = (d.data h).length
  start : m.fp_ = none → m.curPos_ = 0
  named : ∀ w ∈ written, d.name w.file = some (w.name .ok) ∨
    (m.fp_ = some w.file ∧ w.name .txt = m.name .txt)
  offset : ∀ w ∈ written, w.offset.toInt = w.pos
  path : ∀ w ∈ written, w.path = m.path_

/-- Two names of one file differ in the suffix only. -/
theorem Written.name_ok {w : Written} (h : w.name .txt = m.name .txt) : w.name .ok = m.name .ok := by
  simp only [Written.name, FileMgr.name, FileName.mk.injEq] at h ⊢
  exact ⟨h.1, h.2.1, h.2.2.1, h.2.2.2.1, trivial⟩

/-- The records of a file that is not open. -/
def AllOk (d : Disk FileName) (written : List Written) : Prop :=
  ∀ w ∈ written, d.name w.file = some (w.name .ok)

namespace Stored

/-- No `_ok.txt` file is replaced. -/
theorem spares (hi : Stored m d written) (happly : m.bApply_ = true) : Spares m d written := by
  intro _ w hw hname
  cases hfp : m.fp_ with
  | none => exact hi.applied happly hfp
  | some h => exact hi.free h hfp w.file (hi.safe.inside w hw).1 hname

theorem allOk (hi : Stored m d written) (hfp : m.fp_ = none) : AllOk d written := by
  intro w hw
  rcases hi.named w hw with hok | ⟨hf, -⟩
  · exact hok
  · rw [hfp] at hf
    cases hf

/-- The records of the current file go with it. -/
theorem closeAndRename (hi : Stored m d written) (happly : m.bApply_ = true) :
    AllOk (m.closeAndRename d).2 written := by
  intro w hw
  obtain ⟨h, hfp⟩ := Option.ne_none_iff_exists'.mp (hi.applied happly)
  obtain ⟨hlt, hname, -⟩ := hi.safe.stream h hfp
  have hfind : d.find? (m.name .txt) = some h := hi.safe.unique.find? hlt hname
  have hrename : (m.closeAndRename d).2.name w.file = if w.file = h then some (m.name .ok)
      else if d.name w.file = some (m.name .ok) then none else d.name w.file :=
    Disk.name_rename hfind w.file
  have hfree : d.name w.file ≠ some (m.name .ok) := hi.free h hfp w.file (hi.safe.inside w hw).1
  rw [hrename, if_neg hfree]
  rcases hi.named w hw with hok | ⟨hf, hsame⟩
  · have hne : w.file ≠ h := by
      rintro rfl
      rw [hname] at hok
      have := congrArg FileName.suffix (Option.some.inj hok)
      cases this
    rw [if_neg hne, hok]
  · rw [hfp] at hf
    rw [if_pos (Option.some.inj hf).symm, Written.name_ok hsame]

/-- A new file is opened. -/
theorem opened (hok : AllOk d written) (hinside : ∀ w ∈ written, w.file < d.size)
    (hfresh : d.find? (m'.name .txt) = none ∧ d.find? (m'.name .ok) = none)
    (hoffset : ∀ w ∈ written, w.offset.toInt = w.pos) (hpath : ∀ w ∈ written, w.path = m'.path_)
    (hpos : m'.curPos_ = 0) (hfp : m'.fp_ = some (d.fopen (m'.name .txt)).1)
    (hsafe : Safe m' (d.fopen (m'.name .txt)).2 written) :
    Stored m' (d.fopen (m'.name .txt)).2 written where
  safe := hsafe
  applied := by simp [hfp]
  free := by
    intro h _
    refine Disk.Free.fopen (Disk.find?_eq_none.mp hfresh.2) ?_
    intro hname
    cases congrArg FileName.suffix hname
  pos := by
    intro h hh
    rw [hfp] at hh
    cases hh
    simp [hpos, Disk.fopen_free (Disk.find?_eq_none.mp hfresh.1)]
  start := by simp [hfp]
  named := by
    intro w hw
    exact .inl ((Disk.name_fopen d _ (hinside w hw)).trans (hok w hw))
  offset := hoffset
  path := hpath

theorem closed (hok : AllOk d written) (hsafe : Safe m' d written)
    (hoffset : ∀ w ∈ written, w.offset.toInt = w.pos) (hpath : ∀ w ∈ written, w.path = m'.path_)
    (hpos : m'.curPos_ = 0) (hfp : m'.fp_ = none) (happly : m'.bApply_ = false) :
    Stored m' d written where
  safe := hsafe
  applied := by simp [happly]
  free := by simp [hfp]
  pos := by simp [hfp]
  start := fun _ => hpos
  named := fun w hw => .inl (hok w hw)
  offset := hoffset
  path := hpath

/-- Names that are free stay free when the current file is renamed. -/
theorem fresh_closeAndRename (hi : Stored m d written) (happly : m.bApply_ = true) {path : Bytes}
    {t : Times} (hf : Fresh localtime_r d path t) :
    Fresh localtime_r (m.closeAndRename d).2 path t := by
  obtain ⟨h, hfp⟩ := Option.ne_none_iff_exists'.mp (hi.applied happly)
  obtain ⟨hlt, hname, -⟩ := hi.safe.stream h hfp
  have htxt := Disk.find?_eq_none.mp hf.1
  have hok := Disk.find?_eq_none.mp hf.2
  refine ⟨Disk.find?_eq_none.mpr (htxt.rename ?_ _), Disk.find?_eq_none.mpr (hok.rename ?_ _)⟩
  · intro heq
    cases congrArg FileName.suffix heq
  · intro heq
    -- else the current file would have the name that is free
    refine htxt h hlt (hname.trans ?_)
    simp only [FileMgr.name, FileMgr.nextName, FileName.mk.injEq] at heq ⊢
    rw [heq.1, heq.2.1, heq.2.2.1, heq.2.2.2.1]

theorem switchFile (hi : Stored m d written) (t : Times)
    (hf : m.bApply_ → m.switches localtime_r false t → Fresh localtime_r d m.path_ t) :
    Stored (m.SwitchFile localtime_r d false t true).1 (m.SwitchFile localtime_r d false t true).2
      written := by
  have hsafe : Safe (m.SwitchFile localtime_r d false t true).1
      (m.SwitchFile localtime_r d false t true).2 written :=
    hi.safe.switchFile false t true fun happly _ => hi.spares happly
  by_cases happly : m.bApply_ = true
  · by_cases hsw : m.switches localtime_r false t = true
    · have heq : m.SwitchFile localtime_r d false t true
          = ({ m.reset localtime_r t with
              fp_ := some ((m.closeAndRename d).2.fopen (FileMgr.nextName localtime_r m.path_ t .txt)).1 },
            ((m.closeAndRename d).2.fopen (FileMgr.nextName localtime_r m.path_ t .txt)).2) := by
        simp only [FileMgr.SwitchFile, happly, hsw, FileMgr.GetFilePtr, FileMgr.closeAndRename,
          FileMgr.reset]
        rfl
      rw [heq] at hsafe ⊢
      refine opened (hi.closeAndRename happly) ?_ (hi.fresh_closeAndRename happly (hf happly hsw))
        hi.offset hi.path rfl rfl hsafe
      intro w hw
      have hsize : (m.closeAndRename d).2.size = d.size := Disk.rename_size _ _ _
      rw [hsize]
      exact (hi.safe.inside w hw).1
    · simpa [FileMgr.SwitchFile, happly, hsw] using hi
  · simpa [FileMgr.SwitchFile, happly] using hi

theorem close (hi : Stored m d written) (t : Times) :
    Stored (m.Close localtime_r d t).1 (m.Close localtime_r d t).2 written := by
  have hsafe : Safe (m.Close localtime_r d t).1 (m.Close localtime_r d t).2 written :=
    hi.safe.close t hi.spares
  by_cases happly : m.bApply_ = true
  · have heq : m.Close localtime_r d t
        = ({ (m.closeAndRename d).1.reset localtime_r t with bApply_ := false },
          (m.closeAndRename d).2) := by
      simp [FileMgr.Close, FileMgr.CloseCurFile, happly]
    rw [heq] at hsafe ⊢
    exact closed (hi.closeAndRename happly) hsafe hi.offset hi.path rfl rfl rfl
  · have heq : m.Close localtime_r d t = ({ m with bApply_ := false }, d) := by
      simp [FileMgr.Close, FileMgr.CloseCurFile, happly]
    have hfp := hi.safe.closed_of_not_apply happly
    rw [heq] at hsafe ⊢
    exact closed (hi.allOk hfp) hsafe hi.offset hi.path (hi.start hfp) hfp rfl

theorem applyFileInfo (hi : Stored m d written) (szMainPath : Bytes) (maxFileSize genFreq : Int)
    (t : Times) (hf : m.bApply_ = false →
      Fresh localtime_r d szMainPath t ∧ ∀ w ∈ written, w.path = szMainPath) :
    Stored (m.ApplyFileInfo localtime_r d szMainPath maxFileSize genFreq t true).1
      (m.ApplyFileInfo localtime_r d szMainPath maxFileSize genFreq t true).2.1 written := by
  have hsafe : Safe (m.ApplyFileInfo localtime_r d szMainPath maxFileSize genFreq t true).1
      (m.ApplyFileInfo localtime_r d szMainPath maxFileSize genFreq t true).2.1 written :=
    hi.safe.applyFileInfo szMainPath maxFileSize genFreq t true
  by_cases happly : m.bApply_ = true
  · simpa [FileMgr.ApplyFileInfo, happly] using hi
  · obtain ⟨hfresh, hpath⟩ := hf (Bool.eq_false_iff.mpr happly)
    have hfp := hi.safe.closed_of_not_apply happly
    unfold FileMgr.ApplyFileInfo at hsafe ⊢
    rw [if_neg happly] at hsafe ⊢
    exact opened (hi.allOk hfp) (fun w hw => (hi.safe.inside w hw).1) hfresh hi.offset hpath
      (hi.start hfp) rfl hsafe

/-- A write that succeeds: the offset is where the file ended. -/
theorem put (hi : Stored m d written) (happly : m.bApply_ = true) (content : Bytes)
    (hlt : m.curPos_.toInt + content.length < 2 ^ 31) :
    (m.put d content .done).2.2 = true ∧
      Stored (m.put d content .done).1 (m.put d content .done).2.1
        (written ++ FileState.note m d content) := by
  have hsafe := hi.safe.put content .done
  obtain ⟨h, hfp⟩ := Option.ne_none_iff_exists'.mp (hi.applied happly)
  have hpos := hi.pos h hfp
  rw [FileMgr.put_done hfp, if_pos rfl] at hsafe
  rw [FileMgr.put_done hfp]
  rw [FileState.note_of_stream hfp] at hsafe ⊢
  refine ⟨rfl, ?_⟩
  constructor
  case safe => exact hsafe
  case applied => exact hi.applied
  case free => exact hi.free
  case pos =>
    intro k hk
    rw [hfp] at hk
    cases hk
    have hlen : (Int32.ofNat content.length).toInt = content.length :=
      Int32.toInt_ofNat_of_lt (by omega)
    have hdata : (d.append h content).data h = d.data h ++ content := by
      simp [Disk.append]
    simp only [Int32.toInt_add, hlen, hdata, hpos, List.length_append]
    rw [Int.bmod_eq_of_le (by omega) (by omega)]
    omega
  case start => simp [hfp]
  case named =>
    intro w hw
    rcases List.mem_append.mp hw with hw | hw
    · exact hi.named w hw
    · rw [List.mem_singleton.mp hw]
      exact .inr ⟨hfp, rfl⟩
  case offset =>
    intro w hw
    rcases List.mem_append.mp hw with hw | hw
    · exact hi.offset w hw
    · rw [List.mem_singleton.mp hw]
      exact hpos
  case path =>
    intro w hw
    rcases List.mem_append.mp hw with hw | hw
    · exact hi.path w hw
    · rw [List.mem_singleton.mp hw]

/-- `SwitchFile` keeps `bApply_`. -/
theorem bApply_switchFile (m : FileMgr) (d : Disk FileName) (force : Bool) (t : Times)
    (opens : Bool) : (m.SwitchFile localtime_r d force t opens).1.bApply_ = m.bApply_ := by
  unfold FileMgr.SwitchFile
  split
  · rfl
  · split <;> rfl

theorem writeToFile (hi : Stored m d written) (content : Bytes) (t t' : Times) (opens' : Bool)
    (hf : m.bApply_ → (m.switches localtime_r false t → Fresh localtime_r d m.path_ t) ∧
      (m.SwitchFile localtime_r d false t true).1.curPos_.toInt + content.length < 2 ^ 31) :
    Stored (m.WriteToFile localtime_r d content .done t t' true opens').1
      (m.WriteToFile localtime_r d content .done t t' true opens').2.1
      (written ++ if (m.WriteToFile localtime_r d content .done t t' true opens').2.2 = 0 then
        FileState.note (m.SwitchFile localtime_r d false t true).1
          (m.SwitchFile localtime_r d false t true).2 content else []) := by
  by_cases happly : m.bApply_ = true
  · have hi₁ := hi.switchFile t fun h => (hf h).1
    have hlt := (hf happly).2
    have happly₁ : (m.SwitchFile localtime_r d false t true).1.bApply_ = true :=
      (bApply_switchFile m d false t true).trans happly
    obtain ⟨hok, hi₂⟩ := hi₁.put happly₁ content hlt
    have heq : m.WriteToFile localtime_r d content .done t t' true opens'
        = (((m.SwitchFile localtime_r d false t true).1.put
            (m.SwitchFile localtime_r d false t true).2 content .done).1,
          ((m.SwitchFile localtime_r d false t true).1.put
            (m.SwitchFile localtime_r d false t true).2 content .done).2.1, 0) := by
      unfold FileMgr.WriteToFile
      rw [if_neg (by simp [happly])]
      simp only
      split
      · rename_i hp
        rw [hp]
      · rename_i hp
        rw [hp] at hok
        cases hok
    rw [heq]
    exact hi₂
  · simpa [FileMgr.WriteToFile, happly] using hi

/-- The members that say when to switch do not matter. -/
theorem congr (hi : Stored m d written) (m' : FileMgr) (hfp : m'.fp_ = m.fp_)
    (happly : m'.bApply_ = m.bApply_) (hname : ∀ suffix, m'.name suffix = m.name suffix)
    (hpos : m'.curPos_ = m.curPos_) (hpath : m'.path_ = m.path_) : Stored m' d written where
  safe := hi.safe.congr m' hfp happly fun _ => hname .txt
  applied := by
    rw [happly, hfp]
    exact hi.applied
  free := by
    intro h hh
    rw [hfp] at hh
    rw [hname]
    exact hi.free h hh
  pos := by
    intro h hh
    rw [hfp] at hh
    rw [hpos]
    exact hi.pos h hh
  start := by
    rw [hfp, hpos]
    exact hi.start
  named := by
    intro w hw
    rw [hfp, hname]
    exact hi.named w hw
  offset := hi.offset
  path := by
    intro w hw
    rw [hpath]
    exact hi.path w hw

theorem next {s s' : FileState} (hi : Stored s.mgr s.disk s.written) {a : FileAct}
    (hc : Regular localtime_r s a) (h : s.next localtime_r a = some s') :
    Stored s'.mgr s'.disk s'.written := by
  cases a with
  | ApplyFileInfo szMainPath maxFileSize genFreq t opens =>
    obtain ⟨rfl, hf⟩ := hc
    simp only [FileState.next] at h
    split at h
    · cases h
      exact hi.applyFileInfo szMainPath maxFileSize genFreq t fun happly => (hf happly).2
    · cases h
  | updateGenFreq freq =>
    cases h
    exact hi.congr _ rfl rfl (fun _ => rfl) rfl rfl
  | updateMaxFileSize size =>
    cases h
    exact hi.congr _ rfl rfl (fun _ => rfl) rfl rfl
  | WriteToFile content io t t' opens opens' =>
    obtain ⟨⟨rfl, rfl⟩, hf⟩ := hc
    simp only [FileState.next] at h
    split at h
    · cases h
      exact hi.writeToFile content t t' opens' hf
    · cases h
  | SwitchToNewFile t opens =>
    obtain ⟨rfl, hf⟩ := hc
    simp only [FileState.next] at h
    split at h
    · cases h
      unfold FileMgr.SwitchToNewFile
      split
      · exact hi.switchFile t hf
      · exact hi
    · cases h
  | Close t =>
    simp only [FileState.next] at h
    split at h
    · cases h
      exact hi.close t
    · cases h

theorem init (hd : d.Unique) (t : Times) :
    Stored (fileSystem localtime_r d t).init.mgr (fileSystem localtime_r d t).init.disk
      (fileSystem localtime_r d t).init.written := by
  refine closed ?_ (Safe.init hd t) ?_ ?_ rfl rfl rfl
  · intro w hw
    cases hw
  · intro w hw
    cases hw
  · intro w hw
    cases hw

/-- A record of one byte. -/
theorem ReadFromFile_stored (hi : Stored m d written) (happly : m.bApply_ = true) {w : Written}
    (hw : w ∈ written) (hone : w.bytes.length = 1) :
    m.ReadFromFile d w.yyyymmdd w.hour w.fileId w.offset 1 = some (0, some w.bytes) := by
  obtain ⟨b, hb⟩ := List.length_eq_one_iff.mp hone
  obtain ⟨h, hfp⟩ := Option.ne_none_iff_exists'.mp (hi.applied happly)
  have hwhole : ((d.data w.file).drop w.pos).take 1 = [b] := by
    have := hi.safe.kept.whole w hw
    rwa [Written.In, hb] at this
  have hread (content : Option Bytes) :
      FileMgr.readAt (d.data w.file) w.offset 1 content = (true, some w.bytes) := by
    rw [hb]
    exact readAt_one (hi.offset w hw) hwhole
  have hpath := hi.path w hw
  unfold FileMgr.ReadFromFile FileMgr.SearchCurrentFile
  rw [if_neg (by simp [happly])]
  rcases hi.named w hw with hok | ⟨hf, hsame⟩
  · have hne : ¬ (w.yyyymmdd = m.yyyymmdd_ ∧ w.hour = m.hour_ ∧ w.fileId = m.fileId_) := by
      rintro ⟨hday, hhour, hid⟩
      refine hi.free h hfp w.file (hi.safe.inside w hw).1 (hok.trans ?_)
      rw [Written.name, FileMgr.name, hpath, hday, hhour, hid]
    have hfind : d.find? ⟨m.path_, w.yyyymmdd, w.hour, w.fileId, .ok⟩ = some w.file := by
      rw [← hpath]
      exact hi.safe.unique.find? (hi.safe.inside w hw).1 hok
    rw [if_neg hne]
    simp only [FileMgr.searchFile, hfind, hread]
  · simp only [Written.name, FileMgr.name, FileName.mk.injEq] at hsame
    rw [if_pos ⟨hsame.2.1, hsame.2.2.1, hsame.2.2.2.1⟩, hf]
    simp only [Option.map_some, hread]

end Stored

end

/-- In every run of regular calls a record is read back exactly if it has one byte and the `FileMgr`
is applied. -/
theorem read_back (localtime_r : Nat → Tm) (d : Disk FileName) (hd : d.Unique) (t : Times)
    (s : FileState) (h : ((fileSystem localtime_r d t).only (Regular localtime_r)).Reach s) :
    ∀ w ∈ s.written, w.bytes ≠ [] →
      (s.mgr.ReadFromFile s.disk w.yyyymmdd w.hour w.fileId w.offset (Int32.ofNat w.bytes.length)
        = some (0, some w.bytes) ↔ s.mgr.bApply_ = true ∧ w.bytes.length = 1) := by
  intro w hw hne
  have hi : Stored s.mgr s.disk s.written :=
    Sys.Reach.inv_only (I := fun s => Stored s.mgr s.disk s.written) (Stored.init hd t)
      (fun _ _ _ hi hc hs => hi.next hc hs) h
  constructor
  · intro hr
    obtain ⟨happly, hle⟩ := ReadFromFile_length hr
    have hpos := List.length_pos_of_ne_nil hne
    exact ⟨happly, by omega⟩
  · rintro ⟨happly, hone⟩
    rw [hone]
    exact hi.ReadFromFile_stored happly hw hone

/-- A record of one byte in an `_ok.txt` file and one in the current file. -/
def bytesRun : List FileAct :=
  [.ApplyFileInfo [46] 20 60 (instant 1000) true,
    .WriteToFile [65] .done (instant 2000) (instant 2000) true true,
    .WriteToFile [66, 10] .done (instant 2000) (instant 2000) true true,
    .SwitchToNewFile (instant 65000) true,
    .WriteToFile [67] .done (instant 66000) (instant 66000) true true]

theorem read_back_bytesRun : Disk.Unique (Disk.empty : Disk FileName) ∧
    ∃ s, ((fileSystem midnight .empty (instant 0)).only (Regular midnight)).run
      ((fileSystem midnight .empty (instant 0)).only (Regular midnight)).init bytesRun = some s ∧
      s.written.map (·.bytes) = [[65], [66, 10], [67]] ∧
      ∀ w ∈ s.written, w.bytes ≠ [] → (s.mgr.ReadFromFile s.disk w.yyyymmdd w.hour w.fileId
        w.offset (Int32.ofNat w.bytes.length) = some (0, some w.bytes)
          ↔ s.mgr.bApply_ = true ∧ w.bytes.length = 1) :=
  ⟨Disk.unique_empty, _, rfl, rfl,
    read_back midnight .empty Disk.unique_empty (instant 0) _ (Sys.Reach.init.run bytesRun rfl)⟩

/-- A record of two bytes in the current file. -/
def pairRun : List FileAct :=
  [.ApplyFileInfo [46] 20 60 (instant 1000) true,
    .WriteToFile [65, 10] .done (instant 2000) (instant 2000) true true]

/-- Both bytes are read, and `ReadFromFile` returns -1. -/
theorem not_read_back : ∃ s, ((fileSystem midnight .empty (instant 0)).only
      fun _ a => NoFailure a).Reach s ∧
    ∃ w ∈ s.written, w.bytes = [65, 10] ∧ s.mgr.ReadFromFile s.disk w.yyyymmdd w.hour w.fileId
      w.offset (Int32.ofNat w.bytes.length) = some (-1, some w.bytes) := by
  obtain ⟨s, hrun, w, hw, hbytes, hread⟩ : ∃ s, ((fileSystem midnight .empty (instant 0)).only
        fun _ a => NoFailure a).run (fileSystem midnight .empty (instant 0)).init pairRun = some s ∧
      ∃ w ∈ s.written, w.bytes = [65, 10] ∧ s.mgr.ReadFromFile s.disk w.yyyymmdd w.hour w.fileId
        w.offset (Int32.ofNat w.bytes.length) = some (-1, some w.bytes) :=
    ⟨_, rfl, _, .head _, rfl, rfl⟩
  exact ⟨s, Sys.Reach.init.run _ hrun, w, hw, hbytes, hread⟩

end MsgFile
end CmakeFrame
