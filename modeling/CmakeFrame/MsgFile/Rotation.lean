import CmakeFrame.MsgFile.FileMgr

/-!
# `msgFile/FileMgr.cpp`: what a rotation keeps

A switch renames the current file to its `_ok.txt` name. The name is a time; a file that has the
`_ok.txt` name already is replaced.

* `RecordsKept`: every record for which `WriteToFile` has returned 0 is in the current file or in an
  `_ok.txt` file, whole and in a place of its own.
* `Spares`: a rename replaces no file that holds such a record; `Spared`: the condition on a call.
* `Safe`: the invariant, with one lemma for each part of the functions.
* `rotation_kept`: in every run whose calls all meet the condition; `record_replaced`: in another.
-/

namespace CmakeFrame
namespace MsgFile

open Lib

/-- The record is in its file, at its place. -/
def Written.In (w : Written) (data : Bytes) : Prop := (data.drop w.pos).take w.bytes.length = w.bytes

/-- Every accepted record is in the current file or an `_ok.txt` file, and no two share a place. -/
structure RecordsKept (m : FileMgr) (d : Disk FileName) (written : List Written) : Prop where
  whole : ∀ w ∈ written, w.In (d.data w.file)
  named : ∀ w ∈ written, ∃ name, d.name w.file = some name ∧
    (name.suffix = .ok ∨ (m.fp_ = some w.file ∧ name = m.name .txt))
  apart : written.Pairwise fun v w => v.file = w.file → v.pos + v.bytes.length ≤ w.pos

/-- `RenameFile` replaces no file that holds an accepted record. -/
def Spares (m : FileMgr) (d : Disk FileName) (written : List Written) : Prop :=
  d.find? (m.name .txt) ≠ none → ∀ w ∈ written, d.name w.file ≠ some (m.name .ok)

instance (m : FileMgr) (d : Disk FileName) (written : List Written) :
    Decidable (Spares m d written) := by
  unfold Spares
  infer_instance

/-- The condition on a call: wherever it renames, it spares the accepted records, and a folder that
is set leaves room for the names in it. -/
def Spared (localtime_r : Nat → Tm) (s : FileState) : FileAct → Prop
  | .WriteToFile content io t _ opens _ =>
    s.mgr.bApply_ → (s.mgr.switches localtime_r false t → Spares s.mgr s.disk s.written) ∧
      let r := s.mgr.SwitchFile localtime_r s.disk false t opens
      ((r.1.put r.2 content io).2.2 = false → Spares r.1 r.2 s.written)
  | .SwitchToNewFile t _ =>
    s.mgr.bApply_ → s.mgr.switches localtime_r false t → Spares s.mgr s.disk s.written
  | .Close _ => s.mgr.bApply_ → Spares s.mgr s.disk s.written
  | .ApplyFileInfo szMainPath _ _ _ _ => s.mgr.bApply_ ∨ PathFits szMainPath
  | .updateGenFreq _ | .updateMaxFileSize _ => True

instance (localtime_r : Nat → Tm) (s : FileState) (a : FileAct) :
    Decidable (Spared localtime_r s a) := by
  cases a <;> unfold Spared <;> infer_instance

/-! ## The invariant -/

section

variable {localtime_r : Nat → Tm} {m m' : FileMgr} {d : Disk FileName} {written : List Written}

/-- The names on the disk, the stream, and the accepted records. -/
structure Safe (m : FileMgr) (d : Disk FileName) (written : List Written) : Prop where
  unique : d.Unique
  stream : ∀ h, m.fp_ = some h → h < d.size ∧ d.name h = some (m.name .txt) ∧ m.bApply_ = true
  inside : ∀ w ∈ written, w.file < d.size ∧ w.pos + w.bytes.length ≤ (d.data w.file).length
  kept : RecordsKept m d written

/-- A record stays where it is when its file grows. -/
theorem Written.In.append {w : Written} {data : Bytes} (h : w.In data)
    (hle : w.pos + w.bytes.length ≤ data.length) (s : Bytes) : w.In (data ++ s) := by
  unfold Written.In at h ⊢
  rw [List.drop_append_of_le_length (by omega), List.take_append_of_le_length, h]
  rw [List.length_drop]
  omega

/-- A write that fails leaves the members and the names as they are. -/
theorem Spares.of_put (hs : Spares m d written) {content : Bytes} {io : WriteIo}
    {d' : Disk FileName} (hp : m.put d content io = (m', d', false)) : Spares m' d' written := by
  unfold FileMgr.put at hp
  split at hp
  · cases hp
    exact hs
  · cases hp
  · cases hp
    exact hs
  · cases hp
    exact hs

namespace Safe

/-- Only the members that make the name of the current file count, and those only while it is
open. -/
theorem congr (hi : Safe m d written) (m' : FileMgr) (hfp : m'.fp_ = m.fp_)
    (happly : m'.bApply_ = m.bApply_) (hname : m.fp_ ≠ none → m'.name .txt = m.name .txt) : Safe m' d written where
  unique := hi.unique
  stream := by
    intro h hh
    rw [hfp] at hh
    rw [hname (by simp [hh]), happly]
    exact hi.stream h hh
  inside := hi.inside
  kept :=
    { hi.kept with
      named := by
        intro w hw
        obtain ⟨name, hn, hor⟩ := hi.kept.named w hw
        refine ⟨name, hn, hor.imp_right ?_⟩
        rintro ⟨hf, rfl⟩
        exact ⟨hfp.trans hf, (hname (by simp [hf])).symm⟩ }

/-- Without a stream every accepted record is in an `_ok.txt` file. -/
theorem suffix_of_closed (hi : Safe m d written) (hfp : m.fp_ = none) {w : Written}
    (hw : w ∈ written) : ∃ name, d.name w.file = some name ∧ name.suffix = .ok := by
  obtain ⟨name, hn, hok | ⟨hf, -⟩⟩ := hi.kept.named w hw
  · exact ⟨name, hn, hok⟩
  · rw [hfp] at hf
    cases hf

/-- `fclose` and `RenameFile`. -/
theorem closeAndRename (hi : Safe m d written) (hs : Spares m d written) :
    Safe (m.closeAndRename d).1 (m.closeAndRename d).2 written := by
  have hnamed : ∀ w ∈ written, ∃ name, (m.closeAndRename d).2.name w.file = some name ∧
      name.suffix = .ok := by
    intro w hw
    obtain ⟨name, hn, hor⟩ := hi.kept.named w hw
    cases hf : d.find? (m.name .txt) with
    | none =>
      -- there is no current file
      have hsame : (m.closeAndRename d).2 = d := Disk.rename_free (Disk.find?_eq_none.mp hf) _
      rw [hsame]
      refine hi.suffix_of_closed ?_ hw
      cases hfp : m.fp_ with
      | none => rfl
      | some h =>
        obtain ⟨hlt, hname, -⟩ := hi.stream h hfp
        exact absurd hname (Disk.find?_eq_none.mp hf h hlt)
    | some k =>
      have hrename : (m.closeAndRename d).2.name w.file = if w.file = k then some (m.name .ok)
          else if d.name w.file = some (m.name .ok) then none else d.name w.file :=
        Disk.name_rename hf w.file
      by_cases hk : w.file = k
      · exact ⟨m.name .ok, by rw [hrename, if_pos hk], rfl⟩
      · rw [if_neg hk, if_neg (hs (by simp [hf]) w hw)] at hrename
        refine ⟨name, hrename.trans hn, ?_⟩
        rcases hor with hok | ⟨-, rfl⟩
        · exact hok
        · have := hi.unique.find? (hi.inside w hw).1 hn
          rw [hf] at this
          exact absurd (Option.some.inj this).symm hk
  have hdata : (m.closeAndRename d).2.data = d.data := Disk.rename_data _ _ _
  have hsize : (m.closeAndRename d).2.size = d.size := Disk.rename_size _ _ _
  refine ⟨hi.unique.rename _ _, ?_, ?_, ?_, ?_, hi.kept.apart⟩
  · intro h hh
    cases hh
  · intro w hw
    rw [hdata, hsize]
    exact hi.inside w hw
  · intro w hw
    rw [hdata]
    exact hi.kept.whole w hw
  · intro w hw
    obtain ⟨name, hn, hok⟩ := hnamed w hw
    exact ⟨name, hn, .inl hok⟩

/-- `GetFilePtr` for the file that the members name. -/
theorem getFilePtr (hi : Safe m d written) (hfp : m.fp_ = none) {name : FileName}
    (hname : m'.name .txt = name) (opens : Bool)
    (happly : opens = true → m'.bApply_ = true)
    (hstream : m'.fp_ = (FileMgr.GetFilePtr d name opens).1) :
    Safe m' (FileMgr.GetFilePtr d name opens).2 written := by
  have hgrows : Disk.Grows d (FileMgr.GetFilePtr d name opens).2 := by
    unfold FileMgr.GetFilePtr
    split
    · exact Disk.fopen_grows d name
    · exact .refl d
  have hsame : ∀ w ∈ written, (FileMgr.GetFilePtr d name opens).2.name w.file = d.name w.file := by
    intro w hw
    unfold FileMgr.GetFilePtr
    split
    · exact Disk.name_fopen d name (hi.inside w hw).1
    · rfl
  refine ⟨?_, ?_, ?_, ?_, ?_, hi.kept.apart⟩
  · unfold FileMgr.GetFilePtr
    split
    · exact hi.unique.fopen name
    · exact hi.unique
  · intro h hh
    rw [hstream] at hh
    unfold FileMgr.GetFilePtr at hh ⊢
    split at hh
    · rename_i ho
      cases hh
      rw [if_pos ho, hname]
      exact ⟨Disk.fopen_lt d name, Disk.name_fopen_self d name, happly ho⟩
    · cases hh
  · intro w hw
    obtain ⟨hlt, hle⟩ := hi.inside w hw
    rw [hgrows.data_eq _ hlt]
    exact ⟨Nat.lt_of_lt_of_le hlt hgrows.size_le, hle⟩
  · intro w hw
    rw [hgrows.data_eq _ (hi.inside w hw).1]
    exact hi.kept.whole w hw
  · intro w hw
    obtain ⟨name', hn, hok⟩ := hi.suffix_of_closed hfp hw
    exact ⟨name', (hsame w hw).trans hn, .inl hok⟩

theorem switchFile (hi : Safe m d written) (force : Bool) (t : Times) (opens : Bool)
    (hs : m.bApply_ → m.switches localtime_r force t → Spares m d written) :
    Safe (m.SwitchFile localtime_r d force t opens).1 (m.SwitchFile localtime_r d force t opens).2
      written := by
  unfold FileMgr.SwitchFile
  split
  · exact hi
  · rename_i happly
    split
    · rename_i hsw
      have hclosed := hi.closeAndRename (hs (not_not.mp happly) hsw)
      exact hclosed.getFilePtr rfl rfl opens (fun _ => not_not.mp happly) rfl
    · exact hi

/-- A file that is not applied has no stream. -/
theorem closed_of_not_apply (hi : Safe m d written) (h : ¬ m.bApply_) : m.fp_ = none := by
  cases hfp : m.fp_ with
  | none => rfl
  | some k => exact absurd (hi.stream k hfp).2.2 h

/-- Without a stream the other members do not matter. -/
theorem of_closed (hi : Safe m d written) (hfp : m.fp_ = none) (hfp' : m'.fp_ = none) :
    Safe m' d written := by
  refine ⟨hi.unique, ?_, hi.inside, { hi.kept with named := ?_ }⟩
  · intro h hh
    rw [hfp'] at hh
    cases hh
  · intro w hw
    obtain ⟨name, hn, hok⟩ := hi.suffix_of_closed hfp hw
    exact ⟨name, hn, .inl hok⟩

theorem close (hi : Safe m d written) (t : Times) (hs : m.bApply_ → Spares m d written) :
    Safe (m.Close localtime_r d t).1 (m.Close localtime_r d t).2 written := by
  by_cases happly : m.bApply_
  · have heq : m.Close localtime_r d t
        = ({ (m.closeAndRename d).1.reset localtime_r t with bApply_ := false },
          (m.closeAndRename d).2) := by
      simp [FileMgr.Close, FileMgr.CloseCurFile, happly]
    rw [heq]
    exact (hi.closeAndRename (hs happly)).of_closed rfl rfl
  · have heq : m.Close localtime_r d t = ({ m with bApply_ := false }, d) := by
      simp [FileMgr.Close, FileMgr.CloseCurFile, happly]
    rw [heq]
    exact hi.of_closed (hi.closed_of_not_apply happly) (hi.closed_of_not_apply happly)

theorem applyFileInfo (hi : Safe m d written) (szMainPath : Bytes) (maxFileSize genFreq : Int)
    (t : Times) (opens : Bool) :
    Safe (m.ApplyFileInfo localtime_r d szMainPath maxFileSize genFreq t opens).1
      (m.ApplyFileInfo localtime_r d szMainPath maxFileSize genFreq t opens).2.1 written := by
  unfold FileMgr.ApplyFileInfo
  split
  · exact hi
  · rename_i happly
    refine hi.getFilePtr (hi.closed_of_not_apply happly) rfl opens ?_ rfl
    rintro rfl
    rfl

/-- `fwrite` and `fflush`: what is accepted is noted, the rest is left in the file. -/
theorem put (hi : Safe m d written) (content : Bytes) (io : WriteIo) :
    Safe (m.put d content io).1 (m.put d content io).2.1
      (written ++ if (m.put d content io).2.2 then FileState.note m d content else []) := by
  cases hfp : m.fp_ with
  | none =>
    simp only [FileMgr.put, hfp, Bool.false_eq_true, ↓reduceIte, List.append_nil]
    exact hi
  | some h =>
    obtain ⟨hlt, hname, happly⟩ := hi.stream h hfp
    -- a file that grows keeps what it has
    have hgrow : ∀ bytes : Bytes, Safe m (d.append h bytes) written := by
      intro bytes
      have hdata : ∀ i, ∃ rest, (d.append h bytes).data i = d.data i ++ rest := by
        intro i
        by_cases hih : i = h
        · subst hih
          exact ⟨bytes, by simp [Disk.append]⟩
        · exact ⟨[], by simp [Disk.append, hih]⟩
      refine ⟨hi.unique, hi.stream, ?_, { hi.kept with whole := ?_ }⟩
      · intro w hw
        obtain ⟨hwlt, hle⟩ := hi.inside w hw
        obtain ⟨rest, hrest⟩ := hdata w.file
        refine ⟨hwlt, ?_⟩
        rw [hrest, List.length_append]
        omega
      · intro w hw
        obtain ⟨rest, hrest⟩ := hdata w.file
        rw [hrest]
        exact (hi.kept.whole w hw).append (hi.inside w hw).2 rest
    cases io with
    | short k | unflushed k =>
      simp only [FileMgr.put, hfp, Bool.false_eq_true, ↓reduceIte, List.append_nil]
      exact hgrow _
    | done =>
      have hdata : (d.append h content).data h = d.data h ++ content := by
        simp [Disk.append]
      rw [FileMgr.put_done hfp, FileState.note_of_stream hfp, if_pos rfl]
      have hall := (hgrow content).congr { m with
        curPos_ := m.curPos_ + Int32.ofNat content.length } rfl rfl fun _ => rfl
      refine ⟨hall.unique, hall.stream, ?_, ?_, ?_, ?_⟩
      · intro w hw
        rcases List.mem_append.mp hw with hw | hw
        · exact hall.inside w hw
        · rw [List.mem_singleton.mp hw]
          refine ⟨hlt, ?_⟩
          simp only [hdata, List.length_append]
          omega
      · intro w hw
        rcases List.mem_append.mp hw with hw | hw
        · exact hall.kept.whole w hw
        · rw [List.mem_singleton.mp hw]
          simp only [Written.In, hdata, List.drop_left, List.take_length]
      · intro w hw
        rcases List.mem_append.mp hw with hw | hw
        · exact hall.kept.named w hw
        · rw [List.mem_singleton.mp hw]
          exact ⟨m.name .txt, hname, .inr ⟨hfp, rfl⟩⟩
      · refine List.pairwise_append.mpr ⟨hall.kept.apart, List.pairwise_singleton _ _, ?_⟩
        intro v hv w hw hfile
        rw [List.mem_singleton.mp hw] at hfile ⊢
        have hle := (hi.inside v hv).2
        rw [hfile] at hle
        exact hle

theorem writeToFile (hi : Safe m d written) (content : Bytes) (io : WriteIo) (t t' : Times)
    (opens opens' : Bool)
    (hs : m.bApply_ → m.switches localtime_r false t → Spares m d written)
    (hs' : m.bApply_ → ((m.SwitchFile localtime_r d false t opens).1.put
      (m.SwitchFile localtime_r d false t opens).2 content io).2.2 = false →
      Spares (m.SwitchFile localtime_r d false t opens).1
        (m.SwitchFile localtime_r d false t opens).2 written) :
    Safe (m.WriteToFile localtime_r d content io t t' opens opens').1
      (m.WriteToFile localtime_r d content io t t' opens opens').2.1
      (written ++ if (m.WriteToFile localtime_r d content io t t' opens opens').2.2 = 0 then
        FileState.note (m.SwitchFile localtime_r d false t opens).1
          (m.SwitchFile localtime_r d false t opens).2 content else []) := by
  by_cases happly : m.bApply_
  · have hi₁ : Safe (m.SwitchFile localtime_r d false t opens).1
        (m.SwitchFile localtime_r d false t opens).2 written := hi.switchFile false t opens hs
    have hs' := hs' happly
    cases hsw : m.SwitchFile localtime_r d false t opens with
    | mk m₁ d₁ =>
      rw [hsw] at hi₁ hs'
      have hput := hi₁.put content io
      cases hp : m₁.put d₁ content io with
      | mk m₂ r =>
        obtain ⟨d₂, ok⟩ := r
        rw [hp] at hput hs'
        cases ok with
        | true =>
          have heq : m.WriteToFile localtime_r d content io t t' opens opens' = (m₂, d₂, 0) := by
            simp [FileMgr.WriteToFile, happly, hsw, hp]
          rw [heq]
          simpa using hput
        | false =>
          have heq : m.WriteToFile localtime_r d content io t t' opens opens'
              = ((m₂.SwitchFile localtime_r d₂ true t' opens').1,
                (m₂.SwitchFile localtime_r d₂ true t' opens').2, -1) := by
            simp [FileMgr.WriteToFile, happly, hsw, hp]
          rw [heq]
          simp only [Bool.false_eq_true, ↓reduceIte, List.append_nil] at hput
          have hspares := (hs' rfl).of_put hp
          have hi₂ : Safe (m₂.SwitchFile localtime_r d₂ true t' opens').1
              (m₂.SwitchFile localtime_r d₂ true t' opens').2 written :=
            hput.switchFile true t' opens' fun _ _ => hspares
          simpa using hi₂
  · have heq : m.WriteToFile localtime_r d content io t t' opens opens' = (m, d, -1) := by
      simp [FileMgr.WriteToFile, happly]
    rw [heq]
    simpa using hi

theorem next {s s' : FileState} (hi : Safe s.mgr s.disk s.written) {a : FileAct}
    (hc : Spared localtime_r s a) (h : s.next localtime_r a = some s') :
    Safe s'.mgr s'.disk s'.written := by
  cases a with
  | ApplyFileInfo szMainPath maxFileSize genFreq t opens =>
    simp only [FileState.next] at h
    split at h
    · cases h
      exact hi.applyFileInfo szMainPath maxFileSize genFreq t opens
    · cases h
  | updateGenFreq freq =>
    cases h
    exact hi.congr _ rfl rfl fun _ => rfl
  | updateMaxFileSize size =>
    cases h
    exact hi.congr _ rfl rfl fun _ => rfl
  | WriteToFile content io t t' opens opens' =>
    simp only [FileState.next] at h
    split at h
    · cases h
      exact hi.writeToFile content io t t' opens opens' (fun happly => (hc happly).1)
        fun happly => (hc happly).2
    · cases h
  | SwitchToNewFile t opens =>
    simp only [FileState.next] at h
    split at h
    · cases h
      unfold FileMgr.SwitchToNewFile
      split
      · exact hi.switchFile false t opens hc
      · exact hi
    · cases h
  | Close t =>
    simp only [FileState.next] at h
    split at h
    · cases h
      exact hi.close t hc
    · cases h

theorem init (hd : d.Unique) (t : Times) :
    Safe (fileSystem localtime_r d t).init.mgr (fileSystem localtime_r d t).init.disk
      (fileSystem localtime_r d t).init.written := by
  refine ⟨hd, ?_, ?_, ?_, ?_, .nil⟩
  · intro h hh
    cases hh
  · intro w hw
    cases hw
  · intro w hw
    cases hw
  · intro w hw
    cases hw

end Safe

end

/-- A clock that starts at midnight. -/
def midnight (seconds : Nat) : Tm :=
  ⟨126, 0, 1, seconds / 3600 % 24, seconds / 60 % 60, seconds % 60⟩

/-- Every reading gives `ms`. -/
def instant (ms : Nat) : Times := ⟨ms, ms, ms, ms⟩

end MsgFile
end CmakeFrame
