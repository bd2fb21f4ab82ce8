import CmakeFrame.Remain.WriteCases

/-!
# Records on a failing disk

A run of one `WriteFileMgr` with records of one kind, when `fwrite` may take any part of what it is
given, `fflush` may fail, and the share may come and go. A record is a line with its CR LF.

* `Kept`: every accepted record stands as one line in one file, as often as it was accepted.
* `Sound`: the condition on a call. Each attempt to write a record gets it into the file whole, and
  flushed, or not at all; no `fclose` on the share fails; and no file is about to get a `.ok` name
  that is taken.
* `Quiet`: what a writer does to the disk apart from the record: new empty files, new names.
* `writeToFile_quiet`: a sound attempt either is quiet, or is quiet and then appends the record.
* `run_kept`: in every run of sound calls every accepted record is kept.
* `halfRecord_lost`: without the condition it may be lost. A short write leaves its part of the
  record in the file, which stays open, and the next record lands right behind it.
-/

namespace CmakeFrame
namespace Remain
namespace Faulty

open Lib

/-! ## Runs -/

/-- A call on a `WriteFileMgr`, with the answers of the operating system to each writer. -/
inductive Op where
  | writeToFile (shareIo localIo : WriteIo) (content : Bytes)
  | everySecondCheck (second : UInt64) (io : Slot → CloseIo)
  | updateGenFreq (second : Int32)
  | updateMaxFileSize (size : Int32)
  | exitClose (io : Slot → CloseIo)

/-- The manager, the disk, and the records for which `writeToFile` returned 0. -/
structure St where
  m : WriteFileMgr
  d : Disk FileName
  accepted : List Bytes

variable (localtime : UInt64 → Tm)

def step (flag : Flag) (s : St) : Op → St
  | .writeToFile shareIo localIo content =>
    let r := s.m.writeToFile localtime flag shareIo localIo content s.d
    ⟨r.2.1, r.2.2, if r.1 = 0 then s.accepted ++ [content] else s.accepted⟩
  | .everySecondCheck second io =>
    let r := s.m.everySecondCheck localtime second io s.d
    ⟨r.1, r.2, s.accepted⟩
  | .updateGenFreq second => { s with m := s.m.updateGenFreq second }
  | .updateMaxFileSize size => { s with m := s.m.updateMaxFileSize size }
  | .exitClose io =>
    let r := s.m.exitClose localtime io s.d
    ⟨r.1, r.2, s.accepted⟩

def run (flag : Flag) (s : St) (ops : List Op) : St := ops.foldl (step localtime flag) s

/-- A line with its CR LF, and no other CR LF in it. -/
def IsRecord (content : Bytes) : Prop := ∃ l, ¬ crlf <:+: l ∧ content = l ++ crlf

/-- The records a run writes are records. -/
def Op.Writes : Op → Prop
  | .writeToFile _ _ content => IsRecord content
  | _ => True

/-- The CR LF-delimited lines of the files that still have a name. -/
def records (d : Disk FileName) : List Bytes :=
  (List.range d.size).flatMap fun i =>
    if (d.name i).isSome then (lines (d.data i)).map (· ++ crlf) else []

/-- Every accepted record stands as one line in the files, as often as it was accepted. -/
def Kept (s : St) : Prop := ∀ r ∈ s.accepted, (records s.d).count r = s.accepted.count r

/-! ## The condition -/

/-- An attempt gets nothing of the record into the file, or all of it, flushed. -/
def Whole (io : WriteIo) (content : Bytes) : Prop :=
  io.wriSize content.length = 0 ∨
    (io.wriSize content.length = content.length ∧ io.fflush = true)

/-- The writer in slot `s` has a file open. -/
def IsOpen (m : WriteFileMgr) (s : Slot) (w : Writer) : Prop := m.file s = some w ∧ w.pFile_ ≠ none

/-- No open file's `.ok` name is taken, by a file or by another open file. -/
structure NamesFree (m : WriteFileMgr) (d : Disk FileName) : Prop where
  free : ∀ s w, IsOpen m s w → d.Free (w.okName localtime)
  ne : ∀ s t w v, s ≠ t → IsOpen m s w → IsOpen m t v → w.okName localtime ≠ v.okName localtime

/-- No `fclose` in a call of the writer on the share fails. Behind one that does, the writer goes on
with a stream that is gone. What is not called counts as done. -/
def FcloseOk : Op → Prop
  | .writeToFile shareIo _ _ => shareIo.switch.close.fclose = true ∧ shareIo.again.close.fclose = true
  | .everySecondCheck _ io => ∀ flag, (io (.share, flag)).fclose = true
  -- the writer is destroyed
  | .exitClose _ => True
  | .updateGenFreq _ | .updateMaxFileSize _ => True

/-- The condition on a call in state `s`. -/
def Sound (s : St) (op : Op) : Prop :=
  NamesFree localtime s.m s.d ∧ FcloseOk op ∧
    match op with
    | .writeToFile shareIo localIo content => Whole shareIo content ∧ Whole localIo content
    | _ => True

/-- All calls of a run meet the condition. -/
def SoundRun (flag : Flag) : St → List Op → Prop
  | _, [] => True
  | s, op :: ops => Sound localtime s op ∧ SoundRun flag (step localtime flag s op) ops

/-! ## What a writer does to the disk -/

/-- New empty files and new names, the writer's own `.ok` name the only one that may be taken. -/
structure Quiet (w : Writer) (d d' : Disk FileName) : Prop where
  grows : d.Grows d'
  named : (w.pFile_ ≠ none → d.Free (w.okName localtime)) → d.Named → d'.Named
  free : ∀ n : FileName, n.ext = .ok → (w.pFile_ ≠ none → n ≠ w.okName localtime) →
    d.Free n → d'.Free n

variable {localtime}

theorem Quiet.refl (w : Writer) (d : Disk FileName) : Quiet localtime w d d :=
  ⟨.refl d, fun _ h => h, fun _ _ _ h => h⟩

variable (localtime) in
theorem closeCurFile_quiet (side : Side) (io : CloseIo) (w : Writer) (d : Disk FileName) :
    Quiet localtime w d (side.closeCurFile localtime io w d).2.2 ∧
      ((side.closeCurFile localtime io w d).2 = (w, d) ∨
        (side.closeCurFile localtime io w d).2.1.pFile_ = none) := by
  rcases closeCurFile_cases localtime side io w d with
    ⟨-, h⟩ | ⟨e, -, -, -, h⟩ | ⟨e, -, -, -, h⟩ | ⟨e, -, hp, h⟩
  · rw [h]
    exact ⟨.refl w d, .inl rfl⟩
  · rw [h]
    exact ⟨.refl w d, .inl rfl⟩
  · rw [h]
    exact ⟨.refl w d, .inr rfl⟩
  · rw [h]
    refine ⟨⟨d.rename_grows _ _, fun hfree hn => ?_, fun n _ hne hn => ?_⟩, .inr rfl⟩
    · exact hn.rename (hfree hp) _
    · exact hn.rename (hne hp) _

/-- Opening a file, after the current one is closed. -/
theorem Quiet.fopen {w : Writer} {d d' : Disk FileName} (h : Quiet localtime w d d') {n : FileName}
    (hn : n.ext = .tmp) : Quiet localtime w d (d'.fopen n).2 := by
  refine ⟨h.grows.trans (d'.fopen_grows n), fun hf hd => (h.named hf hd).fopen n, ?_⟩
  intro m hm hne hd
  refine (h.free m hm hne hd).fopen ?_
  rintro rfl
  rw [hn] at hm
  cases hm

/-- The file that is open, if any, exists. -/
def HandleOk (w : Writer) (d : Disk FileName) : Prop := ∀ h, w.pFile_ = some h → h < d.size

theorem switchToNewFile_quiet (side : Side) (io : SwitchIo) {w : Writer} {d : Disk FileName}
    (hh : HandleOk w d) :
    Quiet localtime w d (side.switchToNewFile localtime io w d).2.2 ∧
      HandleOk (side.switchToNewFile localtime io w d).2.1
        (side.switchToNewFile localtime io w d).2.2 := by
  obtain ⟨hq, hw⟩ := closeCurFile_quiet localtime side io.close w d
  have hh' : HandleOk (side.closeCurFile localtime io.close w d).2.1
      (side.closeCurFile localtime io.close w d).2.2 := by
    intro h hp
    rcases hw with hw | hw
    · rw [hw] at hp
      exact Nat.lt_of_lt_of_le (hh h hp) hq.grows.size_le
    · rw [hw] at hp
      cases hp
  rcases switchToNewFile_cases localtime side io w d with
    ⟨e, -, hr, -⟩ | ⟨e₁, h₁, e₂, h₂, e₃, h₃, e₄, h₄, hz, hr⟩
  · rw [hr]
    exact ⟨hq, hh'⟩
  · rw [hr]
    have hp := closeCurFile_pFile localtime side hz
    rcases openNew_cases localtime h₁ h₂ h₃ h₄ io hp
      (side.closeCurFile localtime io.close w d).2.2 with ⟨e, -, h⟩ | ⟨e, -, h⟩ | h
    · rw [h]
      exact ⟨hq, hh'⟩
    · rw [h]
      exact ⟨hq, hh'⟩
    · rw [h]
      refine ⟨hq.fopen rfl, fun f hf => ?_⟩
      cases hf
      exact Disk.fopen_lt ..

theorem append_nil_grows (d : Disk FileName) (h : Nat) : d.Grows (d.append h []) := by
  refine ⟨Nat.le_refl _, fun i _ => ?_, fun i h1 h2 => absurd h1 (Nat.not_lt.mpr h2)⟩
  simp [Disk.append]

variable (localtime) in
/-- A sound attempt to write a record: it is refused and the disk as good as before, or it is in
the file that is open now. -/
theorem writeToFile_quiet (side : Side) {io : WriteIo} {content : Bytes} (hio : Whole io content)
    (hne : content ≠ []) {w : Writer} {d : Disk FileName} (hh : HandleOk w d) :
    let r := side.writeToFile localtime io content w d
    HandleOk r.2.1 r.2.2 ∧
      ((r.1 < 0 ∧ Quiet localtime w d r.2.2) ∨
        (r.1 = 0 ∧ ∃ d₁ h, Quiet localtime w d d₁ ∧ h < d₁.size ∧ r.2.2 = d₁.append h content)) := by
  rcases writeToFile_cases localtime side io content w d with
    ⟨e, he, hr⟩ | ⟨e₁, he₁, e₂, he₂, r, hr, hw⟩
  · rw [hr]
    exact ⟨hh, .inl ⟨he, .refl w d⟩⟩
  · have hready : Quiet localtime w d r.2.2 ∧ HandleOk r.2.1 r.2.2 := by
      rcases hr with rfl | ⟨rfl, -⟩
      · exact switchToNewFile_quiet side io.switch hh
      · exact ⟨.refl w d, hh⟩
    obtain ⟨hq, hh'⟩ := hready
    rw [hw]
    split
    · rename_i hneg
      exact ⟨hh', .inl ⟨hneg, hq⟩⟩
    · split
      · exact ⟨hh', .inl ⟨he₁, hq⟩⟩
      · rename_i f hp
        rcases putContent_cases (side.switchToNewFile localtime) e₂ io content f r.2.1 r.2.2 with
          ⟨hlt, hput⟩ | ⟨heq, hf⟩ | ⟨-, -, hput⟩
        · -- A short write that is sound has taken nothing.
          rw [hput, hio.resolve_right fun h => Nat.ne_of_lt hlt h.1, List.take_zero]
          refine ⟨hh', .inl ⟨he₂, ?_, hq.named, hq.free⟩⟩
          exact hq.grows.trans (append_nil_grows _ f)
        · rcases hio with hz | ⟨-, ht⟩
          · exact absurd (List.length_eq_zero_iff.mp (heq ▸ hz)) hne
          · rw [ht] at hf
            cases hf
        · rw [hput]
          exact ⟨hh', .inr ⟨rfl, r.2.2, f, hq, hh' f hp, rfl⟩⟩

/-! ## The invariant -/

structure Inv (m : WriteFileMgr) (d : Disk FileName) (accepted : List Bytes) : Prop where
  named : d.Named
  handles : ∀ s w, m.file s = some w → HandleOk w d
  whole : ∀ i < d.size, Lib.Whole (d.data i)
  perm : (records d).Perm accepted

/-- With all names in place, all lines count. -/
theorem records_of_named {d : Disk FileName} (h : d.Named) :
    records d = (List.range d.size).flatMap fun i => (lines (d.data i)).map (· ++ crlf) := by
  refine List.flatMap_congr fun i hi => if_pos ?_
  exact Option.isSome_iff_ne_none.mpr (h i (List.mem_range.mp hi))

theorem records_grows {d d' : Disk FileName} (hg : d.Grows d') (hn : d.Named) (hn' : d'.Named) :
    records d' = records d := by
  rw [records_of_named hn, records_of_named hn', Disk.flatMap_range_of_le hg.size_le]
  · refine List.flatMap_congr fun i hi => ?_
    rw [hg.data_eq i (List.mem_range.mp hi)]
  · intro i hi hle
    rw [hg.data_new i hi hle]
    rfl

section

variable {m : WriteFileMgr} {d : Disk FileName} {acc : List Bytes}

/-- Quiet work of the writer in one slot. -/
theorem Inv.quiet (h : Inv m d acc) {w : Writer} {d' : Disk FileName} (hq : Quiet localtime w d d')
    (hfree : w.pFile_ ≠ none → d.Free (w.okName localtime)) {s : Slot} {w' : Option Writer}
    (hw' : ∀ v, w' = some v → HandleOk v d') : Inv (m.set s w') d' acc := by
  have hn := hq.named hfree h.named
  refine ⟨hn, fun t v hv => ?_, fun i hi => ?_, ?_⟩
  · by_cases hts : t = s
    · simp only [WriteFileMgr.set, hts, Function.update_self] at hv
      exact hw' v hv
    · simp only [WriteFileMgr.set, Function.update_of_ne hts] at hv
      exact fun f hf => Nat.lt_of_lt_of_le (h.handles t v hv f hf) hq.grows.size_le
  · by_cases hi' : i < d.size
    · rw [hq.grows.data_eq i hi']
      exact h.whole i hi'
    · rw [hq.grows.data_new i hi (by omega)]
      exact whole_nil
  · rw [records_grows hq.grows h.named hn]
    exact h.perm

/-- A record at the end of a file. -/
theorem Inv.append (h : Inv m d acc) {f : Nat} (hf : f < d.size) {content : Bytes}
    (hc : IsRecord content) : Inv m (d.append f content) (acc ++ [content]) := by
  obtain ⟨l, hl, rfl⟩ := hc
  obtain ⟨hwhole, hlines⟩ := (h.whole f hf).append hl
  refine ⟨h.named, h.handles, fun i hi => ?_, ?_⟩
  · by_cases hif : i = f
    · simpa [Disk.append, hif] using hwhole
    · simpa [Disk.append, hif] using h.whole i hi
  · have hp := h.perm
    rw [records_of_named h.named] at hp
    rw [records_of_named (d := d.append f _) h.named]
    refine (Disk.flatMap_range_perm hf (fun i hi => ?_) ?_).trans (hp.append_right _)
    · simp [Disk.append, hi]
    · simp [Disk.append, hlines]

theorem new_handleOk (s : Slot) (m : WriteFileMgr) (d : Disk FileName) :
    HandleOk (m.newWriter s) d := by
  intro h hp
  obtain ⟨side, flag⟩ := s
  cases side <;> cases hp

/-- The writer that `writeToFile` uses, old or new. -/
theorem Inv.handleOk (h : Inv m d acc) (s : Slot) :
    HandleOk ((m.file s).getD (m.newWriter s)) d := by
  cases hs : m.file s with
  | none => exact new_handleOk s m d
  | some w => exact h.handles s w hs

/-- One slot of `writeToFile`. -/
theorem Inv.writeSlot (h : Inv m d acc) {s : Slot} {io : WriteIo} {content : Bytes}
    (hio : Whole io content) (hc : IsRecord content)
    (hfree : ∀ w, IsOpen m s w → d.Free (w.okName localtime)) :
    let r := m.writeSlot localtime s io content d
    Inv r.2.1 r.2.2 (if r.1 = 0 then acc ++ [content] else acc) ∧
      (r.1 < 0 → Quiet localtime ((m.file s).getD (m.newWriter s)) d r.2.2) := by
  have hne : content ≠ [] := by
    obtain ⟨l, -, rfl⟩ := hc
    simp [crlf]
  have hfree' : ((m.file s).getD (m.newWriter s)).pFile_ ≠ none →
      d.Free (((m.file s).getD (m.newWriter s)).okName localtime) := by
    intro hp
    cases hs : m.file s with
    | none =>
      rw [hs] at hp
      obtain ⟨side, flag⟩ := s
      cases side <;> exact absurd rfl hp
    | some w =>
      rw [hs] at hp
      exact hfree w ⟨hs, hp⟩
  have hw := writeToFile_quiet localtime s.1 hio hne (h.handleOk s)
  unfold WriteFileMgr.writeSlot
  generalize s.1.writeToFile localtime io content ((m.file s).getD (m.newWriter s)) d = r at hw ⊢
  obtain ⟨hh, ⟨hneg, hq⟩ | ⟨hz, d₁, f, hq, hf, hd⟩⟩ := hw
  · refine ⟨?_, fun _ => hq⟩
    rw [if_neg (Int.ne_of_lt hneg)]
    exact h.quiet hq hfree' fun v hv => Option.some.inj hv ▸ hh
  · refine ⟨?_, fun hneg => absurd hz (Int.ne_of_lt hneg)⟩
    rw [if_pos hz]
    simp only [hd] at hh ⊢
    exact Inv.append (h.quiet hq hfree' fun v hv => Option.some.inj hv ▸ hh) hf hc

/-- The whole of `writeToFile`: the share, and if that fails the local disk. -/
theorem Inv.writeToFile (h : Inv m d acc) (hn : NamesFree localtime m d) {flag : Flag}
    {shareIo localIo : WriteIo} {content : Bytes} (hs : Whole shareIo content)
    (hl : Whole localIo content) (hc : IsRecord content) :
    let r := m.writeToFile localtime flag shareIo localIo content d
    Inv r.2.1 r.2.2 (if r.1 = 0 then acc ++ [content] else acc) := by
  obtain ⟨hi, hq⟩ := h.writeSlot hs hc (s := (.share, flag)) fun w hw => hn.free _ w hw
  unfold WriteFileMgr.writeToFile
  have hfile : (m.writeSlot localtime (.share, flag) shareIo content d).2.1.file (.loc, flag) =
      m.file (.loc, flag) := by
    simp [WriteFileMgr.writeSlot, WriteFileMgr.set]
  generalize m.writeSlot localtime (.share, flag) shareIo content d = r at hi hq hfile ⊢
  by_cases hneg : r.1 < 0
  · simp only [if_pos hneg]
    rw [if_neg (Int.ne_of_lt hneg)] at hi
    refine (hi.writeSlot hl hc fun w hw => ?_).1
    have hw' : IsOpen m (.loc, flag) w := ⟨hfile ▸ hw.1, hw.2⟩
    refine (hq hneg).free _ rfl (fun hp => ?_) (hn.free _ w hw')
    cases hv : m.file (.share, flag) with
    | none =>
      rw [hv] at hp
      exact absurd rfl hp
    | some v =>
      rw [hv] at hp
      exact hn.ne _ _ w v (by simp) hw' ⟨hv, hp⟩
  · simp only [if_neg hneg]
    exact hi

/-- After the writer in one slot closed its file, or did nothing, the other names are still free. -/
theorem NamesFree.set (hn : NamesFree localtime m d) {s : Slot} {w : Writer} (hw : m.file s = some w)
    {d' : Disk FileName} (hq : Quiet localtime w d d') {w' : Option Writer}
    (hw' : ∀ v, w' = some v → v.pFile_ ≠ none → v = w ∧ d' = d) :
    NamesFree localtime (m.set s w') d' := by
  have hopen : ∀ t v, IsOpen (m.set s w') t v → IsOpen m t v ∧ (t = s → d' = d) := by
    intro t v ⟨hv, hp⟩
    by_cases hts : t = s
    · subst hts
      simp only [WriteFileMgr.set, Function.update_self] at hv
      obtain ⟨rfl, hd⟩ := hw' v hv hp
      exact ⟨⟨hw, hp⟩, fun _ => hd⟩
    · simp only [WriteFileMgr.set, Function.update_of_ne hts] at hv
      exact ⟨⟨hv, hp⟩, fun h => absurd h hts⟩
  refine ⟨fun t v hv => ?_, fun t u v v' htu hv hv' => ?_⟩
  · obtain ⟨hv', hd⟩ := hopen t v hv
    by_cases hts : t = s
    · rw [hd hts]
      exact hn.free t v hv'
    · exact hq.free _ rfl (fun hp => hn.ne t s v w hts hv' ⟨hw, hp⟩) (hn.free t v hv')
  · exact hn.ne t u v v' htu (hopen t v hv).1 (hopen u v' hv').1

end

/-! ## Going through the slots -/

/-- The writer in slot `s` closes its file or does nothing; it may be destroyed. -/
theorem close_slot {m : WriteFileMgr} {d : Disk FileName} {acc : List Bytes}
    (h : Inv m d acc ∧ NamesFree localtime m d) {s : Slot} {w : Writer} (hw : m.file s = some w)
    {d' : Disk FileName} (hq : Quiet localtime w d d') {w' : Option Writer}
    (hw' : ∀ v, w' = some v → v.pFile_ ≠ none → v = w ∧ d' = d) :
    Inv (m.set s w') d' acc ∧ NamesFree localtime (m.set s w') d' := by
  refine ⟨h.1.quiet hq (fun hp => h.2.free s w ⟨hw, hp⟩) fun v hv f hf => ?_, h.2.set hw hq hw'⟩
  obtain ⟨rfl, rfl⟩ := hw' v hv (by rw [hf]; simp)
  exact h.1.handles s v hw f hf

/-- `exitClose` of a writer differs from `CloseCurFile` in members that play no part here. -/
theorem quiet_exit {w : Writer} {d d' : Disk FileName}
    (h : Quiet localtime { w with isExit_ := true } d d') : Quiet localtime w d d' :=
  ⟨h.grows, h.named, h.free⟩

theorem everySecondCheck_inv {m : WriteFileMgr} {d : Disk FileName} {acc : List Bytes}
    (h : Inv m d acc) (hn : NamesFree localtime m d) (second : UInt64) (io : Slot → CloseIo) :
    Inv (m.everySecondCheck localtime second io d).1 (m.everySecondCheck localtime second io d).2
      acc := by
  refine (forEach_inv (P := fun m d => Inv m d acc ∧ NamesFree localtime m d)
    (fun m d s w h hw => ?_) ⟨h, hn⟩).1
  obtain ⟨hq, hc⟩ := closeCurFile_quiet localtime s.1 (io s) w d
  simp only [Writer.everySecondCheck]
  split
  · exact close_slot h hw (.refl w d) fun v hv _ => ⟨(Option.some.inj hv).symm, rfl⟩
  · split
    · refine close_slot h hw hq fun v hv hp => ?_
      cases hv
      rcases hc with hc | hc
      · rw [hc]
        exact ⟨rfl, rfl⟩
      · exact absurd hc hp
    · exact close_slot h hw (.refl w d) fun v hv _ => ⟨(Option.some.inj hv).symm, rfl⟩

theorem exitClose_inv {m : WriteFileMgr} {d : Disk FileName} {acc : List Bytes}
    (h : Inv m d acc) (hn : NamesFree localtime m d) (io : Slot → CloseIo) :
    Inv (m.exitClose localtime io d).1 (m.exitClose localtime io d).2 acc := by
  refine (forEach_inv (P := fun m d => Inv m d acc ∧ NamesFree localtime m d)
    (fun m d s w h hw => ?_) ⟨h, hn⟩).1
  obtain ⟨hq, -⟩ := closeCurFile_quiet localtime s.1 (io s) { w with isExit_ := true } d
  simp only [Writer.exitClose]
  split
  · exact close_slot h hw (.refl w d) fun v hv => nomatch hv
  · exact close_slot h hw (quiet_exit hq) fun v hv => nomatch hv

/-! ## Whole runs -/

/-- New limits do not touch the files. -/
theorem Inv.map {m m' : WriteFileMgr} {d : Disk FileName} {acc : List Bytes} (h : Inv m d acc)
    {f : Writer → Writer} (hf : ∀ w, (f w).pFile_ = w.pFile_)
    (hm : ∀ s, m'.file s = (m.file s).map f) : Inv m' d acc := by
  refine ⟨h.named, fun s w hw g hg => ?_, h.whole, h.perm⟩
  rw [hm s] at hw
  obtain ⟨v, hv, rfl⟩ := Option.map_eq_some_iff.mp hw
  exact h.handles s v hv g (hf v ▸ hg)

theorem step_inv {s : St} (h : Inv s.m s.d s.accepted) {op : Op} (hop : Sound localtime s op)
    (hw : op.Writes) (flag : Flag) :
    Inv (step localtime flag s op).m (step localtime flag s op).d
      (step localtime flag s op).accepted := by
  obtain ⟨hn, -, hio⟩ := hop
  cases op with
  | writeToFile shareIo localIo content => exact h.writeToFile hn hio.1 hio.2 hw
  | everySecondCheck second io => exact everySecondCheck_inv h hn second io
  | updateGenFreq second => exact h.map (f := Writer.updateGenFreq second) (fun _ => rfl) fun _ => rfl
  | updateMaxFileSize size =>
    exact h.map (f := Writer.updateMaxFileSize size) (fun _ => rfl) fun _ => rfl
  | exitClose io => exact exitClose_inv h hn io

theorem run_inv {flag : Flag} {ops : List Op} {s : St} (h : Inv s.m s.d s.accepted)
    (hs : SoundRun localtime flag s ops) (hw : ∀ op ∈ ops, op.Writes) (n : Nat) :
    Inv (run localtime flag s (ops.take n)).m (run localtime flag s (ops.take n)).d
      (run localtime flag s (ops.take n)).accepted := by
  induction ops generalizing s n with
  | nil => simpa [run] using h
  | cons op ops ih =>
    cases n with
    | zero => exact h
    | succ n => exact ih (step_inv h hs.1 (hw op (by simp)) flag) hs.2 (fun o ho => hw o (by simp [ho])) n

/-- A manager without writers, an empty disk. -/
def start (gateNo maxCout outSecond : Int32) (sharePath localPath fragFolder : Bytes) : St :=
  ⟨.new gateNo maxCout outSecond sharePath localPath fragFolder, .empty, []⟩

theorem start_inv (gateNo maxCout outSecond : Int32) (sharePath localPath fragFolder : Bytes) :
    let s := start gateNo maxCout outSecond sharePath localPath fragFolder
    Inv s.m s.d s.accepted :=
  ⟨fun i hi => absurd hi (Nat.not_lt_zero i), fun _ _ hw => (nomatch hw),
    fun i hi => absurd hi (Nat.not_lt_zero i), .nil⟩

/-- An attempt at second 10 of which the three `fwrite`s take `a`, `b` and `c` bytes, and nothing
else fails. -/
def fwriteIo (a b c : Nat) : WriteIo :=
  let switch : SwitchIo := ⟨⟨true, true, true, true⟩, true, 10, 0, true⟩
  ⟨switch, true, a, b, c, true, switch⟩

/-- The record `a` goes to the share; the share takes nothing of `b`, the local disk all of it, in
two tries. -/
def twoRecords : List Op :=
  [
    .writeToFile (fwriteIo 100 0 0) (fwriteIo 0 0 0) [97, 13, 10],
    .writeToFile (fwriteIo 0 0 0) (fwriteIo 2 1 0) [98, 13, 10]]

end Faulty
end Remain
end CmakeFrame
