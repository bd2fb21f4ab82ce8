import CmakeFrame.Remain.WriteFile

/-!
# What a call on a writer can do

One lemma for each function of a writer: the results it can have, with what each of them says about
the answers of the operating system. The two kinds of writer have the same cases; they differ in
their error codes, all of them negative, and in that only the one on the share can refuse to close.

* `closeCurFile_cases`, `openNew_cases`, `switchToNewFile_cases`, `putContent_cases`,
  `writeToFile_cases`.
* `forEach_inv`: an invariant rule for the calls that go through all writers.
* `given_writeToFile`, `given_closeCurFile`: a writer keeps what it was given, its limits among it.
-/

namespace CmakeFrame
namespace Remain

open Lib

variable (localtime : UInt64 → Tm)

/-- The disk after `rename` of the current file to its `.ok` name. -/
def Writer.renamed (w : Writer) (d : Disk FileName) : Disk FileName :=
  (d.rename (w.tmpName localtime) (w.okName localtime)).2

/-- The end of `CloseCurFile`, in both kinds of writer: the call of `rename` fails, or it is made. -/
theorem renameOk_cases (io : CloseIo) (w : Writer) (d : Disk FileName) (e : Int) :
    (¬ io.Ok ∧ (if (w.renameOk localtime io.rename d).1 then 0 else e, w.closed,
      (w.renameOk localtime io.rename d).2) = (e, w.closed, d)) ∨
    (if (w.renameOk localtime io.rename d).1 then 0 else e, w.closed,
      (w.renameOk localtime io.rename d).2) =
      (if (d.rename (w.tmpName localtime) (w.okName localtime)).1 then 0 else e, w.closed,
        w.renamed localtime d) := by
  by_cases hr : io.rename = true
  · right
    simp only [Writer.renameOk, hr, if_true]
    rfl
  · left
    refine ⟨fun hok => hr hok.rename, ?_⟩
    simp [Writer.renameOk, hr]

/-- `CloseCurFile`: there is no file; or the file stays open; or it is closed, with or without its
new name. -/
theorem closeCurFile_cases (side : Side) (io : CloseIo) (w : Writer) (d : Disk FileName) :
    (w.pFile_ = none ∧ side.closeCurFile localtime io w d = (0, w, d)) ∨
    (∃ e < 0, w.pFile_ ≠ none ∧ ¬ io.Ok ∧ side.closeCurFile localtime io w d = (e, w, d)) ∨
    (∃ e < 0, w.pFile_ ≠ none ∧ ¬ io.Ok ∧ side.closeCurFile localtime io w d = (e, w.closed, d)) ∨
    (∃ e < 0, w.pFile_ ≠ none ∧ side.closeCurFile localtime io w d =
      (if (d.rename (w.tmpName localtime) (w.okName localtime)).1 then 0 else e, w.closed,
        w.renamed localtime d)) := by
  cases hp : w.pFile_ with
  | none =>
    left
    refine ⟨rfl, ?_⟩
    cases side <;> simp only [Side.closeCurFile, ShareWriteFileMgr.closeCurFile,
      LocalWriteFileMgr.closeCurFile, hp]
  | some h =>
    right
    cases side with
    | loc =>
      simp only [Side.closeCurFile, LocalWriteFileMgr.closeCurFile, hp]
      rcases renameOk_cases localtime io w d (-1022) with ⟨hio, hr⟩ | hr
      · exact .inr (.inl ⟨-1022, by decide, by simp, hio, hr⟩)
      · exact .inr (.inr ⟨-1022, by decide, by simp, hr⟩)
    | share =>
      simp only [Side.closeCurFile, ShareWriteFileMgr.closeCurFile, hp]
      split
      · rename_i ha
        refine .inl ⟨-102, by decide, by simp, fun hok => ?_, rfl⟩
        simp [accessPath, hok.access] at ha
      · split
        · rename_i ha
          refine .inl ⟨-109, by decide, by simp, fun hok => ?_, rfl⟩
          simp [hok.fflush] at ha
        · split
          · rename_i ha
            refine .inl ⟨-1010, by decide, by simp, fun hok => ?_, rfl⟩
            simp [hok.fclose] at ha
          · rcases renameOk_cases localtime io w d (-1011) with ⟨hio, hr⟩ | hr
            · exact .inr (.inl ⟨-1011, by decide, by simp, hio, hr⟩)
            · exact .inr (.inr ⟨-1011, by decide, by simp, hr⟩)

/-- After a successful `CloseCurFile` no file is open. -/
theorem closeCurFile_pFile (side : Side) {io : CloseIo} {w : Writer} {d : Disk FileName}
    (h : (side.closeCurFile localtime io w d).1 = 0) :
    (side.closeCurFile localtime io w d).2.1.pFile_ = none := by
  rcases closeCurFile_cases localtime side io w d with
    ⟨hp, hr⟩ | ⟨e, he, -, -, hr⟩ | ⟨e, -, -, -, hr⟩ | ⟨e, -, -, hr⟩
  · rw [hr]
    exact hp
  · rw [hr] at h
    exact absurd h (Int.ne_of_lt he)
  · rw [hr]
    rfl
  · rw [hr]
    rfl

/-- The writer with a new file, and the disk. -/
def Writer.opened (io : SwitchIo) (w : Writer) (d : Disk FileName) : Writer × Disk FileName :=
  let r := d.fopen ((w.stamp io).tmpName localtime)
  ({ w.stamp io with pFile_ := some r.1, curCount_ := 0 }, r.2)

/-- The rest of `switchToNewFile`: nothing happens, or only the stamp changes, or a file is open. -/
theorem openNew_cases {e₁ e₂ e₃ e₄ : Int} (h₁ : e₁ < 0) (h₂ : e₂ < 0) (h₃ : e₃ < 0) (h₄ : e₄ < 0)
    (io : SwitchIo) {w : Writer} (hp : w.pFile_ = none) (d : Disk FileName) :
    (∃ e < 0, w.openNew localtime e₁ e₂ e₃ e₄ io d = (e, w, d)) ∨
    (∃ e < 0, w.openNew localtime e₁ e₂ e₃ e₄ io d = (e, w.stamp io, d)) ∨
    w.openNew localtime e₁ e₂ e₃ e₄ io d = (0, w.opened localtime io d) := by
  unfold Writer.openNew
  split
  · exact .inl ⟨e₁, h₁, rfl⟩
  · split
    · exact .inl ⟨e₂, h₂, rfl⟩
    · split
      · exact .inr (.inl ⟨e₃, h₃, rfl⟩)
      · split
        · refine .inr (.inl ⟨e₄, h₄, ?_⟩)
          simp [Writer.stamp, hp]
        · exact .inr (.inr rfl)

/-- `switchToNewFile`: the current file cannot be closed, or the rest is done without one. -/
theorem switchToNewFile_cases (side : Side) (io : SwitchIo) (w : Writer) (d : Disk FileName) :
    (∃ e < 0, side.switchToNewFile localtime io w d =
      (e, (side.closeCurFile localtime io.close w d).2) ∧
      (side.closeCurFile localtime io.close w d).1 = e) ∨
    (∃ e₁ < 0, ∃ e₂ < 0, ∃ e₃ < 0, ∃ e₄ < 0,
      (side.closeCurFile localtime io.close w d).1 = 0 ∧
      side.switchToNewFile localtime io w d =
        (side.closeCurFile localtime io.close w d).2.1.openNew localtime e₁ e₂ e₃ e₄ io
          (side.closeCurFile localtime io.close w d).2.2) := by
  have hz : (side.closeCurFile localtime io.close w d).1 ≤ 0 := by
    rcases closeCurFile_cases localtime side io.close w d with
      ⟨-, h⟩ | ⟨e, he, -, -, h⟩ | ⟨e, he, -, -, h⟩ | ⟨e, he, -, h⟩
    · rw [h]
    · rw [h]; exact Int.le_of_lt he
    · rw [h]; exact Int.le_of_lt he
    · rw [h]
      simp only
      split
      · exact Int.le_refl _
      · exact Int.le_of_lt he
  by_cases hneg : (side.closeCurFile localtime io.close w d).1 < 0
  · left
    refine ⟨_, hneg, ?_, rfl⟩
    cases side
    · exact if_pos hneg
    · exact if_pos hneg
  · right
    cases side
    · exact ⟨-105, by decide, -106, by decide, -107, by decide, -108, by decide, by omega,
        if_neg hneg⟩
    · exact ⟨-1016, by decide, -1017, by decide, -1018, by decide, -1019, by decide, by omega,
        if_neg hneg⟩

theorem fwriteLoop_le (tries : List Nat) (size wriSize : Nat) :
    fwriteLoop tries size wriSize ≤ wriSize + size := by
  induction tries generalizing size wriSize with
  | nil => simp [fwriteLoop]
  | cons n tries ih =>
    unfold fwriteLoop
    simp only
    split
    · have := ih (size - min n size) (wriSize + min n size)
      omega
    · omega

theorem WriteIo.wriSize_le (io : WriteIo) (size : Nat) : io.wriSize size ≤ size := by
  have := fwriteLoop_le [io.fwrite₁, io.fwrite₂, io.fwrite₃] size 0
  simpa [WriteIo.wriSize] using this

/-- The rest of `writeToFile`: a short write; or a whole one that cannot be flushed; or success. -/
theorem putContent_cases (switchToNewFile : SwitchIo → Writer → Disk FileName → Res) (e : Int)
    (io : WriteIo) (content : Bytes) (h : Nat) (w : Writer) (d : Disk FileName) :
    (io.wriSize content.length < content.length ∧
      w.putContent switchToNewFile e io content h d =
        (e, w, d.append h (content.take (io.wriSize content.length)))) ∨
    (io.wriSize content.length = content.length ∧ io.fflush = false) ∨
    (io.wriSize content.length = content.length ∧ io.fflush = true ∧
      w.putContent switchToNewFile e io content h d =
        (0, { w with curCount_ := w.curCount_ + 1 }, d.append h content)) := by
  have hle := io.wriSize_le content.length
  by_cases hs : io.wriSize content.length < content.length
  · left
    refine ⟨hs, ?_⟩
    simp only [Writer.putContent]
    rw [if_pos (by omega)]
  · right
    have heq : io.wriSize content.length = content.length := by omega
    by_cases hf : io.fflush = false
    · exact .inl ⟨heq, hf⟩
    · right
      refine ⟨heq, by simpa using hf, ?_⟩
      simp only [Writer.putContent, heq]
      rw [if_neg (by omega), if_neg hf, List.take_length]

/-- `writeToFile`: refused at once; or it goes on with a file, the old one or a new one. -/
theorem writeToFile_cases (side : Side) (io : WriteIo) (content : Bytes) (w : Writer)
    (d : Disk FileName) :
    (∃ e < 0, side.writeToFile localtime io content w d = (e, w, d)) ∨
    (∃ e₁ < 0, ∃ e₂ < 0, ∃ r : Res,
      (r = side.switchToNewFile localtime io.switch w d ∨
        r = (0, w, d) ∧ w.pFile_ ≠ none ∧ (w.curCount_ : Int) < w.maxCount_.toInt) ∧
      side.writeToFile localtime io content w d =
        if r.1 < 0 then r
        else match r.2.1.pFile_ with
          | none => (e₁, r.2)
          | some h => r.2.1.putContent (side.switchToNewFile localtime) e₂ io content h r.2.2) := by
  cases side with
  | loc =>
    simp only [Side.writeToFile, LocalWriteFileMgr.writeToFile]
    split
    · exact .inl ⟨-1012, by decide, rfl⟩
    · right
      split
      · exact ⟨-1014, by decide, -1015, by decide, _, .inl rfl, rfl⟩
      · rename_i hc
        rw [not_or] at hc
        exact ⟨-1014, by decide, -1015, by decide, _, .inr ⟨rfl, hc.1, by omega⟩, rfl⟩
  | share =>
    simp only [Side.writeToFile, ShareWriteFileMgr.writeToFile]
    split
    · exact .inl ⟨-1050, by decide, rfl⟩
    · split
      · exact .inl ⟨-101, by decide, rfl⟩
      · split
        · right
          exact ⟨-103, by decide, -104, by decide, _, .inl rfl, rfl⟩
        · rename_i hc
          rw [not_or] at hc
          by_cases ha : accessPath w.rootPath_ io.access < 0
          · left
            exact ⟨-102, by decide, by simp [ha]⟩
          · right
            refine ⟨-103, by decide, -104, by decide, (0, w, d), .inr ⟨rfl, hc.1, by omega⟩, ?_⟩
            simp only [ha, if_false]
            rfl

/-! ## Going through the writers of a folder -/

/-- What one slot preserves, `forEach` preserves. -/
theorem forEach_inv {P : WriteFileMgr → Disk FileName → Prop}
    {f : Slot → Writer → Disk FileName → Option Writer × Disk FileName}
    (hf : ∀ m d s w, P m d → m.file s = some w → P (m.set s (f s w d).1) (f s w d).2)
    {m : WriteFileMgr} {d : Disk FileName} (h : P m d) : P (m.forEach f d).1 (m.forEach f d).2 := by
  unfold WriteFileMgr.forEach
  generalize slots = l
  induction l generalizing m d with
  | nil => exact h
  | cons s l ih =>
    rw [List.foldl_cons]
    cases hs : m.file s with
    | none => exact ih h
    | some w => exact ih (hf m d s w h hs)

/-! ## What a writer was given -/

/-- The limits a writer works with. -/
def Writer.limits (w : Writer) : Int32 × Int32 := (w.maxCount_, w.outSecond_)

/-- The members of a writer that no write and no close changes. -/
def Writer.given (w : Writer) : (Int32 × Int32) × Bool × Int32 × Bytes × Bytes :=
  (w.limits, w.isExit_, w.gateNo_, w.rootPath_, w.path_)

section Given

variable (side : Side)

theorem given_closeCurFile (io : CloseIo) (w : Writer) (d : Disk FileName) :
    (side.closeCurFile localtime io w d).2.1.given = w.given := by
  rcases closeCurFile_cases localtime side io w d with
    ⟨-, h⟩ | ⟨e, -, -, -, h⟩ | ⟨e, -, -, -, h⟩ | ⟨e, -, -, h⟩
  · rw [h]
  · rw [h]
  · rw [h]
    rfl
  · rw [h]
    rfl

theorem given_switchToNewFile (io : SwitchIo) (w : Writer) (d : Disk FileName) :
    (side.switchToNewFile localtime io w d).2.1.given = w.given := by
  have hc := given_closeCurFile localtime side io.close w d
  rcases switchToNewFile_cases localtime side io w d with
    ⟨e, -, h, -⟩ | ⟨e₁, h₁, e₂, h₂, e₃, h₃, e₄, h₄, hz, h⟩
  · rw [h]
    exact hc
  · rw [h]
    rcases openNew_cases localtime h₁ h₂ h₃ h₄ io (closeCurFile_pFile localtime side hz)
      (side.closeCurFile localtime io.close w d).2.2 with ⟨e, -, h⟩ | ⟨e, -, h⟩ | h
    · rw [h]
      exact hc
    · rw [h]
      exact hc
    · rw [h]
      exact hc

theorem given_putContent (e : Int) (io : WriteIo) (content : Bytes) (h : Nat) (w : Writer)
    (d : Disk FileName) :
    (w.putContent (side.switchToNewFile localtime) e io content h d).2.1.given = w.given := by
  simp only [Writer.putContent]
  split
  · rfl
  · split
    · have hs := given_switchToNewFile localtime side io.again w
        (d.append h (content.take (io.wriSize content.length)))
      split
      · exact hs
      · exact hs
    · rfl

theorem given_writeToFile (io : WriteIo) (content : Bytes) (w : Writer) (d : Disk FileName) :
    (side.writeToFile localtime io content w d).2.1.given = w.given := by
  rcases writeToFile_cases localtime side io content w d with
    ⟨e, -, h⟩ | ⟨e₁, -, e₂, -, r, hr, h⟩
  · rw [h]
  · have hl : r.2.1.given = w.given := by
      rcases hr with rfl | ⟨rfl, -⟩
      · exact given_switchToNewFile localtime side io.switch w d
      · rfl
    rw [h]
    split
    · exact hl
    · split
      · exact hl
      · exact (given_putContent localtime side e₂ io content _ _ _).trans hl

theorem limits_closeCurFile (io : CloseIo) (w : Writer) (d : Disk FileName) :
    (side.closeCurFile localtime io w d).2.1.limits = w.limits :=
  congrArg Prod.fst (given_closeCurFile localtime side io w d)

theorem limits_writeToFile (io : WriteIo) (content : Bytes) (w : Writer) (d : Disk FileName) :
    (side.writeToFile localtime io content w d).2.1.limits = w.limits :=
  congrArg Prod.fst (given_writeToFile localtime side io content w d)

end Given

end Remain
end CmakeFrame
