import CmakeFrame.Remain.WriteCases

/-!
# Rotation of one writer's files

A run of one `ShareWriteFileMgr` or `localWriteFileMgr` on a disk of its own, when no call to the
operating system fails and no two `switchToNewFile`s render the same name.

* `Op`, `step`: the calls on a writer. A state of the run also records which records were accepted,
  into which file (`accepted`), and the `maxCount_` that was in force while a file was open
  (`inForce`).
* `Inv`: what ties names, handle, counter and contents together. The current file is the last one
  created, under the name that `CloseCurFile` will build again from the writer's members; every
  other file has its `.ok` name.
* `Inv.close`, `Inv.openNew`, `Inv.append`: one operation each; `step_inv`: one call.
* `run_rotates`: the invariant over whole runs, and what it says about them.
-/

namespace CmakeFrame
namespace Remain
namespace Rotate

open Lib

/-! ## Runs -/

/-- A call on a writer, with the answers of the operating system. -/
inductive Op where
  | writeToFile (io : WriteIo) (content : Bytes)
  | everySecondCheck (second : UInt64) (io : CloseIo)
  | updateGenFreq (second : Int32)
  | updateMaxFileSize (size : Int32)
  | exitClose (io : CloseIo)

/-- A writer, its disk, and the history of the run: the accepted records, each with the file it
went to, and for each file the limits in force while it was open. -/
structure St where
  w : Writer
  d : Disk FileName
  accepted : List (Option Nat × Bytes)
  inForce : List (Nat × Int32)

/-- The records that went to file `i`. -/
def recsOf (accepted : List (Option Nat × Bytes)) (i : Nat) : List (Option Nat × Bytes) :=
  accepted.filter (fun r => r.1 = some i)

/-- The limit of the file that is open now. -/
def limitNow (w : Writer) : List (Nat × Int32) :=
  match w.pFile_ with
  | none => []
  | some h => [(h, w.maxCount_)]

/-- The state after a call that left the writer `w`, the disk `d` and accepted `new`. -/
def St.next (s : St) (w : Writer) (d : Disk FileName) (new : List (Option Nat × Bytes)) : St :=
  ⟨w, d, s.accepted ++ new, s.inForce ++ limitNow w⟩

variable (localtime : UInt64 → Tm)

def step (side : Side) (s : St) : Op → St
  | .writeToFile io content =>
    let r := side.writeToFile localtime io content s.w s.d
    s.next r.2.1 r.2.2 (if r.1 = 0 then [(r.2.1.pFile_, content)] else [])
  | .everySecondCheck second io =>
    let r := s.w.everySecondCheck (side.closeCurFile localtime) second io s.d
    s.next r.1 r.2 []
  | .updateGenFreq second => s.next (s.w.updateGenFreq second) s.d []
  | .updateMaxFileSize size => s.next (s.w.updateMaxFileSize size) s.d []
  | .exitClose io =>
    let r := s.w.exitClose (side.closeCurFile localtime) io s.d
    s.next r.1 r.2 []

def run (side : Side) (s : St) (ops : List Op) : St := ops.foldl (step localtime side) s

/-- The start: a writer without a file, an empty disk. -/
def start (w : Writer) : St := ⟨w, .empty, [], []⟩

/-- No call to the operating system fails. -/
def Op.IoOk : Op → Prop
  | .writeToFile io content => io.Ok content.length
  | .everySecondCheck _ io => io.Ok
  | .updateGenFreq _ => True
  | .updateMaxFileSize _ => True
  | .exitClose io => io.Ok

/-! ## Files -/

/-- The name without what `CloseCurFile` changes in it. -/
def key (n : FileName) : FileName := { n with count := 0, ext := .tmp }

theorem key_tmpName (w : Writer) : key (w.tmpName localtime) = w.tmpName localtime := rfl

theorem key_okName (w : Writer) : key (w.okName localtime) = w.tmpName localtime := rfl

theorem recsOf_append (acc new : List (Option Nat × Bytes)) (i : Nat) :
    recsOf (acc ++ new) i = recsOf acc i ++ recsOf new i := List.filter_append ..

theorem recsOf_self (h : Nat) (c : Bytes) : recsOf [(some h, c)] h = [(some h, c)] := by
  simp [recsOf]

theorem recsOf_ne {h i : Nat} (c : Bytes) (hi : i ≠ h) : recsOf [(some h, c)] i = [] := by
  simp [recsOf, Ne.symm hi]

/-- What holds between the calls of a run. -/
structure Inv (s : St) : Prop where
  /-- The open file is the last one, under the name that the writer's members give. -/
  openLast : ∀ h, s.w.pFile_ = some h → h + 1 = s.d.size ∧
    s.d.name h = some (s.w.tmpName localtime) ∧ s.w.curCount_ = (recsOf s.accepted h).length
  /-- Every other file is complete and says how many records it holds. -/
  closedOk : ∀ i < s.d.size, s.w.pFile_ ≠ some i →
    ∃ n, s.d.name i = some n ∧ n.ext = .ok ∧ n.count = (recsOf s.accepted i).length
  /-- The files have the names they were opened under, but for count and extension. -/
  keys : ∀ i < s.d.size, (s.d.name i).map key = s.d.opened[i]?
  opened : s.d.opened.length = s.d.size
  data : ∀ i < s.d.size, s.d.data i = ((recsOf s.accepted i).map Prod.snd).flatten
  order : (List.range s.d.size).flatMap (recsOf s.accepted) = s.accepted
  bound : ∀ i < s.d.size, recsOf s.accepted i = [] ∨
    ∃ m, (i, m) ∈ s.inForce ∧ ((recsOf s.accepted i).length : Int) ≤ max 1 m.toInt

namespace Inv

variable {localtime} {s : St}

/-- Two files do not have names with the same key. -/
theorem key_inj (h : Inv localtime s) (hnd : s.d.opened.Nodup) {i j : Nat} (hi : i < s.d.size)
    (hj : j < s.d.size) (he : (s.d.name i).map key = (s.d.name j).map key) : i = j := by
  rw [h.keys i hi, h.keys j hj] at he
  exact (List.getElem?_inj (by rw [h.opened]; exact hi) hnd).mp he

/-- `CloseCurFile`'s rename finds the open file and takes no other file's name. -/
theorem rename_open (h : Inv localtime s) (hnd : s.d.opened.Nodup) {f : Nat}
    (hf : s.w.pFile_ = some f) :
    let r := s.d.rename (s.w.tmpName localtime) (s.w.okName localtime)
    r.1 = true ∧ r.2.name f = some (s.w.okName localtime) ∧
      ∀ i < s.d.size, i ≠ f → r.2.name i = s.d.name i := by
  obtain ⟨hsz, hname, -⟩ := h.openLast f hf
  have hlt : f < s.d.size := by omega
  have huniq : ∀ i < s.d.size, ∀ n, key n = s.w.tmpName localtime → s.d.name i = some n → i = f := by
    intro i hi n hk hn
    refine h.key_inj hnd hi hlt ?_
    rw [hn, hname, Option.map_some, Option.map_some, hk, key_tmpName]
  refine Disk.rename_name ?_ fun i hi hne hn => hne (huniq i hi _ (key_okName ..) hn)
  exact Disk.find?_eq_some hlt hname fun i hi hn => huniq i hi _ (key_tmpName ..) hn

/-- The open file is closed and gets its `.ok` name. -/
theorem close (h : Inv localtime s) (hnd : s.d.opened.Nodup) {f : Nat}
    (hf : s.w.pFile_ = some f) :
    Inv localtime { s with
      w := s.w.closed, d := (s.d.rename (s.w.tmpName localtime) (s.w.okName localtime)).2 } := by
  obtain ⟨-, hok, hother⟩ := h.rename_open hnd hf
  obtain ⟨hsz, hname, hcount⟩ := h.openLast f hf
  refine ⟨fun f' hf' => (nomatch hf'), fun i hi _ => ?_, fun i hi => ?_, ?_, ?_, ?_, ?_⟩
  · rw [Disk.rename_size] at hi
    by_cases hif : i = f
    · exact ⟨_, by rw [hif]; exact hok, rfl, by rw [hif]; exact hcount⟩
    · rw [hother i hi hif]
      exact h.closedOk i hi (by rw [hf]; simpa using Ne.symm hif)
  · rw [Disk.rename_size] at hi
    rw [Disk.rename_opened, ← h.keys i hi]
    by_cases hif : i = f
    · rw [hif, hok, hname, Option.map_some, Option.map_some, key_okName, key_tmpName]
    · rw [hother i hi hif]
  · simpa using h.opened
  · simpa using h.data
  · simpa using h.order
  · simpa using h.bound

/-- The members that are no part of a name, and a number for the next one. -/
theorem setTime (h : Inv localtime s) (hp : s.w.pFile_ = none) {w : Writer}
    (hw : w.pFile_ = none) : Inv localtime { s with w := w } :=
  ⟨fun f hf => (nomatch hw.symm.trans hf), fun i hi _ => h.closedOk i hi (by rw [hp]; simp),
    h.keys, h.opened, h.data, h.order, h.bound⟩

/-- Members that are no part of the current name. -/
theorem setLimits (h : Inv localtime s) {w : Writer} (hp : w.pFile_ = s.w.pFile_)
    (hc : w.curCount_ = s.w.curCount_) (hn : w.tmpName localtime = s.w.tmpName localtime) :
    Inv localtime { s with w := w } := by
  refine ⟨fun f hf => ?_, fun i hi hne => ?_, h.keys, h.opened, h.data, h.order, h.bound⟩
  · show f + 1 = s.d.size ∧ s.d.name f = some (w.tmpName localtime) ∧ w.curCount_ = _
    rw [hn, hc]
    exact h.openLast f (hp ▸ hf)
  · exact h.closedOk i hi (hp ▸ hne)

/-- A name that was not opened yet is free. -/
theorem free_tmpName (h : Inv localtime s) (hnd : (s.d.opened ++ [s.w.tmpName localtime]).Nodup) :
    s.d.Free (s.w.tmpName localtime) := by
  intro i hi hn
  have hk := h.keys i hi
  rw [hn, Option.map_some, key_tmpName] at hk
  have hm := List.mem_of_getElem? hk.symm
  exact (List.nodup_append.mp hnd).2.2 _ hm _ (by simp) rfl

/-- No record went to a file that is not there yet. -/
theorem recsOf_of_le (h : Inv localtime s) {i : Nat} (hi : s.d.size ≤ i) :
    recsOf s.accepted i = [] := by
  refine List.filter_eq_nil_iff.mpr fun r hr => ?_
  rw [← h.order, List.mem_flatMap] at hr
  obtain ⟨j, hj, hr⟩ := hr
  have h1 := (List.mem_filter.mp hr).2
  have h2 := List.mem_range.mp hj
  simp only [decide_eq_true_eq] at h1 ⊢
  rw [h1, Option.some.injEq]
  omega

/-- A new file is opened, when no name was opened twice. -/
theorem openFile (h : Inv localtime s) (hp : s.w.pFile_ = none)
    (hnd : (s.d.opened ++ [s.w.tmpName localtime]).Nodup) :
    Inv localtime { s with
      w := { s.w with pFile_ := some (s.d.fopen (s.w.tmpName localtime)).1, curCount_ := 0 },
      d := (s.d.fopen (s.w.tmpName localtime)).2 } := by
  have hnew := h.recsOf_of_le (Nat.le_refl _)
  rw [Disk.fopen_free (h.free_tmpName hnd)]
  have hold : ∀ i < s.d.size + 1, i ≠ s.d.size → i < s.d.size := by omega
  refine ⟨fun f hf => ?_, fun i hi hne => ?_, fun i hi => ?_, ?_, fun i hi => ?_, ?_, fun i hi => ?_⟩
  · cases hf
    refine ⟨rfl, ?_, ?_⟩
    · simp only [Function.update_self]
      rfl
    · rw [hnew]
      rfl
  · have hi' : i ≠ s.d.size := fun e => hne (by rw [e])
    simp only [Function.update_of_ne hi']
    exact h.closedOk i (hold i hi hi') (by rw [hp]; simp)
  · by_cases hi' : i = s.d.size
    · simp only [hi', Function.update_self, Option.map_some, key_tmpName]
      rw [List.getElem?_append_right (by rw [h.opened]), h.opened]
      simp
    · simp only [Function.update_of_ne hi']
      rw [h.keys i (hold i hi hi'), List.getElem?_append_left (by rw [h.opened]; exact hold i hi hi')]
  · simp [h.opened]
  · by_cases hi' : i = s.d.size
    · simp [hi', hnew]
    · simp only [Function.update_of_ne hi']
      exact h.data i (hold i hi hi')
  · show (List.range (s.d.size + 1)).flatMap _ = _
    rw [List.range_succ, List.flatMap_append, h.order]
    simp [hnew]
  · by_cases hi' : i = s.d.size
    · rw [hi']
      exact .inl hnew
    · exact h.bound i (hold i hi hi')

/-- A record is appended to the open file, which has room or is new. -/
theorem append (h : Inv localtime s) {f : Nat} (hf : s.w.pFile_ = some f)
    (hroom : s.w.curCount_ = 0 ∨ (s.w.curCount_ : Int) < s.w.maxCount_.toInt) (c : Bytes) :
    Inv localtime ⟨{ s.w with curCount_ := s.w.curCount_ + 1 }, s.d.append f c,
      s.accepted ++ [(some f, c)], s.inForce ++ [(f, s.w.maxCount_)]⟩ := by
  obtain ⟨hsz, hname, hcount⟩ := h.openLast f hf
  have hother : ∀ i, i ≠ f → recsOf (s.accepted ++ [(some f, c)]) i = recsOf s.accepted i := by
    intro i hi
    rw [recsOf_append, recsOf_ne c hi, List.append_nil]
  have hthis : recsOf (s.accepted ++ [(some f, c)]) f = recsOf s.accepted f ++ [(some f, c)] := by
    rw [recsOf_append, recsOf_self]
  refine ⟨fun f' hf' => ?_, fun i hi hne => ?_, h.keys, h.opened, fun i hi => ?_, ?_, fun i hi => ?_⟩
  · have : f' = f := by
      rw [show s.w.pFile_ = some f' from hf'] at hf
      exact Option.some.inj hf
    subst this
    refine ⟨hsz, hname, ?_⟩
    rw [hthis, List.length_append, ← hcount]
    rfl
  · have hi' : i ≠ f := fun e => hne (by rw [e]; exact hf)
    rw [hother i hi']
    exact h.closedOk i hi hne
  · by_cases hi' : i = f
    · rw [hi', hthis]
      simp [Disk.append, h.data f (by omega)]
    · rw [hother i hi']
      simp only [Disk.append, Function.update_of_ne hi']
      exact h.data i hi
  · have hord := h.order
    show (List.range s.d.size).flatMap _ = _
    rw [← hsz, List.range_succ, List.flatMap_append] at hord ⊢
    simp only [List.flatMap_cons, List.flatMap_nil, List.append_nil] at hord ⊢
    rw [hthis, ← List.append_assoc]
    conv => rhs; rw [← hord]
    congr 2
    refine List.flatMap_congr fun i hi => hother i ?_
    have := List.mem_range.mp hi
    omega
  · by_cases hi' : i = f
    · right
      refine ⟨s.w.maxCount_, by simp [hi'], ?_⟩
      rw [hi', hthis, List.length_append, ← hcount]
      simp only [List.length_cons, List.length_nil]
      omega
    · rw [hother i hi']
      rcases h.bound i hi with hb | ⟨m, hm, hb⟩
      · exact .inl hb
      · exact .inr ⟨m, List.mem_append_left _ hm, hb⟩

/-- More limits on record. -/
theorem force (h : Inv localtime s) (l : List (Nat × Int32)) :
    Inv localtime { s with inForce := s.inForce ++ l } := by
  refine ⟨h.openLast, h.closedOk, h.keys, h.opened, h.data, h.order, fun i hi => ?_⟩
  rcases h.bound i hi with hb | ⟨m, hm, hb⟩
  · exact .inl hb
  · exact .inr ⟨m, List.mem_append_left _ hm, hb⟩

end Inv

/-! ## The names opened so far only become more -/

section Opened

variable (side : Side)

theorem closeCurFile_opened (io : CloseIo) (w : Writer) (d : Disk FileName) :
    (side.closeCurFile localtime io w d).2.2.opened = d.opened := by
  rcases closeCurFile_cases localtime side io w d with
    ⟨-, h⟩ | ⟨e, -, -, -, h⟩ | ⟨e, -, -, -, h⟩ | ⟨e, -, -, h⟩
  · rw [h]
  · rw [h]
  · rw [h]
  · rw [h]
    exact Disk.rename_opened ..

theorem switchToNewFile_opened (io : SwitchIo) (w : Writer) (d : Disk FileName) :
    d.opened <+: (side.switchToNewFile localtime io w d).2.2.opened := by
  have hc := closeCurFile_opened localtime side io.close w d
  rcases switchToNewFile_cases localtime side io w d with
    ⟨e, -, h, -⟩ | ⟨e₁, h₁, e₂, h₂, e₃, h₃, e₄, h₄, hz, h⟩
  · rw [h, hc]
  · rw [h]
    rcases openNew_cases localtime h₁ h₂ h₃ h₄ io (closeCurFile_pFile localtime side hz)
      (side.closeCurFile localtime io.close w d).2.2 with ⟨e, -, h⟩ | ⟨e, -, h⟩ | h
    · rw [h, hc]
    · rw [h, hc]
    · rw [h]
      simp only [Writer.opened, Disk.fopen_opened, hc]
      exact List.prefix_append ..

theorem wriSize_of_ok {io : WriteIo} {size : Nat} (h : io.Ok size) : io.wriSize size = size := by
  have := h.fwrite
  simp only [WriteIo.wriSize, fwriteLoop]
  rw [if_neg (by omega)]
  omega

/-- Without failures a record is written whole. -/
theorem putContent_of_ok (switchToNewFile : SwitchIo → Writer → Disk FileName → Res) (e : Int)
    {io : WriteIo} {content : Bytes} (hio : io.Ok content.length) (h : Nat) (w : Writer)
    (d : Disk FileName) :
    w.putContent switchToNewFile e io content h d =
      (0, { w with curCount_ := w.curCount_ + 1 }, d.append h content) := by
  rcases putContent_cases switchToNewFile e io content h w d with ⟨hlt, -⟩ | ⟨-, hf⟩ | ⟨-, -, hr⟩
  · rw [wriSize_of_ok hio] at hlt
    omega
  · rw [hio.fflush] at hf
    cases hf
  · exact hr

theorem writeToFile_opened {io : WriteIo} {content : Bytes} (hio : io.Ok content.length)
    (w : Writer) (d : Disk FileName) :
    d.opened <+: (side.writeToFile localtime io content w d).2.2.opened := by
  rcases writeToFile_cases localtime side io content w d with
    ⟨e, -, h⟩ | ⟨e₁, -, e₂, -, r, hr, h⟩
  · rw [h]
  · have hpre : d.opened <+: r.2.2.opened := by
      rcases hr with rfl | ⟨rfl, -⟩
      · exact switchToNewFile_opened localtime side ..
      · exact List.prefix_rfl
    rw [h]
    split
    · exact hpre
    · split
      · exact hpre
      · rw [putContent_of_ok _ _ hio]
        exact hpre

end Opened

/-! ## One call -/

section Step

variable {localtime} {s : St} (side : Side)

/-- Closing the current file, when no call fails. -/
theorem Inv.closeCurFile (h : Inv localtime s) (hnd : s.d.opened.Nodup) {io : CloseIo}
    (hio : io.Ok) :
    let r := side.closeCurFile localtime io s.w s.d
    r.1 = 0 ∧ Inv localtime { s with w := r.2.1, d := r.2.2 } := by
  rcases closeCurFile_cases localtime side io s.w s.d with
    ⟨hp, hr⟩ | ⟨e, -, -, hn, -⟩ | ⟨e, -, -, hn, -⟩ | ⟨e, -, hp, hr⟩
  · rw [hr]
    exact ⟨rfl, h⟩
  · exact absurd hio hn
  · exact absurd hio hn
  · obtain ⟨f, hf⟩ := Option.ne_none_iff_exists'.mp hp
    rw [hr]
    refine ⟨?_, h.close hnd hf⟩
    rw [(h.rename_open hnd hf).1]
    rfl

/-- Switching to a new file: no file is open afterwards, or a new one. -/
theorem Inv.switchToNewFile (h : Inv localtime s) {io : SwitchIo} (hio : io.Ok)
    (hnd : (side.switchToNewFile localtime io s.w s.d).2.2.opened.Nodup) :
    let r := side.switchToNewFile localtime io s.w s.d
    Inv localtime { s with w := r.2.1, d := r.2.2 } ∧ (r.1 < 0 ∨ r.2.1.curCount_ = 0) := by
  have hnd' : s.d.opened.Nodup :=
    hnd.sublist (switchToNewFile_opened localtime side io s.w s.d).sublist
  obtain ⟨hz, hi⟩ := h.closeCurFile side hnd' hio.close
  have hp := closeCurFile_pFile localtime side hz
  rcases switchToNewFile_cases localtime side io s.w s.d with
    ⟨e, he, -, hc⟩ | ⟨e₁, h₁, e₂, h₂, e₃, h₃, e₄, h₄, -, hs⟩
  · rw [hz] at hc
    exact absurd hc.symm (Int.ne_of_lt he)
  · rw [hs] at hnd ⊢
    rcases openNew_cases localtime h₁ h₂ h₃ h₄ io hp
      (side.closeCurFile localtime io.close s.w s.d).2.2 with ⟨e, he, hr⟩ | ⟨e, he, hr⟩ | hr
    · rw [hr]
      exact ⟨hi, .inl he⟩
    · rw [hr]
      exact ⟨hi.setTime hp hp, .inl he⟩
    · rw [hr] at hnd ⊢
      simp only [Writer.opened, Disk.fopen_opened] at hnd
      exact ⟨(hi.setTime hp (w := Writer.stamp io _) hp).openFile hp hnd, .inr rfl⟩

/-- Writing a record. -/
theorem Inv.writeToFile (h : Inv localtime s) {io : WriteIo} {content : Bytes}
    (hio : io.Ok content.length)
    (hnd : (side.writeToFile localtime io content s.w s.d).2.2.opened.Nodup) :
    let r := side.writeToFile localtime io content s.w s.d
    Inv localtime (s.next r.2.1 r.2.2 (if r.1 = 0 then [(r.2.1.pFile_, content)] else [])) := by
  have hrefused : ∀ {w d} {e : Int}, e < 0 → Inv localtime { s with w := w, d := d } →
      Inv localtime (s.next w d (if e = 0 then [(w.pFile_, content)] else [])) := by
    intro w d e he hi
    rw [if_neg (Int.ne_of_lt he), St.next, List.append_nil]
    exact hi.force _
  rcases writeToFile_cases localtime side io content s.w s.d with
    ⟨e, he, hr⟩ | ⟨e₁, he₁, e₂, -, r, hr, hw⟩
  · rw [hr]
    exact hrefused he h
  · rw [hw] at hnd ⊢
    -- The file to write to: a new one, or the current one with room in it.
    have hready : r.2.2.opened.Nodup → Inv localtime { s with w := r.2.1, d := r.2.2 } ∧ (r.1 < 0 ∨
        r.2.1.curCount_ = 0 ∨ (r.2.1.curCount_ : Int) < r.2.1.maxCount_.toInt) := by
      intro hn
      rcases hr with rfl | ⟨rfl, -, hroom⟩
      · obtain ⟨h1, h2⟩ := h.switchToNewFile side hio.switch hn
        exact ⟨h1, h2.imp_right .inl⟩
      · exact ⟨h, .inr (.inr hroom)⟩
    split
    · rename_i hneg
      rw [if_pos hneg] at hnd
      exact hrefused hneg (hready hnd).1
    · rename_i hneg
      rw [if_neg hneg] at hnd
      split
      · rename_i hp
        rw [hp] at hnd
        exact hrefused he₁ (hready hnd).1
      · rename_i f hp
        rw [hp] at hnd
        simp only [putContent_of_ok _ _ hio] at hnd ⊢
        obtain ⟨hi, hroom⟩ := hready hnd
        have := hi.append hp (hroom.resolve_left hneg) content
        simpa [St.next, limitNow, hp] using this

theorem step_inv (h : Inv localtime s) {op : Op} (hop : op.IoOk)
    (hnd : (step localtime side s op).d.opened.Nodup) : Inv localtime (step localtime side s op) := by
  have hquiet : ∀ {w d}, Inv localtime { s with w := w, d := d } →
      Inv localtime (s.next w d []) := by
    intro w d hi
    rw [St.next, List.append_nil]
    exact hi.force _
  cases op with
  | writeToFile io content => exact h.writeToFile side hop hnd
  | everySecondCheck second io =>
    simp only [step, Writer.everySecondCheck] at hnd ⊢
    split
    · exact hquiet h
    · split
      · rename_i hexit hold
        rw [if_neg hexit, if_pos hold] at hnd
        have hnd' : s.d.opened.Nodup := by
          rw [← closeCurFile_opened localtime side io s.w s.d]
          exact hnd
        exact hquiet (h.closeCurFile side hnd' hop).2
      · exact hquiet h
  | updateGenFreq second => exact hquiet (h.setLimits rfl rfl rfl)
  | updateMaxFileSize size => exact hquiet (h.setLimits rfl rfl rfl)
  | exitClose io =>
    have hexit : Inv localtime { s with w := { s.w with isExit_ := true } } :=
      h.setLimits rfl rfl rfl
    simp only [step, Writer.exitClose] at hnd ⊢
    split
    · exact hquiet hexit
    · rename_i hp
      rw [if_neg hp] at hnd
      have hnd' : s.d.opened.Nodup := by
        rw [← closeCurFile_opened localtime side io { s.w with isExit_ := true } s.d]
        exact hnd
      obtain ⟨hz, hi⟩ := hexit.closeCurFile side hnd' hop
      exact hquiet (hi.setTime (closeCurFile_pFile localtime side hz) rfl)

theorem step_opened {op : Op} (hop : op.IoOk) :
    s.d.opened <+: (step localtime side s op).d.opened := by
  cases op with
  | writeToFile io content => exact writeToFile_opened localtime side hop s.w s.d
  | everySecondCheck second io =>
    simp only [step, Writer.everySecondCheck]
    split
    · exact List.prefix_rfl
    · split
      · exact (closeCurFile_opened localtime side io s.w s.d).symm ▸ List.prefix_rfl
      · exact List.prefix_rfl
  | updateGenFreq second => exact List.prefix_rfl
  | updateMaxFileSize size => exact List.prefix_rfl
  | exitClose io =>
    simp only [step, Writer.exitClose]
    split
    · exact List.prefix_rfl
    · exact (closeCurFile_opened localtime side io _ s.d).symm ▸ List.prefix_rfl

end Step

/-! ## Whole runs -/

theorem start_inv {w : Writer} (hw : w.pFile_ = none) : Inv localtime (start w) :=
  ⟨fun _ hf => (nomatch hw.symm.trans hf), fun i hi => absurd hi (Nat.not_lt_zero i),
    fun i hi => absurd hi (Nat.not_lt_zero i), rfl, fun i hi => absurd hi (Nat.not_lt_zero i), rfl,
    fun i hi => absurd hi (Nat.not_lt_zero i)⟩

/-- The invariant along a run. The induction is on the calls from the last one back, since the names
of a part of the run are among those of the whole. -/
theorem run_inv (side : Side) {w : Writer} (hw : w.pFile_ = none) (ops : List Op)
    (hio : ∀ op ∈ ops, op.IoOk) (hnd : (run localtime side (start w) ops).d.opened.Nodup) :
    Inv localtime (run localtime side (start w) ops) := by
  induction ops using List.reverseRecOn with
  | nil => exact start_inv localtime hw
  | append_singleton ops op ih =>
    rw [run, List.foldl_append] at hnd ⊢
    have hop : op.IoOk := hio op (by simp)
    refine step_inv side (ih (fun o ho => hio o (by simp [ho])) ?_) hop hnd
    exact hnd.sublist (step_opened side hop).sublist

namespace Inv

variable {localtime} {s : St}

/-- The files, in creation order, hold the accepted records. -/
theorem contents (h : Inv localtime s) :
    (List.range s.d.size).flatMap s.d.data = (s.accepted.map Prod.snd).flatten := by
  have hdata : ∀ i ∈ List.range s.d.size,
      s.d.data i = (recsOf s.accepted i).flatMap Prod.snd := by
    intro i hi
    rw [h.data i (List.mem_range.mp hi), List.flatMap_def]
  calc (List.range s.d.size).flatMap s.d.data
      = (List.range s.d.size).flatMap fun i => (recsOf s.accepted i).flatMap Prod.snd :=
        List.flatMap_congr hdata
    _ = ((List.range s.d.size).flatMap (recsOf s.accepted)).flatMap Prod.snd :=
        List.flatMap_assoc.symm
    _ = (s.accepted.map Prod.snd).flatten := by rw [h.order, List.flatMap_def]

theorem named (h : Inv localtime s) : s.d.Named := by
  intro i hi hn
  have := h.keys i hi
  rw [hn, Option.map_none, eq_comm, List.getElem?_eq_none_iff, h.opened] at this
  omega

/-- No file holds more records than the largest limit in force while it was open. -/
theorem length_le (h : Inv localtime s) {i : Nat} (hi : i < s.d.size) {m : Int}
    (hm : ∀ m', (i, m') ∈ s.inForce → m'.toInt ≤ m) :
    ((recsOf s.accepted i).length : Int) ≤ max 1 m := by
  rcases h.bound i hi with hb | ⟨m', hm', hb⟩
  · rw [hb]
    simp
  · have := hm m' hm'
    omega

end Inv

/-- Every call succeeds, at second `t`. -/
def allOk (t : UInt64) : WriteIo :=
  let switch : SwitchIo := ⟨⟨true, true, true, true⟩, true, t, 0, true⟩
  ⟨switch, true, 100, 0, 0, true, switch⟩

end Rotate
end Remain
end CmakeFrame
