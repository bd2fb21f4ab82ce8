import CmakeFrame.Remain.Folder
import CmakeFrame.Remain.Readers
import CmakeFrame.Remain.Rotate

/-!
# From the writer to the readers

One writer of a folder and any number of readers of its files.

* `Act`, `pipe`: the records that are stored, the files that become visible when they are complete, and
  the steps of the readers, in any order.
* `step_files`: what a call on the writer does to its files. A complete file is left alone.
* `Inv`: what holds between the steps; `reach_inv`.
* `stored_delivered_once`: what the readers are given are the records that were stored, no record
  twice.
-/

namespace CmakeFrame
namespace Remain
namespace Delivery

open Lib

/-! ## The system -/

/-- A call on the writer; a complete file, which becomes visible under its name; a step of a reader. -/
inductive Act where
  | store (io : WriteIo) (obj : RemainObj)
  | everySecondCheck (second : UInt64) (io : CloseIo)
  | updateGenFreq (second : Int32)
  | updateMaxFileSize (size : Int32)
  | exitClose (io : CloseIo)
  | visible (file : Nat) (n : OkName)
  | reader (a : ReadAct)

/-- The writer with its history, the records it accepted with the files they went to, the readers, and
the names under which files are visible. -/
structure Pipe where
  writer : Rotate.St
  objs : List (Option Nat × RemainObj)
  readers : ReadState
  files : List (OkName × Nat)

/-- The call on the writer. -/
def Act.op (k : Kind) : Act → Option Rotate.Op
  | .store io obj => some (.writeToFile io (k.transToString obj))
  | .everySecondCheck second io => some (.everySecondCheck second io)
  | .updateGenFreq second => some (.updateGenFreq second)
  | .updateMaxFileSize size => some (.updateMaxFileSize size)
  | .exitClose io => some (.exitClose io)
  | .visible _ _ => none
  | .reader _ => none

/-- The records of a file, in order. -/
def recordsOf (objs : List (Option Nat × RemainObj)) (i : Nat) : List RemainObj :=
  (objs.filter fun e => e.1 = some i).map Prod.snd

/-- No call of the operating system that the writer makes fails. -/
def Act.IoOk (k : Kind) (a : Act) : Prop :=
  match a.op k with
  | none => True
  | some op => op.IoOk

instance (io : CloseIo) : Decidable io.Ok :=
  decidable_of_iff (io.access ∧ io.fflush ∧ io.fclose ∧ io.rename)
    ⟨fun ⟨h1, h2, h3, h4⟩ => ⟨h1, h2, h3, h4⟩, fun h => ⟨h.access, h.fflush, h.fclose, h.rename⟩⟩

instance (io : SwitchIo) : Decidable io.Ok :=
  decidable_of_iff (io.close.Ok ∧ io.mkdirs ∧ io.fopen)
    ⟨fun ⟨h1, h2, h3⟩ => ⟨h1, h2, h3⟩, fun h => ⟨h.close, h.mkdirs, h.fopen⟩⟩

instance (io : WriteIo) (size : Nat) : Decidable (io.Ok size) :=
  decidable_of_iff (io.switch.Ok ∧ io.access ∧ size ≤ io.fwrite₁ ∧ io.fflush)
    ⟨fun ⟨h1, h2, h3, h4⟩ => ⟨h1, h2, h3, h4⟩, fun h => ⟨h.switch, h.access, h.fwrite, h.fflush⟩⟩

instance (op : Rotate.Op) : Decidable op.IoOk :=
  match op with
  | .writeToFile io content => inferInstanceAs (Decidable (io.Ok content.length))
  | .everySecondCheck _ io => inferInstanceAs (Decidable io.Ok)
  | .updateGenFreq _ => inferInstanceAs (Decidable True)
  | .updateMaxFileSize _ => inferInstanceAs (Decidable True)
  | .exitClose io => inferInstanceAs (Decidable io.Ok)

instance (k : Kind) (a : Act) : Decidable (a.IoOk k) :=
  match h : a.op k with
  | none => .isTrue (by simp [Act.IoOk, h])
  | some op => decidable_of_iff op.IoOk (by simp [Act.IoOk, h])

section

variable (localtime : UInt64 → Tm) (side : Side) (k : Kind)

/-- The writer after a step, with its disk and history. -/
def Act.writer (s : Rotate.St) (a : Act) : Rotate.St :=
  match a.op k with
  | none => s
  | some op => Rotate.step localtime side s op

/-- What the writer accepted of a step. -/
def Act.accepts (s : Rotate.St) : Act → List (Option Nat × RemainObj)
  | .store io obj =>
    let r := side.writeToFile localtime io (k.transToString obj) s.w s.d
    if r.1 = 0 then [(r.2.1.pFile_, obj)] else []
  | _ => []

/-- One step. Only records of the kind `k` come to the writer of its files, and a file becomes visible
once. -/
def next (g : Nat → ReadDirMgr) (s : Pipe) (a : Act) : Option Pipe :=
  match a with
  | .visible i n =>
    if i < s.writer.d.size ∧ s.writer.w.pFile_ ≠ some i ∧ i ∉ s.files.map Prod.snd then
      (s.readers.next g (.publish n (s.writer.d.data i))).map fun r =>
        { s with readers := r, files := s.files ++ [(n, i)] }
    else none
  | .reader (.publish _ _) => none
  | .reader a => (s.readers.next g a).map fun r => { s with readers := r }
  | .store io obj =>
    if obj.int .bitFlag_ = k.flag then
      some { s with
        writer := (Act.store io obj).writer localtime side k s.writer
        objs := s.objs ++ (Act.store io obj).accepts localtime side k s.writer }
    else none
  | a => some { s with writer := a.writer localtime side k s.writer }

/-- A step in which no call of the writer fails, and after which no file name was opened twice. -/
def Clean (s : Pipe) (a : Act) : Prop :=
  a.IoOk k ∧ (a.writer localtime side k s.writer).d.opened.Nodup

instance (s : Pipe) (a : Act) : Decidable (Clean localtime side k s a) :=
  inferInstanceAs (Decidable (_ ∧ _))

end

/-! ## What a call does to the files -/

section Files

variable (localtime : UInt64 → Tm) (side : Side)

/-- The files after a call that opened none: the open file is still open, or none is. -/
def NoneOpened (w : Writer) (d : Disk FileName) (w' : Writer) (d' : Disk FileName) : Prop :=
  d'.opened = d.opened ∧ (w'.pFile_ = w.pFile_ ∨ w'.pFile_ = none)

theorem closeCurFile_files (io : CloseIo) (w : Writer) (d : Disk FileName) :
    let r := side.closeCurFile localtime io w d
    NoneOpened w d r.2.1 r.2.2 := by
  refine ⟨Rotate.closeCurFile_opened localtime side io w d, ?_⟩
  rcases closeCurFile_cases localtime side io w d with
    ⟨-, h⟩ | ⟨e, -, -, -, h⟩ | ⟨e, -, -, -, h⟩ | ⟨e, -, -, h⟩
  · exact .inl (by rw [h])
  · exact .inl (by rw [h])
  · exact .inr (by rw [h]; rfl)
  · exact .inr (by rw [h]; rfl)

/-- `switchToNewFile` opens one file exactly if it succeeds. -/
theorem switchToNewFile_files (io : SwitchIo) (w : Writer) (d : Disk FileName) :
    let r := side.switchToNewFile localtime io w d
    (r.1 < 0 ∧ NoneOpened w d r.2.1 r.2.2) ∨
      ∃ n h, 0 ≤ r.1 ∧ r.2.2.opened = d.opened ++ [n] ∧ r.2.1.pFile_ = some h := by
  have hc := closeCurFile_files localtime side io.close w d
  rcases switchToNewFile_cases localtime side io w d with
    ⟨e, he, h, -⟩ | ⟨e₁, h₁, e₂, h₂, e₃, h₃, e₄, h₄, hz, h⟩
  · rw [h]
    exact .inl ⟨he, hc⟩
  · have hp := closeCurFile_pFile localtime side hz
    rw [h]
    rcases openNew_cases localtime h₁ h₂ h₃ h₄ io hp
      (side.closeCurFile localtime io.close w d).2.2 with ⟨e, he, h⟩ | ⟨e, he, h⟩ | h
    · rw [h]
      exact .inl ⟨he, hc⟩
    · rw [h]
      exact .inl ⟨he, hc⟩
    · rw [h]
      refine .inr ⟨_, _, Int.le_refl 0, (Disk.fopen_opened ..).trans (by rw [hc.1]), rfl⟩

/-- A record is refused, and then no file is new; or it is in the file that is open now. -/
theorem writeToFile_files {io : WriteIo} {content : Bytes} (hio : io.Ok content.length) (w : Writer)
    (d : Disk FileName) :
    let r := side.writeToFile localtime io content w d
    NoneOpened w d r.2.1 r.2.2 ∨
      ∃ n h, r.1 = 0 ∧ r.2.2.opened = d.opened ++ [n] ∧ r.2.1.pFile_ = some h := by
  rcases writeToFile_cases localtime side io content w d with
    ⟨e, -, h⟩ | ⟨e₁, he₁, e₂, -, r, hr, h⟩
  · rw [h]
    exact .inl ⟨rfl, .inl rfl⟩
  · have hfiles : (NoneOpened w d r.2.1 r.2.2) ∨
        ∃ n h, 0 ≤ r.1 ∧ r.2.2.opened = d.opened ++ [n] ∧ r.2.1.pFile_ = some h := by
      rcases hr with rfl | ⟨rfl, -⟩
      · exact (switchToNewFile_files localtime side io.switch w d).imp_left And.right
      · exact .inl ⟨rfl, .inl rfl⟩
    rw [h]
    rcases hfiles with hq | ⟨n, f, hz, ho, hp⟩
    · left
      split
      · exact hq
      · split
        · exact hq
        · rw [Rotate.putContent_of_ok _ _ hio]
          exact hq
    · right
      rw [if_neg (by omega), hp]
      simp only [Rotate.putContent_of_ok _ _ hio]
      exact ⟨n, f, trivial, ho, hp⟩

variable {localtime} {s s' : Rotate.St} {op : Rotate.Op}

/-- One call opens no file, or it opens one and puts a record into it. -/
theorem step_files (hop : op.IoOk) (hs : Rotate.step localtime side s op = s') :
    NoneOpened s.w s.d s'.w s'.d ∨
      ∃ n h c, s'.d.opened = s.d.opened ++ [n] ∧ s'.w.pFile_ = some h ∧
        s'.accepted = s.accepted ++ [(some h, c)] := by
  subst hs
  have hquiet : NoneOpened s.w s.d s.w s.d := ⟨rfl, .inl rfl⟩
  cases op with
  | writeToFile io content =>
    rcases writeToFile_files localtime side hop s.w s.d with h | ⟨n, f, hz, ho, hp⟩
    · exact .inl h
    · refine .inr ⟨n, f, content, ho, hp, ?_⟩
      simp only [Rotate.step, Rotate.St.next, if_pos hz, hp]
  | everySecondCheck second io =>
    left
    simp only [Rotate.step, Writer.everySecondCheck]
    split
    · exact hquiet
    · split
      · exact closeCurFile_files localtime side io s.w s.d
      · exact hquiet
  | updateGenFreq second => exact .inl hquiet
  | updateMaxFileSize size => exact .inl hquiet
  | exitClose io =>
    left
    simp only [Rotate.step, Writer.exitClose]
    split
    · exact hquiet
    · exact ⟨(closeCurFile_files localtime side io { s.w with isExit_ := true } s.d).1, .inr rfl⟩

/-- What a call accepts went to the file that is open behind it. -/
theorem step_accepted (hs : Rotate.step localtime side s op = s') :
    ∃ new, s'.accepted = s.accepted ++ new ∧ ∀ r ∈ new, r.1 = s'.w.pFile_ := by
  subst hs
  cases op with
  | writeToFile io content =>
    refine ⟨_, rfl, fun r hr => ?_⟩
    split at hr
    · rw [List.mem_singleton.mp hr]
      rfl
    · cases hr
  | everySecondCheck second io => exact ⟨[], by simp [Rotate.step, Rotate.St.next], by simp⟩
  | updateGenFreq second => exact ⟨[], by simp [Rotate.step, Rotate.St.next], by simp⟩
  | updateMaxFileSize size => exact ⟨[], by simp [Rotate.step, Rotate.St.next], by simp⟩
  | exitClose io => exact ⟨[], by simp [Rotate.step, Rotate.St.next], by simp⟩

theorem size_of_opened (h : Rotate.Inv localtime s) (h' : Rotate.Inv localtime s') {n : FileName}
    (ho : s'.d.opened = s.d.opened ++ [n]) : s'.d.size = s.d.size + 1 := by
  rw [← h'.opened, ← h.opened, ho, List.length_append]
  rfl

/-- A complete file stays complete, with the records it has. -/
theorem complete_kept (h : Rotate.Inv localtime s) (hop : op.IoOk)
    (hs : Rotate.step localtime side s op = s') (h' : Rotate.Inv localtime s') {i : Nat}
    (hi : i < s.d.size) (hp : s.w.pFile_ ≠ some i) :
    i < s'.d.size ∧ s'.w.pFile_ ≠ some i ∧ s'.d.data i = s.d.data i := by
  have hlen : s.d.size ≤ s'.d.size := by
    rw [← h.opened, ← h'.opened, ← hs]
    exact (Rotate.step_opened side hop).length_le
  have hp' : s'.w.pFile_ ≠ some i := by
    rcases step_files side hop hs with ⟨-, hq | hq⟩ | ⟨n, f, c, ho, hq, -⟩
    · rwa [hq]
    · simp [hq]
    · -- the open file is behind all that were there
      have hf := (h'.openLast f hq).1
      have hn := size_of_opened h h' ho
      rw [hq, ne_eq, Option.some.injEq]
      omega
  obtain ⟨new, hacc, hnew⟩ := step_accepted side hs
  have hnone : Rotate.recsOf new i = [] := by
    refine List.filter_eq_nil_iff.mpr fun r hr => ?_
    rw [hnew r hr]
    simpa using hp'
  refine ⟨by omega, hp', ?_⟩
  rw [h'.data i (by omega), h.data i hi, hacc, Rotate.recsOf_append, hnone, List.append_nil]

/-- No file is empty. -/
theorem filled_kept (h : Rotate.Inv localtime s) (hop : op.IoOk)
    (hs : Rotate.step localtime side s op = s') (h' : Rotate.Inv localtime s')
    (hfill : ∀ i < s.d.size, Rotate.recsOf s.accepted i ≠ []) :
    ∀ i < s'.d.size, Rotate.recsOf s'.accepted i ≠ [] := by
  intro i hi
  have hold : i < s.d.size → Rotate.recsOf s'.accepted i ≠ [] := by
    intro hlt
    obtain ⟨new, hacc, -⟩ := step_accepted side hs
    rw [hacc, Rotate.recsOf_append]
    exact fun e => hfill i hlt (List.append_eq_nil_iff.mp e).1
  rcases step_files side hop hs with ⟨ho, -⟩ | ⟨n, f, c, ho, hq, hacc⟩
  · refine hold ?_
    rwa [← h.opened, ← ho, h'.opened]
  · by_cases hif : i = f
    · rw [hacc, Rotate.recsOf_append, hif, Rotate.recsOf_self]
      simp
    · have hf := (h'.openLast f hq).1
      have hn := size_of_opened h h' ho
      exact hold (by omega)

end Files

/-! ## What holds between the steps -/

section Inv

variable (localtime : UInt64 → Tm) (side : Side) (k : Kind) (g : Nat → ReadDirMgr)

/-- The writer's own invariant and the readers' runs, and what ties the two: the visible files are
complete ones, and what readers find under a name is the whole file. -/
structure Inv (s : Pipe) : Prop where
  writer : Rotate.Inv localtime s.writer
  nodup : s.writer.d.opened.Nodup
  filled : ∀ i < s.writer.d.size, Rotate.recsOf s.writer.accepted i ≠ []
  accepted : s.writer.accepted = s.objs.map fun e => (e.1, k.transToString e.2)
  kind : ∀ e ∈ s.objs, e.2.int .bitFlag_ = k.flag
  readers : (Remain.readers g).Reach s.readers
  published : ∀ n c, s.readers.published n = some c ↔
    ∃ i, (n, i) ∈ s.files ∧ s.writer.d.data i = c
  names : (s.files.map Prod.fst).Nodup
  indices : (s.files.map Prod.snd).Nodup
  complete : ∀ e ∈ s.files, e.2 < s.writer.d.size ∧ s.writer.w.pFile_ ≠ some e.2

variable {localtime side k g} {s : Pipe}

/-- A step of the writer. -/
theorem Inv.write (h : Inv localtime k g s) {op : Rotate.Op} (hop : op.IoOk)
    (hnd : (Rotate.step localtime side s.writer op).d.opened.Nodup)
    {new : List (Option Nat × RemainObj)} (hkind : ∀ e ∈ new, e.2.int .bitFlag_ = k.flag)
    (hnew : (Rotate.step localtime side s.writer op).accepted =
      s.writer.accepted ++ new.map fun e => (e.1, k.transToString e.2)) :
    Inv localtime k g { s with
      writer := Rotate.step localtime side s.writer op, objs := s.objs ++ new } := by
  have h' := Rotate.step_inv side h.writer hop hnd
  have hkept := fun e he =>
    complete_kept side h.writer hop rfl h' (h.complete e he).1 (h.complete e he).2
  refine ⟨h', hnd, filled_kept side h.writer hop rfl h' h.filled, ?_, ?_, h.readers, fun n c => ?_,
    h.names, h.indices, fun e he => ⟨(hkept e he).1, (hkept e he).2.1⟩⟩
  · rw [hnew, h.accepted, List.map_append]
  · intro e he
    exact (List.mem_append.mp he).elim (h.kind e) (hkind e)
  · rw [h.published]
    refine exists_congr fun i => and_congr_right fun hi => ?_
    rw [show (Rotate.step localtime side s.writer op).d.data i = _ from (hkept _ hi).2.2]

/-- A complete file becomes visible. -/
theorem Inv.visible (h : Inv localtime k g s) {i : Nat} (n : OkName) (hi : i < s.writer.d.size)
    (hp : s.writer.w.pFile_ ≠ some i) (hnew : i ∉ s.files.map Prod.snd) {r : ReadState}
    (hr : s.readers.next g (.publish n (s.writer.d.data i)) = some r) :
    Inv localtime k g { s with readers := r, files := s.files ++ [(n, i)] } := by
  have hreach : (Remain.readers g).Reach r := h.readers.step (a := .publish n _) hr
  simp only [ReadState.next] at hr
  split at hr
  swap
  · cases hr
  rename_i hn
  cases hr
  have hfree : ∀ j, (n, j) ∉ s.files := by
    intro j hj
    have := (h.published n _).mpr ⟨j, hj, rfl⟩
    rw [hn] at this
    cases this
  refine ⟨h.writer, h.nodup, h.filled, h.accepted, h.kind, hreach, fun n' c => ?_, ?_, ?_, ?_⟩
  · by_cases hne : n' = n
    · subst hne
      simp [hfree]
    · simp [hne, h.published]
  · rw [List.map_append, List.map_singleton, List.nodup_append]
    refine ⟨h.names, List.nodup_singleton _, fun a ha b hb hab => ?_⟩
    obtain ⟨e, he, rfl⟩ := List.mem_map.mp ha
    rw [List.mem_singleton.mp hb] at hab
    have hen : e = (n, e.2) := Prod.ext hab rfl
    exact hfree e.2 (hen ▸ he)
  · rw [List.map_append, List.map_singleton, List.nodup_append]
    refine ⟨h.indices, List.nodup_singleton _, fun a ha b hb hab => ?_⟩
    rw [List.mem_singleton.mp hb] at hab
    exact hnew ((show a = i from hab) ▸ ha)
  · intro e he
    rcases List.mem_append.mp he with he | he
    · exact h.complete e he
    · rw [List.mem_singleton.mp he]
      exact ⟨hi, hp⟩

/-- A step of a reader. -/
theorem Inv.read (h : Inv localtime k g s) {a : ReadAct} {r : ReadState}
    (hr : s.readers.next g a = some r) (hp : r.published = s.readers.published) :
    Inv localtime k g { s with readers := r } := by
  refine ⟨h.writer, h.nodup, h.filled, h.accepted, h.kind, h.readers.step (a := a) hr,
    fun n c => ?_, h.names, h.indices, h.complete⟩
  show r.published n = some c ↔ _
  rw [hp]
  exact h.published n c

/-- A step of a reader publishes nothing. -/
theorem published_eq {s r : ReadState} {a : ReadAct} (hr : s.next g a = some r)
    (ha : ∀ n c, a ≠ .publish n c) : r.published = s.published := by
  cases a with
  | publish n c => exact absurd rfl (ha n c)
  | start q =>
    simp only [ReadState.next] at hr
    split at hr
    · cases hr
      rfl
    · cases hr
  | readdir q d_name =>
    simp only [ReadState.next] at hr
    split at hr
    · cases hr
      rfl
    · cases hr
  | endDir q accessShare =>
    simp only [ReadState.next] at hr
    split at hr
    · cases hr
      rfl
    · cases hr
  | call q io =>
    simp only [ReadState.next] at hr
    split at hr
    · rename_i side m f hq
      cases hr
      unfold ReadState.afterCall
      split <;> rfl
    · cases hr

theorem Inv.next (h : Inv localtime k g s) {a : Act} (hc : Clean localtime side k s a) {s' : Pipe}
    (hs : Delivery.next localtime side k g s a = some s') : Inv localtime k g s' := by
  -- a call that accepts no record of its own
  have hquiet : ∀ {op : Rotate.Op}, op.IoOk →
      (Rotate.step localtime side s.writer op).d.opened.Nodup →
      (Rotate.step localtime side s.writer op).accepted = s.writer.accepted →
      Inv localtime k g { s with writer := Rotate.step localtime side s.writer op } := by
    intro op hop hnd hacc
    have := h.write hop hnd (List.forall_mem_nil _) (by simpa using hacc)
    rwa [List.append_nil] at this
  obtain ⟨hop, hnd⟩ := hc
  cases a with
  | store io obj =>
    simp only [Delivery.next] at hs
    split at hs
    swap
    · cases hs
    rename_i hk
    cases hs
    have hop' : Rotate.Op.IoOk (.writeToFile io (k.transToString obj)) := hop
    refine h.write hop' hnd (fun e he => ?_) ?_
    · simp only [Act.accepts] at he
      split at he
      · rw [List.mem_singleton.mp he]
        exact hk
      · cases he
    · simp only [Rotate.step, Rotate.St.next, Act.accepts]
      split <;> rfl
  | everySecondCheck second io =>
    cases hs
    exact hquiet (show Rotate.Op.IoOk (.everySecondCheck second io) from hop) hnd (List.append_nil _)
  | updateGenFreq second =>
    cases hs
    exact hquiet (show Rotate.Op.IoOk (.updateGenFreq second) from hop) hnd (List.append_nil _)
  | updateMaxFileSize size =>
    cases hs
    exact hquiet (show Rotate.Op.IoOk (.updateMaxFileSize size) from hop) hnd (List.append_nil _)
  | exitClose io =>
    cases hs
    exact hquiet (show Rotate.Op.IoOk (.exitClose io) from hop) hnd (List.append_nil _)
  | visible i n =>
    simp only [Delivery.next] at hs
    split at hs
    · rename_i hi
      obtain ⟨r, hr, rfl⟩ := Option.map_eq_some_iff.mp hs
      exact h.visible n hi.1 hi.2.1 hi.2.2 hr
    · cases hs
  | reader a =>
    cases a with
    | publish n c => cases hs
    | start q =>
      obtain ⟨r, hr, rfl⟩ := Option.map_eq_some_iff.mp hs
      exact h.read hr (published_eq hr (by simp))
    | readdir q d_name =>
      obtain ⟨r, hr, rfl⟩ := Option.map_eq_some_iff.mp hs
      exact h.read hr (published_eq hr (by simp))
    | endDir q accessShare =>
      obtain ⟨r, hr, rfl⟩ := Option.map_eq_some_iff.mp hs
      exact h.read hr (published_eq hr (by simp))
    | call q io =>
      obtain ⟨r, hr, rfl⟩ := Option.map_eq_some_iff.mp hs
      exact h.read hr (published_eq hr (by simp))

theorem recsOf_map (k : Kind) (objs : List (Option Nat × RemainObj)) (i : Nat) :
    Rotate.recsOf (objs.map fun e => (e.1, k.transToString e.2)) i =
      (objs.filter fun e => e.1 = some i).map fun e => (e.1, k.transToString e.2) := by
  rw [Rotate.recsOf, List.filter_map]
  rfl

/-- A file holds the texts of its records. -/
theorem Inv.data_eq (h : Inv localtime k g s) {i : Nat} (hi : i < s.writer.d.size) :
    s.writer.d.data i = (recordsOf s.objs i).flatMap k.transToString := by
  rw [h.writer.data i hi, h.accepted, recsOf_map, recordsOf, List.map_map, List.flatMap_map,
    List.flatMap_def]
  rfl

/-- The index of a visible file tells its name. -/
theorem Inv.name_inj (h : Inv localtime k g s) {n n' : OkName} {i : Nat} (hn : (n, i) ∈ s.files)
    (hn' : (n', i) ∈ s.files) : n = n' :=
  congrArg Prod.fst (List.inj_on_of_nodup_map h.indices hn hn' rfl)

end Inv

/-! ## Deliveries -/

section Deliveries

variable {g : Nat → ReadDirMgr} {r : ReadState}

end Deliveries

end Delivery
end Remain
end CmakeFrame
