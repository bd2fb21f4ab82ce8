import CmakeFrame.Lib.Decimal
import CmakeFrame.Lib.Renames

/-!
# `msgFile/MessageFilesImpl.cpp`: files that a crash left behind

At its start the program looks for record files below `MsgFiles` that were never closed, and renames
them.

* `Entries`: what `readdir` gives, with the folders below.
* `Entries.enumTmpFile`, `scanfAndRenameTmpFile`: the two functions; `none` is an exception or a
  write outside of the buffer.
* `enumTmpFile_eq`: the scan as a filter of all paths.
* `recovery_iff`: when exactly the left files are renamed, and nothing is lost.
-/

namespace CmakeFrame
namespace MsgFile

open Lib

/-! ## Names -/

/-- `MSGFILES_FOLDER_NAME`. -/
def msgFilesFolderName : Bytes := [77, 115, 103, 70, 105, 108, 101, 115]

/-- `FILE_EXNAME`: `.txt`. -/
def fileExName : Bytes := [46, 116, 120, 116]

/-- `_ok.txt`. -/
def kExeNameOk : Bytes := [95, 111, 107, 46, 116, 120, 116]

/-- `_bak.txt`. -/
def kExeNameBak : Bytes := [95, 98, 97, 107, 46, 116, 120, 116]

/-- `_bak.zip`. -/
def kExeNameBakZip : Bytes := [95, 98, 97, 107, 46, 122, 105, 112]

/-- `str.find_last_of(c)`; `none` is `npos`. -/
def findLastOf (c : UInt8) : Bytes → Option Nat
  | [] => none
  | b :: s =>
    match findLastOf c s with
    | some i => some (i + 1)
    | none => if b = c then some 0 else none

/-- `0 == str.compare(pos, n, text)`, for `pos` inside. -/
def compares (str : Bytes) (pos n : Nat) (text : Bytes) : Bool := (str.drop pos).take n == text

/-! ## The functions -/

/-- The entries of a folder in the order of `readdir`, the folders with theirs. What is not a folder
counts as a file. -/
inductive Entries where
  | nil
  | file (name content : Bytes) (rest : Entries)
  | dir (name : Bytes) (entries rest : Entries)

/-- Whether the path of a file is pushed to `vFileName`. -/
def pushes (str : Bytes) : Option Bool :=
  match findLastOf 46 str with
  -- `npos` is not below 4, and `compare` throws at `npos - 3`
  | none => none
  | some pos =>
    if pos < 4 then some false
    else
      some (!compares str (pos - 3) 7 kExeNameOk && !compares str (pos - 4) 8 kExeNameBak &&
        !compares str (pos - 4) 8 kExeNameBakZip)

namespace Entries

/-- `str`: the folder, `/` and the name. -/
def path (szFolderName name : Bytes) : Bytes := szFolderName ++ 47 :: name

/-- `.` and `..`. -/
def isDots (name : Bytes) : Bool := name == [46] || name == [46, 46]

/-- `EnumTmpFile(szFolderName, vFileName)`: what it pushes. -/
def enumTmpFile (szFolderName : Bytes) : Entries → Option (List Bytes)
  | nil => some []
  | file name _ rest => do
    let pushed ← pushes (path szFolderName name)
    let vFileName ← rest.enumTmpFile szFolderName
    return if pushed then path szFolderName name :: vFileName else vFileName
  | dir name entries rest =>
    if isDots name then rest.enumTmpFile szFolderName
    else do
      let inner ← entries.enumTmpFile (path szFolderName name)
      let vFileName ← rest.enumTmpFile szFolderName
      return inner ++ vFileName

/-- The paths of all files. -/
def files (szFolderName : Bytes) : Entries → List Bytes
  | nil => []
  | file name _ rest => path szFolderName name :: rest.files szFolderName
  | dir name entries rest =>
    if isDots name then rest.files szFolderName
    else entries.files (path szFolderName name) ++ rest.files szFolderName

/-- The names stand for these files. -/
def Files (names : Names Bytes Bytes) (szFolderName : Bytes) : Entries → Prop
  | nil => True
  | file name content rest =>
    names (path szFolderName name) = some (.file content) ∧ rest.Files names szFolderName
  | dir name entries rest =>
    (isDots name = false → entries.Files names (path szFolderName name)) ∧
      rest.Files names szFolderName

end Entries

/-- `buffer`: the path without its last four characters, and `_ok.txt`. -/
def okName (path : Bytes) : Bytes := path.take (path.length - fileExName.length) ++ kExeNameOk

/-- `MsgFiles` next to the program. -/
def pathTmp (szMainPath : Bytes) : Bytes := szMainPath ++ msgFilesFolderName

/-- `ScanfAndRenameTmpFile`: the names afterwards, and whether a `rename` replaced a file. `buffer`
has 1024 bytes. -/
def scanfAndRenameTmpFile (szMainPath : Bytes) (t : Entries) (names : Names Bytes Bytes) :
    Option (Names Bytes Bytes × Bool) := do
  let tmpFiles ← t.enumTmpFile (pathTmp szMainPath)
  if tmpFiles.all fun path => (okName path).length < 1024 then
    return renameAll okName tmpFiles names
  else none

/-! ## The scan -/

/-- `EnumTmpFile` pushes this path. -/
abbrev Pushed (path : Bytes) : Prop := pushes path = some true

theorem findLastOf_none {c : UInt8} {s : Bytes} : findLastOf c s = none ↔ c ∉ s := by
  induction s with
  | nil => simp [findLastOf]
  | cons b s ih =>
    rw [findLastOf]
    cases h : findLastOf c s with
    | none =>
      have hs := ih.mp h
      by_cases hb : b = c
      · simp [hb]
      · simp [hb, hs, Ne.symm hb]
    | some i =>
      have hs : c ∈ s := by
        by_contra hn
        rw [ih.mpr hn] at h
        cases h
      simp [hs]

theorem pushes_isSome (path : Bytes) : (pushes path).isSome = true ↔ 46 ∈ path := by
  unfold pushes
  cases h : findLastOf 46 path with
  | none => simp [findLastOf_none.mp h]
  | some pos =>
    have hmem : 46 ∈ path := by
      by_contra hn
      rw [findLastOf_none.mpr hn] at h
      cases h
    simp only [hmem, iff_true]
    split_ifs <;> rfl

/-- A scan of these paths: it throws at one without a dot. -/
def scanned (paths : List Bytes) : Option (List Bytes) :=
  if ∀ path ∈ paths, 46 ∈ path then some (paths.filter fun path => Pushed path) else none

theorem scanned_cons (path : Bytes) (paths : List Bytes) :
    scanned (path :: paths) = (do
      let pushed ← pushes path
      let vFileName ← scanned paths
      return if pushed then path :: vFileName else vFileName) := by
  unfold scanned
  have hdot := pushes_isSome path
  cases h : pushes path with
  | none =>
    rw [if_neg]
    · rfl
    · intro hall
      have := hdot.mpr (hall path List.mem_cons_self)
      rw [h] at this
      cases this
  | some pushed =>
    rw [h] at hdot
    simp only [List.forall_mem_cons, hdot.mp rfl, true_and]
    split_ifs with hrest
    · cases pushed with
      | false => rw [List.filter_cons_of_neg (by simp [Pushed, h])]; rfl
      | true => rw [List.filter_cons_of_pos (by simp [Pushed, h])]; rfl
    · rfl

theorem scanned_append (paths paths' : List Bytes) :
    scanned (paths ++ paths') = (do
      let inner ← scanned paths
      let vFileName ← scanned paths'
      return inner ++ vFileName) := by
  unfold scanned
  by_cases h : ∀ path ∈ paths, 46 ∈ path
  · by_cases h' : ∀ path ∈ paths', 46 ∈ path
    · rw [if_pos h, if_pos h', if_pos (List.forall_mem_append.mpr ⟨h, h'⟩), List.filter_append]
      rfl
    · rw [if_pos h, if_neg h', if_neg fun hall => h' (List.forall_mem_append.mp hall).2]
      rfl
  · rw [if_neg h, if_neg fun hall => h (List.forall_mem_append.mp hall).1]
    rfl

/-- `EnumTmpFile` is a scan of all paths. -/
theorem enumTmpFile_eq (szFolderName : Bytes) (t : Entries) :
    t.enumTmpFile szFolderName = scanned (t.files szFolderName) := by
  induction t generalizing szFolderName with
  | nil => rw [Entries.enumTmpFile, Entries.files, scanned, if_pos (List.forall_mem_nil _)]; rfl
  | file name content rest ih => rw [Entries.enumTmpFile, Entries.files, scanned_cons, ih]
  | dir name entries rest ihe ihr =>
    rw [Entries.enumTmpFile, Entries.files]
    split_ifs with hdots
    · exact ihr szFolderName
    · rw [scanned_append, ihe, ihr]

/-- The path of a file is longer than that of its folder. -/
theorem length_lt_of_mem_files {t : Entries} {szFolderName path : Bytes}
    (h : path ∈ t.files szFolderName) : szFolderName.length < path.length := by
  induction t generalizing szFolderName with
  | nil => cases h
  | file name content rest ih =>
    rcases List.mem_cons.mp h with rfl | h
    · rw [Entries.path, List.length_append, List.length_cons]
      omega
    · exact ih h
  | dir name entries rest ihe ihr =>
    rw [Entries.files] at h
    split_ifs at h with hdots
    · exact ihr h
    · rcases List.mem_append.mp h with h | h
      · have := ihe h
        rw [Entries.path, List.length_append, List.length_cons] at this
        omega
      · exact ihr h

theorem Entries.Files.file {names : Names Bytes Bytes} {t : Entries} {szFolderName path : Bytes}
    (hn : t.Files names szFolderName) (h : path ∈ t.files szFolderName) :
    ∃ content, names path = some (.file content) := by
  induction t generalizing szFolderName with
  | nil => cases h
  | file name content rest ih =>
    rcases List.mem_cons.mp h with rfl | h
    · exact ⟨content, hn.1⟩
    · exact ih hn.2 h
  | dir name entries rest ihe ihr =>
    rw [Entries.files] at h
    split_ifs at h with hdots
    · exact ihr hn.2 h
    · rcases List.mem_append.mp h with h | h
      · exact ihe (hn.1 (by simpa using hdots)) h
      · exact ihr hn.2 h

/-! ## What the suffixes say -/

/-- A record file that was not closed: `<id>.txt`, where the id does not end with `_ok` or `_bak`. -/
structure DataFile (path : Bytes) : Prop where
  txt : fileExName <:+ path
  notOk : ¬ kExeNameOk <:+ path
  notBak : ¬ kExeNameBak <:+ path

instance (path : Bytes) : Decidable (DataFile path) :=
  decidable_of_iff (fileExName <:+ path ∧ ¬ kExeNameOk <:+ path ∧ ¬ kExeNameBak <:+ path)
    ⟨fun ⟨h₁, h₂, h₃⟩ => ⟨h₁, h₂, h₃⟩, fun h => ⟨h.txt, h.notOk, h.notBak⟩⟩

theorem findLastOf_append {c : UInt8} {t : Bytes} (s : Bytes) {i : Nat} (h : findLastOf c t = some i) :
    findLastOf c (s ++ t) = some (s.length + i) := by
  induction s with
  | nil => rw [List.nil_append, h, List.length_nil, Nat.zero_add]
  | cons b s ih =>
    rw [List.cons_append, findLastOf, ih, List.length_cons]
    exact congrArg some (by omega)

/-- The dot of a path that ends with `.txt`. -/
theorem findLastOf_txt (q : Bytes) : findLastOf 46 (q ++ fileExName) = some q.length :=
  findLastOf_append (t := fileExName) (i := 0) q rfl

/-- The comparison that starts `k` characters in front of the dot of `.txt`. -/
theorem compares_txt {q text : Bytes} {k : Nat} (hk : k ≤ q.length) (hlen : text.length = k + 4) :
    compares (q ++ fileExName) (q.length - k) (k + 4) text = true ↔ text <:+ q ++ fileExName := by
  have hall : (q ++ fileExName).length = q.length + 4 := List.length_append
  have htake : ((q ++ fileExName).drop (q.length - k)).take (k + 4) =
      (q ++ fileExName).drop (q.length - k) :=
    List.take_of_length_le (by rw [List.length_drop]; omega)
  rw [compares, htake, beq_iff_eq]
  constructor
  · intro h
    rw [← h]
    exact List.drop_suffix _ _
  · rintro ⟨s, hs⟩
    have hlength := congrArg List.length hs
    rw [List.length_append] at hlength
    rw [← hs, show q.length - k = s.length by omega, List.drop_left]

/-- A file that was renamed is not pushed. -/
theorem not_pushed_okName (path : Bytes) : ¬ Pushed (okName path) := by
  have hq : okName path =
      (path.take (path.length - fileExName.length) ++ [95, 111, 107]) ++ fileExName := by
    rw [okName, List.append_assoc]
    rfl
  have hsuffix : kExeNameOk <:+ okName path := List.suffix_append _ _
  rw [hq] at hsuffix ⊢
  generalize path.take (path.length - fileExName.length) = r at hsuffix
  have hk : 3 ≤ (r ++ [95, 111, 107]).length := by
    rw [List.length_append]
    exact Nat.le_add_left _ _
  have hok := (compares_txt hk rfl).mpr hsuffix
  rw [Pushed, pushes, findLastOf_txt]
  simp only [hok]
  split_ifs <;> simp

/-- A left file is pushed. -/
theorem DataFile.pushed {path : Bytes} (h : DataFile path) (hlen : 8 ≤ path.length) :
    Pushed path := by
  obtain ⟨q, rfl⟩ := h.txt
  have hall : (q ++ fileExName).length = q.length + 4 := List.length_append
  have hok : compares (q ++ fileExName) (q.length - 3) 7 kExeNameOk = false :=
    Bool.eq_false_iff.mpr fun hc => h.notOk ((compares_txt (by omega) rfl).mp hc)
  have hbak : compares (q ++ fileExName) (q.length - 4) 8 kExeNameBak = false :=
    Bool.eq_false_iff.mpr fun hc => h.notBak ((compares_txt (by omega) rfl).mp hc)
  have hzip : compares (q ++ fileExName) (q.length - 4) 8 kExeNameBakZip = false := by
    refine Bool.eq_false_iff.mpr fun hc => ?_
    obtain ⟨s, hs⟩ := (compares_txt (by omega) rfl).mp hc
    -- the last characters are `p` and `t`
    have := congrArg List.getLast? hs
    simp [kExeNameBakZip, fileExName] at this
  rw [Pushed, pushes, findLastOf_txt]
  simp only [hok, hbak, hzip]
  rw [if_neg (by omega)]
  rfl

/-- Left files have targets of their own. -/
theorem DataFile.okName_inj {path path' : Bytes} (h : DataFile path) (h' : DataFile path')
    (he : okName path = okName path') : path = path' := by
  obtain ⟨q, rfl⟩ := h.txt
  obtain ⟨q', rfl⟩ := h'.txt
  simp only [okName, List.length_append, Nat.add_sub_cancel, List.take_left] at he
  rw [List.append_cancel_right he]

/-! ## Recovery -/

variable (szMainPath : Bytes) (t : Entries) (names : Names Bytes Bytes)

/-- The paths of all files below `MsgFiles`. -/
abbrev filesOf : List Bytes := t.files (pathTmp szMainPath)

/-- The paths that are renamed. -/
def tmpFiles : List Bytes := (filesOf szMainPath t).filter fun path => Pushed path

/-- The start gets through, each left file is found under its new name and only there, every other
name stands for what it stood for, and no file was replaced. -/
def Recovers : Prop :=
  ∃ names', scanfAndRenameTmpFile szMainPath t names = some (names', false) ∧
    (∀ path ∈ filesOf szMainPath t, DataFile path →
      names' path = none ∧ names' (okName path) = names path) ∧
    ∀ p, (∀ path ∈ filesOf szMainPath t, DataFile path → p ≠ path ∧ p ≠ okName path) →
      names' p = names p

/-- Every path has a dot, the paths that are pushed fit the buffer, those of them that are no left
files have a folder for a target, and the target of a left file is free. -/
structure Tidy : Prop where
  dot : ∀ path ∈ filesOf szMainPath t, 46 ∈ path
  fits : ∀ path ∈ filesOf szMainPath t, Pushed path → (okName path).length < 1024
  others : ∀ path ∈ filesOf szMainPath t, Pushed path →
    DataFile path ∨ names (okName path) = some .dir
  free : ∀ path ∈ filesOf szMainPath t, DataFile path → names (okName path) = none

instance : Decidable (Tidy szMainPath t names) :=
  decidable_of_iff ((∀ path ∈ filesOf szMainPath t, 46 ∈ path) ∧
      (∀ path ∈ filesOf szMainPath t, Pushed path → (okName path).length < 1024) ∧
      (∀ path ∈ filesOf szMainPath t, Pushed path →
        DataFile path ∨ names (okName path) = some .dir) ∧
      ∀ path ∈ filesOf szMainPath t, DataFile path → names (okName path) = none)
    ⟨fun ⟨h₁, h₂, h₃, h₄⟩ => ⟨h₁, h₂, h₃, h₄⟩, fun h => ⟨h.dot, h.fits, h.others, h.free⟩⟩

variable {szMainPath t names}

/-- What the start does when it gets through. -/
theorem scanf_some {r : Names Bytes Bytes × Bool}
    (h : scanfAndRenameTmpFile szMainPath t names = some r) :
    (∀ path ∈ filesOf szMainPath t, 46 ∈ path) ∧
      (∀ path ∈ filesOf szMainPath t, Pushed path → (okName path).length < 1024) ∧
      r = renameAll okName (tmpFiles szMainPath t) names := by
  rw [scanfAndRenameTmpFile, enumTmpFile_eq, scanned] at h
  by_cases hdot : ∀ path ∈ filesOf szMainPath t, 46 ∈ path
  · rw [if_pos hdot] at h
    simp only [Option.bind_eq_bind, Option.bind_some] at h
    split_ifs at h with hfits
    · rw [List.all_eq_true] at hfits
      refine ⟨hdot, fun path hpath hp => ?_, (Option.some.inj h).symm⟩
      simpa using hfits path (List.mem_filter.mpr ⟨hpath, by simpa using hp⟩)
  · rw [if_neg hdot] at h
    cases h

theorem scanf_eq (hdot : ∀ path ∈ filesOf szMainPath t, 46 ∈ path)
    (hfits : ∀ path ∈ filesOf szMainPath t, Pushed path → (okName path).length < 1024) :
    scanfAndRenameTmpFile szMainPath t names =
      some (renameAll okName (tmpFiles szMainPath t) names) := by
  rw [scanfAndRenameTmpFile, enumTmpFile_eq, scanned, if_pos hdot]
  refine if_pos (List.all_eq_true.mpr fun path hpath => ?_)
  obtain ⟨hpath, hp⟩ := List.mem_filter.mp hpath
  simpa using hfits path hpath (by simpa using hp)

theorem mem_tmpFiles {path : Bytes} :
    path ∈ tmpFiles szMainPath t ↔ path ∈ filesOf szMainPath t ∧ Pushed path := by
  rw [tmpFiles, List.mem_filter, decide_eq_true_eq]

theorem okName_notMem (path : Bytes) : okName path ∉ tmpFiles szMainPath t := fun h =>
  not_pushed_okName path (mem_tmpFiles.mp h).2

theorem DataFile.mem_tmpFiles {path : Bytes} (h : DataFile path)
    (hpath : path ∈ filesOf szMainPath t) : path ∈ tmpFiles szMainPath t := by
  have hlen := length_lt_of_mem_files hpath
  rw [pathTmp, List.length_append] at hlen
  have hfolder : msgFilesFolderName.length = 8 := rfl
  exact MsgFile.mem_tmpFiles.mpr ⟨hpath, h.pushed (by omega)⟩

/-- Where nothing was lost, the names were tidy. -/
theorem Recovers.tidy (hfiles : t.Files names (pathTmp szMainPath))
    (h : Recovers szMainPath t names) : Tidy szMainPath t names := by
  obtain ⟨names', hrun, hleft, hother⟩ := h
  obtain ⟨hdot, hfits, hr⟩ := scanf_some hrun
  obtain ⟨rfl, hflag⟩ := Prod.mk.inj hr
  have hl : ∀ s ∈ tmpFiles szMainPath t, okName s ∉ tmpFiles szMainPath t := fun s _ =>
    okName_notMem s
  refine ⟨hdot, hfits, ?_, ?_⟩
  · intro path hpath hp
    by_contra hn
    rw [not_or] at hn
    obtain ⟨content, hc⟩ := hfiles.file hpath
    have hgone := renameAll_source hl (mem_tmpFiles.mpr ⟨hpath, hp⟩) (by rw [hc]; simp) hn.2
    rw [hother path, hc] at hgone
    · cases hgone
    · intro q _ hq
      exact ⟨fun he => hn.1 (he ▸ hq), fun he => not_pushed_okName q (he ▸ hp)⟩
  · intro path hpath hd
    have hmem := hd.mem_tmpFiles hpath
    obtain ⟨content, hc⟩ := hfiles.file hpath
    cases hx : names (okName path) with
    | none => rfl
    | some x =>
      cases x with
      | file c =>
        have := renameAll_replaces hl hmem ⟨content, hc⟩ ⟨c, hx⟩
        rw [← hflag] at this
        cases this
      | dir =>
        -- the call fails and the file stays
        have hstay : (renameAll okName (tmpFiles szMainPath t) names).1 path = names path :=
          renameAll_frame hl (fun _ => hx) fun s hs he => absurd (he ▸ hmem) (hl s hs)
        rw [(hleft path hpath hd).1, hc] at hstay
        cases hstay

theorem Tidy.recovers (hfiles : t.Files names (pathTmp szMainPath))
    (h : Tidy szMainPath t names) : Recovers szMainPath t names := by
  have hl : ∀ s ∈ tmpFiles szMainPath t, okName s ∉ tmpFiles szMainPath t := fun s _ =>
    okName_notMem s
  have hfile : ∀ s ∈ tmpFiles szMainPath t, names s ≠ some .dir := by
    intro s hs
    obtain ⟨content, hc⟩ := hfiles.file (mem_tmpFiles.mp hs).1
    rw [hc]
    simp
  -- a left file is the only one with its target
  have hone : ∀ s ∈ filesOf szMainPath t, DataFile s →
      ∀ s' ∈ tmpFiles szMainPath t, okName s' = okName s → s' = s := by
    intro s hs hd s' hs' he
    obtain ⟨hpath, hp⟩ := mem_tmpFiles.mp hs'
    obtain hd' | hdir := h.others s' hpath hp
    · exact hd'.okName_inj hd he
    · rw [he, h.free s hs hd] at hdir
      cases hdir
  have hflag : (renameAll okName (tmpFiles szMainPath t) names).2 = false := by
    refine renameAll_free hl hfile fun s hs => ?_
    obtain ⟨hpath, hp⟩ := mem_tmpFiles.mp hs
    obtain hd | hdir := h.others s hpath hp
    · exact .inr (.inr ⟨h.free s hpath hd, hone s hpath hd⟩)
    · exact .inr (.inl hdir)
  refine ⟨(renameAll okName (tmpFiles szMainPath t) names).1, ?_, ?_, ?_⟩
  · rw [scanf_eq h.dot h.fits, ← hflag]
  · intro path hpath hd
    have hmem := hd.mem_tmpFiles hpath
    have hfree := h.free path hpath hd
    obtain ⟨content, hc⟩ := hfiles.file hpath
    refine ⟨renameAll_source hl hmem (hfile path hmem) (by rw [hfree]; simp), ?_⟩
    rw [hc]
    exact renameAll_target hl hmem hc hfree (hone path hpath hd)
  · intro p hp
    refine renameAll_frame hl ?_ ?_
    · intro hmem
      obtain ⟨hpath, hpushed⟩ := mem_tmpFiles.mp hmem
      refine (h.others p hpath hpushed).resolve_left fun hd => ?_
      exact (hp p hpath hd).1 rfl
    · intro s hs he
      obtain ⟨hpath, hpushed⟩ := mem_tmpFiles.mp hs
      obtain hd | hdir := h.others s hpath hpushed
      · exact absurd he.symm (hp s hpath hd).2
      · exact .inr (he ▸ hdir)

/-- For every tree of files and folders: the start renames the left files and nothing else, and
replaces no file, just if the names are tidy. -/
theorem recovery_iff (szMainPath : Bytes) (t : Entries) (names : Names Bytes Bytes)
    (hfiles : t.Files names (pathTmp szMainPath)) :
    Recovers szMainPath t names ↔ Tidy szMainPath t names :=
  ⟨fun h => h.tidy hfiles, fun h => h.recovers hfiles⟩

/-- `x/1.txt`, `x/2_ok.txt` and `x/3_bak.zip`. -/
def sampleEntries : Entries :=
  .dir [120] (.file [49, 46, 116, 120, 116] [65] (.file (50 :: kExeNameOk) [66]
    (.file (51 :: kExeNameBakZip) [67] .nil))) .nil

/-- The names of these files below `/MsgFiles`. -/
def sampleNames : Names Bytes Bytes := fun p =>
  let x := Entries.path (pathTmp [47]) [120]
  if p = Entries.path x [49, 46, 116, 120, 116] then some (.file [65])
  else if p = Entries.path x (50 :: kExeNameOk) then some (.file [66])
  else if p = Entries.path x (51 :: kExeNameBakZip) then some (.file [67])
  else none

theorem recovery_iff_sample : Recovers [47] sampleEntries sampleNames :=
  (recovery_iff [47] sampleEntries sampleNames
    ⟨fun _ => ⟨by decide, by decide, by decide, trivial⟩, trivial⟩).mpr (by decide)

/-- A name with a content, in `/MsgFiles`. -/
def oneName (name content : Bytes) : Names Bytes Bytes :=
  fun p => if p = Entries.path (pathTmp [47]) name then some (.file content) else none

/-- `1.txt` and `1_ok.txt`. -/
def twoNames : Names Bytes Bytes := fun p => (oneName [49, 46, 116, 120, 116] [65] p).or
  (oneName (49 :: kExeNameOk) [66] p)

/-- The three folders of the counterexample. -/
def noDotEntries : Entries := .file [120] [65] .nil

def logEntries : Entries := .file [120, 46, 108, 111, 103] [65] .nil

def twoEntries : Entries := .file [49, 46, 116, 120, 116] [65] (.file (49 :: kExeNameOk) [66] .nil)

/-- A file `x` makes the scan throw; a file `x.log` is renamed to `x_ok.txt`; the rename of `1.txt`
replaces `1_ok.txt`. -/
theorem recovers_fails :
    ((scanfAndRenameTmpFile [47] noDotEntries (oneName [120] [65])).isNone = true ∧
      ¬ Recovers [47] noDotEntries (oneName [120] [65])) ∧
    ((scanfAndRenameTmpFile [47] logEntries (oneName [120, 46, 108, 111, 103] [65])).map
        (fun r => r.1 (Entries.path (pathTmp [47]) (120 :: kExeNameOk))) = some (some (.file [65])) ∧
      ¬ Recovers [47] logEntries (oneName [120, 46, 108, 111, 103] [65])) ∧
    (scanfAndRenameTmpFile [47] twoEntries twoNames).map
        (fun r => (r.1 (Entries.path (pathTmp [47]) (49 :: kExeNameOk)), r.2)) =
          some (some (.file [65]), true) ∧
      ¬ Recovers [47] twoEntries twoNames := by
  have hno : noDotEntries.Files (oneName [120] [65]) (pathTmp [47]) := ⟨by decide, trivial⟩
  have hlog : logEntries.Files (oneName [120, 46, 108, 111, 103] [65]) (pathTmp [47]) :=
    ⟨by decide, trivial⟩
  have htwo : twoEntries.Files twoNames (pathTmp [47]) := ⟨by decide, by decide, trivial⟩
  refine ⟨⟨by decide, fun h => ?_⟩, ⟨by decide, fun h => ?_⟩, by decide, fun h => ?_⟩
  · exact absurd (h.tidy hno) (by decide)
  · exact absurd (h.tidy hlog) (by decide)
  · exact absurd (h.tidy htwo) (by decide)

end MsgFile
end CmakeFrame
