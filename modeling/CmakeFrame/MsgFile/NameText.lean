import CmakeFrame.Lib.Padded
import CmakeFrame.MsgFile.FileMgr
import CmakeFrame.MsgFile.MessageFilesImpl

/-!
# The texts of the file names, and what the start makes of them

`FileMgr` opens and renames files by their texts, and the start of the program looks for left files by
theirs. `GetFilePtr` puts its text together in a buffer of 256 bytes, piece by piece; the other functions
in one of 1024.

* `FileName.text`: the text; `text_inj`: it determines the name.
* `getFilePtrTexts`: what `GetFilePtr` makes and opens; `opens_renamed_iff`: when that is the file that
  will be renamed.
* `recovered`: a left file that was closed; `recovery_closes`: the start leaves the files that `FileMgr`
  would have left.
-/

namespace CmakeFrame
namespace MsgFile

open Lib

/-! ## The text -/

def Suffix.text : Suffix → Bytes
  | .txt => fileExName
  | .ok => kExeNameOk
  | .bak => kExeNameBak

/-- `"%s/%04d/%02d/%02d/%02d"` -/
def folderText (path : Bytes) (yyyymmdd hour : Int) : Bytes :=
  cstr path ++ 47 :: (padDec 4 (yyyymmdd.tdiv 10000) ++ 47 :: (padDec 2 ((yyyymmdd.tmod 10000).tdiv 100) ++
    47 :: (padDec 2 ((yyyymmdd.tmod 10000).tmod 100) ++ 47 :: padDec 2 hour)))

/-- `"%s/%04d/%02d/%02d/%02d/%09d"` and the suffix. -/
def FileName.text (n : FileName) : Bytes :=
  folderText n.path n.yyyymmdd n.hour ++ 47 :: (padDec 9 n.fileId ++ n.suffix.text)

theorem slash_notMem_padDec (w : Nat) (z : Int) : (47 : UInt8) ∉ padDec w z := by
  intro h
  rcases mem_padDec h with h | h
  · exact absurd h (by decide)
  · exact absurd h (by decide)

theorem Suffix.slash_notMem_text (s : Suffix) : (47 : UInt8) ∉ s.text := by
  cases s <;> decide

theorem Suffix.endsNumber_text (s : Suffix) : EndsNumber s.text := by
  cases s <;> exact endsNumber_cons (by decide)

theorem Suffix.text_inj {s s' : Suffix} (h : s.text = s'.text) : s = s' := by
  cases s <;> cases s' <;> first | rfl | exact absurd h (by decide)

theorem padDec_inj {w : Nat} {z z' : Int} (h : padDec w z = padDec w z') : z = z' := by
  have hnil : EndsNumber [] := nofun
  have h1 := scanInt_padDec w z hnil
  rw [h, scanInt_padDec w z' hnil] at h1
  exact h1.symm

theorem folderText_inj {path path' : Bytes} {yyyymmdd yyyymmdd' hour hour' : Int}
    (h : folderText path yyyymmdd hour = folderText path' yyyymmdd' hour') :
    cstr path = cstr path' ∧ yyyymmdd = yyyymmdd' ∧ hour = hour' := by
  have hno := slash_notMem_padDec
  -- one field after the other, from the end
  simp only [folderText, ← List.cons_append, ← List.append_assoc] at h
  obtain ⟨h, hhour⟩ := last_separator (hno _ _) (hno _ _) h
  obtain ⟨h, hday⟩ := last_separator (hno _ _) (hno _ _) h
  obtain ⟨h, hmonth⟩ := last_separator (hno _ _) (hno _ _) h
  obtain ⟨hpath, hyear⟩ := last_separator (hno _ _) (hno _ _) h
  refine ⟨hpath, ?_, padDec_inj hhour⟩
  have hyear := padDec_inj hyear
  have hmonth := padDec_inj hmonth
  have hday := padDec_inj hday
  have hrest := Int.mul_tdiv_add_tmod (yyyymmdd.tmod 10000) 100
  have hrest' := Int.mul_tdiv_add_tmod (yyyymmdd'.tmod 10000) 100
  have hall := Int.mul_tdiv_add_tmod yyyymmdd 10000
  have hall' := Int.mul_tdiv_add_tmod yyyymmdd' 10000
  rw [← hall, ← hall', hyear, ← hrest, ← hrest', hmonth, hday]

/-- Two files have the same text only if they have the same name. -/
theorem text_inj {n n' : FileName} (h0 : 0 ∉ n.path) (h0' : 0 ∉ n'.path) (h : n.text = n'.text) :
    n = n' := by
  have hno : ∀ m : FileName, (47 : UInt8) ∉ padDec 9 m.fileId ++ m.suffix.text := fun m hm =>
    (List.mem_append.mp hm).elim (slash_notMem_padDec _ _) (Suffix.slash_notMem_text _)
  obtain ⟨hfolder, hfile⟩ := last_separator (hno n) (hno n') h
  obtain ⟨hpath, hday, hhour⟩ := folderText_inj hfolder
  rw [cstr_eq_self h0, cstr_eq_self h0'] at hpath
  have hid : n.fileId = n'.fileId := by
    have h1 := scanInt_padDec 9 n.fileId n.suffix.endsNumber_text
    rw [hfile, scanInt_padDec 9 n'.fileId n'.suffix.endsNumber_text] at h1
    exact h1.symm
  rw [hid] at hfile
  have hsuffix := Suffix.text_inj (List.append_cancel_left hfile)
  cases n
  cases n'
  simp only [FileName.mk.injEq]
  exact ⟨hpath, hday, hhour, hid, hsuffix⟩

/-! ## What `GetFilePtr` opens -/

/-- `len += snprintf(filePath + len, sizeof(filePath) - len, …)`: the text in the buffer, and `len`. -/
def appendText (b : Bytes × Nat) (part : Bytes) : Option (Bytes × Nat) :=
  -- the room is an unsigned number: from 257 on it is none
  if 256 < b.2 then none
  else some (if b.2 = 256 then b.1 else b.1.take b.2 ++ part.take (255 - b.2), b.2 + part.length)

/-- The folders that `GetFilePtr` makes, and the file that it opens; `none` is a write outside of the
buffer. -/
def getFilePtrTexts (n : FileName) : Option (List Bytes × Bytes) := do
  let yyyy ← appendText ([], 0) (cstr n.path ++ 47 :: padDec 4 (n.yyyymmdd.tdiv 10000))
  let mm ← appendText yyyy (47 :: padDec 2 ((n.yyyymmdd.tmod 10000).tdiv 100))
  let dd ← appendText mm (47 :: padDec 2 ((n.yyyymmdd.tmod 10000).tmod 100))
  let hh ← appendText dd (47 :: padDec 2 n.hour)
  let file ← appendText hh (47 :: (padDec 9 n.fileId ++ fileExName))
  return ([yyyy.1, mm.1, dd.1, hh.1], file.1)

/-- `szCurName` and `szOkName`, in buffers of 1024 bytes. -/
def FileName.renamed (n : FileName) : Bytes := n.text.take 1023

/-- The buffer holds the first 255 bytes of what was put together. -/
theorem appendText_take {full : Bytes} (h : full.length ≤ 256) (part : Bytes) :
    appendText (full.take 255, full.length) part =
      some ((full ++ part).take 255, (full ++ part).length) := by
  rw [appendText, if_neg (Nat.not_lt.mpr h), List.length_append, List.take_append]
  congr 2
  split
  · rename_i hlen
    dsimp only at hlen ⊢
    rw [hlen, List.take_zero, List.append_nil]
  · rename_i hlen
    dsimp only at hlen ⊢
    rw [List.take_of_length_le (i := 255) (by omega), List.take_length]

theorem appendText_full {full : Bytes} (h : 256 < full.length) (part : Bytes) :
    appendText (full.take 255, full.length) part = none := if_pos h

/-- The members of a `struct tm`. -/
structure Tm.Valid (t : Tm) : Prop where
  year : 0 ≤ t.tm_year + 1900 ∧ t.tm_year + 1900 < 10000
  mon : 0 ≤ t.tm_mon ∧ t.tm_mon < 12
  mday : 1 ≤ t.tm_mday ∧ t.tm_mday ≤ 31
  hour : 0 ≤ t.tm_hour ∧ t.tm_hour < 24
  min : 0 ≤ t.tm_min ∧ t.tm_min < 60
  sec : 0 ≤ t.tm_sec ∧ t.tm_sec ≤ 60

/-- The folder of the fields of a clock. -/
theorem length_folderText {path : Bytes} (h0 : 0 ∉ path) {localtime_r : Nat → Tm} {ms : Nat}
    (ht : (localtime_r (ms / 1000)).Valid) :
    (folderText path (GenDirId localtime_r ms).1 (GenDirId localtime_r ms).2).length =
      path.length + 14 := by
  obtain ⟨hyear, hmon, hmday, hhour, -, -⟩ := ht
  simp only [GenDirId]
  generalize localtime_r (ms / 1000) = tm at *
  have hdate : 0 ≤ (tm.tm_year + 1900) * 10000 + (tm.tm_mon + 1) * 100 + tm.tm_mday := by omega
  rw [folderText, Int.tdiv_eq_ediv_of_nonneg hdate, Int.tmod_eq_emod_of_nonneg hdate,
    Int.tdiv_eq_ediv_of_nonneg (Int.emod_nonneg _ (by decide)),
    Int.tmod_eq_emod_of_nonneg (Int.emod_nonneg _ (by decide)), cstr_eq_self h0]
  simp only [List.length_append, List.length_cons]
  rw [length_padDec (w := 3) (by omega) (by omega), length_padDec (w := 1) (by omega) (by omega),
    length_padDec (w := 1) (by omega) (by omega), length_padDec (w := 1) (by omega) (by omega)]

theorem length_fileText {localtime_r : Nat → Tm} {ms : Nat} (ht : (localtime_r (ms / 1000)).Valid) :
    (47 :: (padDec 9 (GenFileId localtime_r ms) ++ fileExName)).length = 14 := by
  obtain ⟨-, -, -, hhour, hmin, hsec⟩ := ht
  simp only [GenFileId]
  generalize localtime_r (ms / 1000) = tm at *
  have hms : ms % 1000 < 1000 := Nat.mod_lt _ (by decide)
  rw [List.length_cons, List.length_append, length_padDec (w := 8) (by omega) (by omega)]
  rfl

/-- The file that is opened has the first 255 bytes of its text, if the folder does not run over. -/
theorem getFilePtrTexts_file (n : FileName) : (getFilePtrTexts n).map Prod.snd =
    if (folderText n.path n.yyyymmdd n.hour).length ≤ 256 then
      some ((folderText n.path n.yyyymmdd n.hour ++
        47 :: (padDec 9 n.fileId ++ fileExName)).take 255)
    else none := by
  have hsplit : folderText n.path n.yyyymmdd n.hour =
      cstr n.path ++ 47 :: padDec 4 (n.yyyymmdd.tdiv 10000) ++
        47 :: padDec 2 ((n.yyyymmdd.tmod 10000).tdiv 100) ++
        47 :: padDec 2 ((n.yyyymmdd.tmod 10000).tmod 100) ++ 47 :: padDec 2 n.hour := by
    simp [folderText]
  unfold getFilePtrTexts
  rw [hsplit]
  generalize cstr n.path ++ 47 :: padDec 4 (n.yyyymmdd.tdiv 10000) = yyyy
  generalize (47 :: padDec 2 ((n.yyyymmdd.tmod 10000).tdiv 100) : Bytes) = mm
  generalize (47 :: padDec 2 ((n.yyyymmdd.tmod 10000).tmod 100) : Bytes) = dd
  generalize (47 :: padDec 2 n.hour : Bytes) = hh
  generalize (47 :: (padDec 9 n.fileId ++ fileExName) : Bytes) = file
  have hfirst := @appendText_take [] (Nat.zero_le _) yyyy
  simp only [List.take_nil, List.length_nil, List.nil_append] at hfirst
  rw [hfirst, Option.bind_eq_bind, Option.bind_some]
  by_cases hy : yyyy.length ≤ 256
  · rw [appendText_take hy, Option.bind_some]
    by_cases hm : (yyyy ++ mm).length ≤ 256
    · rw [appendText_take hm, Option.bind_some]
      by_cases hd : (yyyy ++ mm ++ dd).length ≤ 256
      · rw [appendText_take hd, Option.bind_some]
        by_cases hh' : (yyyy ++ mm ++ dd ++ hh).length ≤ 256
        · rw [appendText_take hh', if_pos hh']
          rfl
        · rw [appendText_full (Nat.not_le.mp hh'), if_neg hh']
          rfl
      · rw [appendText_full (Nat.not_le.mp hd), if_neg (by rw [List.length_append]; omega)]
        rfl
    · rw [appendText_full (Nat.not_le.mp hm),
        if_neg (by rw [List.length_append, List.length_append]; omega)]
      rfl
  · rw [appendText_full (Nat.not_le.mp hy),
      if_neg (by rw [List.length_append, List.length_append, List.length_append]; omega)]
    rfl

/-- `GetFilePtr` opens the file that is renamed later exactly when the folder leaves room for the rest. -/
theorem opens_renamed_iff {localtime_r : Nat → Tm} (hclock : ∀ s, (localtime_r s).Valid) {path : Bytes}
    (h0 : 0 ∉ path) (t : Times) :
    (∃ folders, getFilePtrTexts (FileMgr.nextName localtime_r path t .txt) =
      some (folders, (FileMgr.nextName localtime_r path t .txt).renamed)) ↔ PathFits path := by
  have hfolder := length_folderText h0 (hclock (t.dir / 1000))
  have hfile := length_fileText (hclock (t.file / 1000))
  have hopened := getFilePtrTexts_file (FileMgr.nextName localtime_r path t .txt)
  have htext : (FileMgr.nextName localtime_r path t .txt).text.length = path.length + 28 := by
    simp only [FileName.text, FileMgr.nextName, Suffix.text, List.length_append]
    rw [hfolder, hfile]
  have hiff : (∃ folders, getFilePtrTexts (FileMgr.nextName localtime_r path t .txt) =
      some (folders, (FileMgr.nextName localtime_r path t .txt).renamed)) ↔
      (getFilePtrTexts (FileMgr.nextName localtime_r path t .txt)).map Prod.snd =
        some (FileMgr.nextName localtime_r path t .txt).renamed := by
    rw [Option.map_eq_some_iff]
    constructor
    · rintro ⟨folders, h⟩
      exact ⟨_, h, rfl⟩
    · rintro ⟨⟨folders, file⟩, h, rfl⟩
      exact ⟨folders, h⟩
  rw [hiff, hopened]
  change (if _ then some ((FileMgr.nextName localtime_r path t .txt).text.take 255) else none) =
    some ((FileMgr.nextName localtime_r path t .txt).text.take 1023) ↔ _
  rw [PathFits]
  constructor
  · intro h
    split at h
    · have hlen := congrArg List.length (Option.some.inj h)
      rw [List.length_take, List.length_take, htext] at hlen
      omega
    · cases h
  · intro hfits
    rw [if_pos (by rw [show (FileMgr.nextName localtime_r path t .txt).path = path from rfl]; exact
      hfolder.le.trans (by omega)), List.take_of_length_le (by omega), List.take_of_length_le (by omega)]

/-- The first record of 1970. -/
theorem opens_renamed_iff_sample :
    ∃ folders, getFilePtrTexts (FileMgr.nextName (fun _ => ⟨70, 0, 1, 0, 0, 0⟩) [97] ⟨0, 0, 0, 0⟩ .txt) =
      some (folders,
        (FileMgr.nextName (fun _ => ⟨70, 0, 1, 0, 0, 0⟩) [97] ⟨0, 0, 0, 0⟩ .txt).renamed) :=
  (opens_renamed_iff (fun _ => ⟨by decide, by decide, by decide, by decide, by decide, by decide⟩)
    (by decide) ⟨0, 0, 0, 0⟩).mpr (by decide)

/-! ## The start -/

/-- A name without its suffix. -/
def FileName.stem (n : FileName) : Bytes :=
  folderText n.path n.yyyymmdd n.hour ++ 47 :: padDec 9 n.fileId

theorem text_eq_stem (n : FileName) : n.text = n.stem ++ n.suffix.text := by
  simp [FileName.text, FileName.stem]

/-- It ends with a digit. -/
theorem stem_last (n : FileName) : ∃ q c, n.stem = q ++ [c] ∧ isDigit c = true := by
  have hlen := le_length_padDec 9 n.fileId
  have hdrop : (padDec 9 n.fileId).drop 1 ≠ [] := by
    rw [ne_eq, List.drop_eq_nil_iff]
    omega
  obtain hnil | ⟨r, c, hrc⟩ := List.eq_nil_or_concat ((padDec 9 n.fileId).drop 1)
  · exact absurd hnil hdrop
  · have hc : c ∈ (padDec 9 n.fileId).drop 1 := by
      rw [hrc]
      simp
    refine ⟨folderText n.path n.yyyymmdd n.hour ++ 47 :: ((padDec 9 n.fileId).take 1 ++ r), c, ?_,
      isDigit_of_mem_drop_padDec hc⟩
    rw [FileName.stem]
    conv_lhs => rw [← List.take_append_drop 1 (padDec 9 n.fileId), hrc]
    simp

theorem four_le_stem (n : FileName) : 4 ≤ n.stem.length := by
  have hlen := le_length_padDec 9 n.fileId
  rw [FileName.stem, List.length_append, List.length_cons]
  omega

/-- A text that ends with `.txt` alone. -/
theorem not_suffix_stem (n : FileName) {q : Bytes} {c : UInt8} (hc : isDigit c = false) :
    ¬ q ++ [c] ++ fileExName <:+ n.stem ++ fileExName := by
  obtain ⟨r, d, hstem, hd⟩ := stem_last n
  rintro ⟨p, hp⟩
  rw [← List.append_assoc, ← List.append_assoc] at hp
  have h := List.append_cancel_right hp
  rw [hstem] at h
  cases List.append_inj_right' h rfl
  rw [hd] at hc
  cases hc

/-- The left files are those that were not closed. -/
theorem dataFile_text_iff (n : FileName) : DataFile n.text ↔ n.suffix = .txt := by
  rw [text_eq_stem]
  constructor
  · intro h
    cases hs : n.suffix with
    | txt => rfl
    | ok =>
      rw [hs] at h
      exact absurd (List.suffix_append _ _) h.notOk
    | bak =>
      rw [hs] at h
      exact absurd (List.suffix_append _ _) h.notBak
  · intro hs
    rw [hs]
    exact ⟨List.suffix_append _ _, not_suffix_stem n (q := [95, 111]) (c := 107) (by decide),
      not_suffix_stem n (q := [95, 98, 97]) (c := 107) (by decide)⟩

/-- The start pushes the left files only. -/
theorem pushed_text_iff (n : FileName) : Pushed n.text ↔ n.suffix = .txt := by
  have hstem := four_le_stem n
  constructor
  · intro h
    rw [text_eq_stem] at h
    cases hs : n.suffix with
    | txt => rfl
    | ok =>
      rw [hs] at h
      have heq : n.stem ++ Suffix.ok.text = okName (n.stem ++ fileExName) := by
        rw [okName, List.length_append, Nat.add_sub_cancel, List.take_left]
        rfl
      rw [heq] at h
      exact absurd h (not_pushed_okName _)
    | bak =>
      rw [hs] at h
      have heq : n.stem ++ Suffix.bak.text = n.stem ++ [95, 98, 97, 107] ++ fileExName := by
        rw [List.append_assoc]
        rfl
      have hbak : compares (n.stem ++ [95, 98, 97, 107] ++ fileExName)
          ((n.stem ++ [95, 98, 97, 107]).length - 4) 8 kExeNameBak = true :=
        (compares_txt (by rw [List.length_append]; exact Nat.le_add_left _ _) rfl).mpr
          (heq ▸ List.suffix_append _ _)
      rw [heq, Pushed, pushes, findLastOf_txt] at h
      simp only [hbak] at h
      rw [if_neg (by rw [List.length_append]; omega)] at h
      simp at h
  · intro hs
    refine ((dataFile_text_iff n).mpr hs).pushed ?_
    have htxt : Suffix.txt.text.length = 4 := rfl
    rw [text_eq_stem, List.length_append, hs, htxt]
    omega

/-- The name with another suffix. -/
def FileName.withSuffix (n : FileName) (suffix : Suffix) : FileName := { n with suffix }

/-- The start renames a left file as `FileMgr` does when it closes it. -/
theorem okName_text {n : FileName} (hs : n.suffix = .txt) : okName n.text = (n.withSuffix .ok).text := by
  rw [text_eq_stem, text_eq_stem, hs, okName, List.length_append]
  change (n.stem ++ fileExName).take (n.stem.length + fileExName.length - fileExName.length) ++ _ = _
  rw [Nat.add_sub_cancel, List.take_left]
  rfl

/-- Which files are there behind the start: each left one is closed. -/
def recovered (files : FileName → Option Bytes) (n : FileName) : Option Bytes :=
  match n.suffix with
  | .txt => none
  | .ok => (files (n.withSuffix .txt)).or (files n)
  | .bak => files n

/-- The files below `MsgFiles` are those of `files`, under their texts. -/
structure Represents (szMainPath : Bytes) (t : Entries) (names : Names Bytes Bytes)
    (files : FileName → Option Bytes) : Prop where
  tree : t.Files names (pathTmp szMainPath)
  named : ∀ n, 0 ∉ n.path → names n.text = (files n).map .file
  nul : ∀ n, files n ≠ none → 0 ∉ n.path
  listed : ∀ path ∈ filesOf szMainPath t, ∃ n, files n ≠ none ∧ path = n.text
  found : ∀ n, files n ≠ none → n.text ∈ filesOf szMainPath t

section

variable {szMainPath : Bytes} {t : Entries} {names : Names Bytes Bytes} {files : FileName → Option Bytes}

theorem Represents.tidy (h : Represents szMainPath t names files)
    (hfree : ∀ n : FileName, files (n.withSuffix .txt) ≠ none → files (n.withSuffix .ok) = none)
    (hfits : ∀ n, files n ≠ none → n.text.length < 1021) : Tidy szMainPath t names := by
  refine ⟨fun path hpath => ?_, fun path hpath hp => ?_, fun path hpath hp => .inl ?_,
    fun path hpath hd => ?_⟩
  · obtain ⟨n, -, rfl⟩ := h.listed path hpath
    rw [text_eq_stem]
    refine List.mem_append_right _ ?_
    cases n.suffix <;> decide
  · obtain ⟨n, hn, rfl⟩ := h.listed path hpath
    have hlen := hfits n hn
    have hok : kExeNameOk.length = 7 := rfl
    have htxt : fileExName.length = 4 := rfl
    rw [okName, List.length_append, List.length_take, hok, htxt]
    omega
  · obtain ⟨n, -, rfl⟩ := h.listed path hpath
    exact (dataFile_text_iff n).mpr ((pushed_text_iff n).mp hp)
  · obtain ⟨n, hn, rfl⟩ := h.listed path hpath
    have hs := (dataFile_text_iff n).mp hd
    have hself : n.withSuffix .txt = n := by rw [FileName.withSuffix, ← hs]
    rw [okName_text hs, h.named (n.withSuffix .ok) (h.nul n hn), hfree n (by rwa [hself])]
    rfl

/-- Another name is not one of the left files, nor what one of them becomes. -/
theorem Represents.other (h : Represents szMainPath t names files) {n : FileName} (h0 : 0 ∉ n.path)
    (htxt : n.suffix = .txt → files n = none)
    (hok : n.suffix = .ok → files (n.withSuffix .txt) = none) :
    ∀ path ∈ filesOf szMainPath t, DataFile path → n.text ≠ path ∧ n.text ≠ okName path := by
  intro path hpath hd
  obtain ⟨m, hm, rfl⟩ := h.listed path hpath
  have hs := (dataFile_text_iff m).mp hd
  have hself : m.withSuffix .txt = m := by rw [FileName.withSuffix, ← hs]
  constructor
  · intro heq
    obtain rfl := text_inj h0 (h.nul m hm) heq
    exact hm (htxt hs)
  · intro heq
    rw [okName_text hs] at heq
    obtain rfl := text_inj h0 (show 0 ∉ (m.withSuffix .ok).path from h.nul m hm) heq
    have := hok rfl
    rw [show (m.withSuffix .ok).withSuffix .txt = m.withSuffix .txt from rfl, hself] at this
    exact hm this

end

/-- If no left file has a closed one of the same name, and the texts fit, then the start gets through, each
left file is there under the name under which `FileMgr` would have closed it, with what was in it, and
everything else is as it was. -/
theorem recovery_closes {szMainPath : Bytes} {t : Entries} {names : Names Bytes Bytes}
    {files : FileName → Option Bytes} (h : Represents szMainPath t names files)
    (hfree : ∀ n : FileName, files (n.withSuffix .txt) ≠ none → files (n.withSuffix .ok) = none)
    (hfits : ∀ n, files n ≠ none → n.text.length < 1021) :
    ∃ names', scanfAndRenameTmpFile szMainPath t names = some (names', false) ∧
      ∀ n, 0 ∉ n.path → names' n.text = (recovered files n).map .file := by
  obtain ⟨names', hrun, hleft, hother⟩ := (h.tidy hfree hfits).recovers h.tree
  refine ⟨names', hrun, fun n h0 => ?_⟩
  cases hs : n.suffix with
  | txt =>
    simp only [recovered, hs, Option.map_none]
    by_cases hn : files n = none
    · rw [hother n.text (h.other h0 (fun _ => hn) (by simp [hs])), h.named n h0, hn]
      rfl
    · exact (hleft n.text (h.found n hn) ((dataFile_text_iff n).mpr hs)).1
  | ok =>
    simp only [recovered, hs]
    have hself : (n.withSuffix .txt).withSuffix .ok = n := by
      rw [FileName.withSuffix, FileName.withSuffix, ← hs]
    by_cases hn : files (n.withSuffix .txt) = none
    · rw [hother n.text (h.other h0 (by simp [hs]) (fun _ => hn)), h.named n h0, hn, Option.none_or]
    · have hmoved := (hleft _ (h.found _ hn) ((dataFile_text_iff (n.withSuffix .txt)).mpr rfl)).2
      rw [okName_text (n := n.withSuffix .txt) rfl, hself] at hmoved
      rw [hmoved, h.named (n.withSuffix .txt) h0]
      obtain ⟨c, hc⟩ := Option.ne_none_iff_exists'.mp hn
      rw [hc, Option.some_or]
  | bak =>
    simp only [recovered, hs]
    rw [hother n.text (h.other h0 (by simp [hs]) (by simp [hs])), h.named n h0]

/-- `MsgFiles/2024/01/02/03/000000004.txt` -/
def leftFile : FileName := ⟨msgFilesFolderName, 20240102, 3, 4, .txt⟩

def leftTree : Entries :=
  .dir [50, 48, 50, 52] (.dir [48, 49] (.dir [48, 50] (.dir [48, 51]
    (.file [48, 48, 48, 48, 48, 48, 48, 48, 52, 46, 116, 120, 116] [1] .nil) .nil) .nil) .nil) .nil

/-- A program that was killed with one file open. -/
theorem recovery_closes_left : ∃ names' : Names Bytes Bytes,
    scanfAndRenameTmpFile [] leftTree
      (fun p => if p = leftFile.text then some (.file [1]) else none) = some (names', false) ∧
    names' leftFile.text = none ∧ names' (leftFile.withSuffix .ok).text = some (.file [1]) := by
  have hfiles : filesOf [] leftTree = [leftFile.text] := by decide
  have h : Represents [] leftTree (fun p => if p = leftFile.text then some (.file [1]) else none)
      (fun n => if n = leftFile then some [1] else none) := by
    refine ⟨by simp [leftTree, Entries.Files]; decide, fun n h0 => ?_, fun n hn => ?_,
      fun path hpath => ⟨leftFile, by simp, ?_⟩, fun n hn => ?_⟩
    · by_cases hn : n = leftFile
      · simp [hn]
      · have htext : n.text ≠ leftFile.text := fun heq => hn (text_inj h0 (by decide) heq)
        simp [hn, htext]
    · obtain rfl : n = leftFile := by simpa using hn
      decide
    · simpa [hfiles] using hpath
    · obtain rfl : n = leftFile := by simpa using hn
      simp [hfiles]
  obtain ⟨names', hrun, hnames⟩ := recovery_closes h
    (fun n _ => if_neg fun heq => by cases congrArg FileName.suffix heq)
    (fun n hn => by
      obtain rfl : n = leftFile := by simpa using hn
      decide)
  refine ⟨names', hrun, ?_, ?_⟩
  · rw [hnames leftFile (by decide)]
    rfl
  · rw [hnames (leftFile.withSuffix .ok) (by decide)]
    simp [recovered, FileName.withSuffix, leftFile]

end MsgFile
end CmakeFrame
