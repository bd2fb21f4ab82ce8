import CmakeFrame.Remain.WriteCases

/-!
# `RemainMgr`: folders and limits

`remainFile/src/RemainMgr.cpp`. A `RemainMgr` keeps one `WriteFileMgr` for each folder, created on
the first record for it, and passes new limits on to those that exist.

* `RemainMgr.writeRemainFile`, … : its functions. `userFileMgrMap_` is a list in the order of the
  keys, as `std::map` keeps it.
* `WriteFileMgr.Uses`: all writers of a folder work with the given limits. A writer keeps its own;
  a new one takes those that the folder's manager was constructed with.
* `WriteFileMgr.Creates`: `writeToFile` is about to create a writer.
-/

namespace CmakeFrame
namespace Remain

open Lib

/-- The members of `RemainMgr`, with the file-wide `userFileMgrMap_`. -/
structure RemainMgr where
  isExit_ : Bool
  isInit_ : Bool
  gateNo_ : Int32
  maxCount_ : Int32
  outSecond_ : Int32
  sharePath_ : Bytes
  localPath_ : Bytes
  userFileMgrMap_ : List (Bytes × WriteFileMgr)

/-- Puts the value of key `k` into a map, in order. -/
def putKey {α : Type} (k : Bytes) (v : α) : List (Bytes × α) → List (Bytes × α)
  | [] => [(k, v)]
  | e :: l => if k = e.1 then (k, v) :: l else if k < e.1 then (k, v) :: e :: l else e :: putKey k v l

/-- The kind of text for `bitFlag` of `writeRemainFile`, or with `bak` of `writeRemainFileBak`. -/
def flagOf (bak : Bool) (bitFlag : Int32) : Option Flag :=
  if bitFlag = 1 then some (if bak then .reBak else .re)
  else if bitFlag = 2 then some (if bak then .moBak else .mo)
  else if bitFlag = 3 then some (if bak then .mtBak else .mt)
  else none

namespace RemainMgr

variable (localtime : UInt64 → Tm)

/-- `RemainMgr()` and `remainMgrInit`; `exePath` is `locakExePath()`. -/
def init (gateNo maxCount outSeconds : Int32) (sharePath localPath exePath : Bytes) : RemainMgr :=
  ⟨false, true, gateNo, maxCount, outSeconds, sharePath, if localPath = [] then exePath else localPath,
    []⟩

/-- A new `WriteFileMgr` for a folder. -/
def newMgr (g : RemainMgr) (fragFolder : Bytes) : WriteFileMgr :=
  .new g.gateNo_ g.maxCount_ g.outSecond_ g.sharePath_ g.localPath_ fragFolder

/-- `fileMgrP`: the one in the map, or a new one. -/
def fileMgr (g : RemainMgr) (fragFolder : Bytes) : WriteFileMgr :=
  (g.userFileMgrMap_.lookup fragFolder).getD (g.newMgr fragFolder)

def put (g : RemainMgr) (fragFolder : Bytes) (m : WriteFileMgr) : RemainMgr :=
  { g with userFileMgrMap_ := putKey fragFolder m g.userFileMgrMap_ }

/-- The body of `writeRemainFile` and `writeRemainFileBak`. A manager for the folder is in the map
even after a bad flag. -/
def writeFile (bak : Bool) (badFlag : Int) (bitFlag : Int32) (fragFolder data : Bytes)
    (shareIo localIo : WriteIo) (g : RemainMgr) (d : Disk FileName) :
    Int × RemainMgr × Disk FileName :=
  if g.isInit_ = false then (-1314, g, d)
  else if g.isExit_ then (-131, g, d)
  else
    let m := g.fileMgr fragFolder
    match flagOf bak bitFlag with
    | none => (badFlag, g.put fragFolder m, d)
    | some flag =>
      let r := m.writeToFile localtime flag shareIo localIo data d
      (r.1, g.put fragFolder r.2.1, r.2.2)

def writeRemainFile (bitFlag : Int32) (fragFolder data : Bytes) (shareIo localIo : WriteIo)
    (g : RemainMgr) (d : Disk FileName) : Int × RemainMgr × Disk FileName :=
  g.writeFile localtime false (-133) bitFlag fragFolder data shareIo localIo d

def writeRemainFileBak (bitFlag : Int32) (fragFolder data : Bytes) (shareIo localIo : WriteIo)
    (g : RemainMgr) (d : Disk FileName) : Int × RemainMgr × Disk FileName :=
  g.writeFile localtime true (-136) bitFlag fragFolder data shareIo localIo d

/-- The loop of `everySecondCheck` over the map. -/
def checkAll (second : UInt64) (io : Bytes → Slot → CloseIo) :
    List (Bytes × WriteFileMgr) → Disk FileName → List (Bytes × WriteFileMgr) × Disk FileName
  | [], d => ([], d)
  | e :: l, d =>
    let r := e.2.everySecondCheck localtime second (io e.1) d
    let rs := checkAll second io l r.2
    ((e.1, r.1) :: rs.1, rs.2)

/-- `everySecondCheck(second)`; `now` is `secondSinceEpoch()`. -/
def everySecondCheck (second now : UInt64) (io : Bytes → Slot → CloseIo) (g : RemainMgr)
    (d : Disk FileName) : RemainMgr × Disk FileName :=
  if g.isExit_ then (g, d)
  else
    let r := checkAll localtime (if second = 0 then now else second) io g.userFileMgrMap_ d
    ({ g with userFileMgrMap_ := r.1 }, r.2)

/-- Passes an update on to every `WriteFileMgr`. -/
def updateAll (f : WriteFileMgr → WriteFileMgr) (g : RemainMgr) : RemainMgr :=
  if g.isExit_ then g
  else { g with userFileMgrMap_ := g.userFileMgrMap_.map fun e => (e.1, f e.2) }

def updateGenFreq (freq : Int32) (g : RemainMgr) : RemainMgr :=
  g.updateAll (WriteFileMgr.updateGenFreq freq)

def updateMaxFileSize (size : Int32) (g : RemainMgr) : RemainMgr :=
  g.updateAll (WriteFileMgr.updateMaxFileSize size)

end RemainMgr

/-! ## The map -/

section Map

variable {α : Type} {k : Bytes} {v : α}

theorem mem_putKey {l : List (Bytes × α)} {e : Bytes × α} (h : e ∈ putKey k v l) :
    e = (k, v) ∨ e ∈ l := by
  induction l with
  | nil => exact .inl (List.mem_singleton.mp h)
  | cons f l ih =>
    unfold putKey at h
    split at h
    · rcases List.mem_cons.mp h with h | h
      · exact .inl h
      · exact .inr (List.mem_cons_of_mem _ h)
    · split at h
      · exact (List.mem_cons.mp h).imp_right id
      · rcases List.mem_cons.mp h with h | h
        · exact .inr (h ▸ List.mem_cons_self)
        · exact (ih h).imp_right (List.mem_cons_of_mem _)

theorem self_mem_putKey (k : Bytes) (v : α) (l : List (Bytes × α)) : (k, v) ∈ putKey k v l := by
  induction l with
  | nil => exact List.mem_singleton_self _
  | cons f l ih =>
    unfold putKey
    split
    · exact List.mem_cons_self
    · split
      · exact List.mem_cons_self
      · exact List.mem_cons_of_mem _ ih

theorem lookup_putKey (k : Bytes) (v : α) (l : List (Bytes × α)) :
    (putKey k v l).lookup k = some v := by
  induction l with
  | nil => simp [putKey]
  | cons f l ih =>
    unfold putKey
    split
    · simp
    · rename_i hne
      split
      · simp
      · rw [List.lookup_cons, beq_eq_false_iff_ne.mpr hne]
        exact ih

theorem mem_of_lookup {l : List (Bytes × α)} (h : l.lookup k = some v) : (k, v) ∈ l := by
  induction l with
  | nil => cases h
  | cons f l ih =>
    rw [List.lookup_cons] at h
    split at h
    · rename_i hk
      cases h
      rw [eq_of_beq hk]
      exact List.mem_cons_self
    · exact List.mem_cons_of_mem _ (ih h)

end Map

/-- A text with a known flag goes to the manager of its folder. -/
theorem RemainMgr.writeFile_eq (localtime : UInt64 → Tm) {g : RemainMgr} (hinit : g.isInit_ = true)
    (hexit : g.isExit_ = false) {bak : Bool} {bitFlag : Int32} {flag : Flag}
    (hf : flagOf bak bitFlag = some flag) (badFlag : Int) (fragFolder data : Bytes)
    (shareIo localIo : WriteIo) (d : Disk FileName) :
    g.writeFile localtime bak badFlag bitFlag fragFolder data shareIo localIo d =
      let r := (g.fileMgr fragFolder).writeToFile localtime flag shareIo localIo data d
      (r.1, g.put fragFolder r.2.1, r.2.2) := by
  unfold RemainMgr.writeFile
  rw [hinit, hexit, hf]
  rfl

/-- The manager that was put for a folder is the folder's. -/
theorem RemainMgr.fileMgr_put (g : RemainMgr) (fragFolder : Bytes) (m : WriteFileMgr) :
    (g.put fragFolder m).fileMgr fragFolder = m := by
  rw [fileMgr, put, lookup_putKey, Option.getD_some]

/-! ## One folder -/

namespace WriteFileMgr

variable (localtime : UInt64 → Tm) {m : WriteFileMgr}

/-- The limits that a `WriteFileMgr` gives to the writers it creates. -/
def limits (m : WriteFileMgr) : Int32 × Int32 := (m.maxCount_, m.outSecond_)

/-- All its writers work with `l`. -/
def Uses (m : WriteFileMgr) (l : Int32 × Int32) : Prop := ∀ s w, m.file s = some w → w.limits = l

theorem limits_newWriter (m : WriteFileMgr) (s : Slot) : (m.newWriter s).limits = m.limits := by
  obtain ⟨side, flag⟩ := s
  cases side <;> rfl

/-- The slot holds the old writer or a new one, with its limits. -/
theorem limits_writeSlot (s : Slot) (io : WriteIo) (content : Bytes) (d : Disk FileName) :
    ∃ w, (m.writeSlot localtime s io content d).2.1.file s = some w ∧
      w.limits = ((m.file s).getD (m.newWriter s)).limits := by
  refine ⟨_, Function.update_self .., ?_⟩
  exact limits_writeToFile localtime s.1 io content _ d

theorem writeSlot_file_ne {s t : Slot} (h : t ≠ s) (io : WriteIo) (content : Bytes)
    (d : Disk FileName) : (m.writeSlot localtime s io content d).2.1.file t = m.file t :=
  Function.update_of_ne h _ _

theorem Uses.writeSlot {l : Int32 × Int32} (h : m.Uses l) {s : Slot}
    (hs : m.file s = none → m.limits = l) (io : WriteIo) (content : Bytes) (d : Disk FileName) :
    (m.writeSlot localtime s io content d).2.1.Uses l := by
  intro t w hw
  by_cases hts : t = s
  · subst hts
    obtain ⟨v, hv, hl⟩ := limits_writeSlot localtime (m := m) t io content d
    rw [hv] at hw
    cases hw
    rw [hl]
    cases ht : m.file t with
    | none => exact (limits_newWriter m t).trans (hs ht)
    | some u => exact h t u ht
  · rw [writeSlot_file_ne localtime hts] at hw
    exact h t w hw

variable (m) in
/-- `writeToFile` is about to create a writer: the one on the share, or after a failure there the
one on the local disk. -/
def Creates (flag : Flag) (shareIo : WriteIo) (content : Bytes) (d : Disk FileName) : Prop :=
  m.file (.share, flag) = none ∨
    (m.file (.loc, flag) = none ∧ (m.writeSlot localtime (.share, flag) shareIo content d).1 < 0)

theorem loc_ne_share (flag : Flag) : ((.loc, flag) : Slot) ≠ (.share, flag) := by simp

theorem Uses.writeToFile {l : Int32 × Int32} (h : m.Uses l) {flag : Flag} {shareIo : WriteIo}
    {content : Bytes} {d : Disk FileName}
    (hc : m.Creates localtime flag shareIo content d → m.limits = l) (localIo : WriteIo) :
    (m.writeToFile localtime flag shareIo localIo content d).2.1.Uses l := by
  have h₁ := h.writeSlot localtime (fun hs => hc (.inl hs)) shareIo content d
  unfold WriteFileMgr.writeToFile
  simp only
  split
  · rename_i hneg
    refine h₁.writeSlot localtime (fun hs => ?_) localIo content _
    rw [writeSlot_file_ne localtime (loc_ne_share flag)] at hs
    exact hc (.inr ⟨hs, hneg⟩)
  · exact h₁

/-- The writer that `writeToFile` creates has the manager's limits. -/
theorem limits_of_creates {flag : Flag} {shareIo : WriteIo} {content : Bytes} {d : Disk FileName}
    (hc : m.Creates localtime flag shareIo content d) (localIo : WriteIo) :
    ∃ s w, (m.writeToFile localtime flag shareIo localIo content d).2.1.file s = some w ∧
      w.limits = m.limits := by
  unfold WriteFileMgr.writeToFile
  simp only
  rcases hc with hs | ⟨hl, hneg⟩
  · obtain ⟨w, hw, hwl⟩ := limits_writeSlot localtime (m := m) (.share, flag) shareIo content d
    rw [hs, Option.getD_none, limits_newWriter] at hwl
    refine ⟨(.share, flag), w, ?_, hwl⟩
    split
    · rw [writeSlot_file_ne localtime (loc_ne_share flag).symm]
      exact hw
    · exact hw
  · rw [if_pos hneg]
    obtain ⟨w, hw, hwl⟩ := limits_writeSlot localtime
      (m := (m.writeSlot localtime (.share, flag) shareIo content d).2.1) (.loc, flag) localIo content
      (m.writeSlot localtime (.share, flag) shareIo content d).2.2
    rw [writeSlot_file_ne localtime (loc_ne_share flag), hl, Option.getD_none,
      limits_newWriter] at hwl
    exact ⟨_, w, hw, hwl⟩

/-- What a manager is given at construction stays. -/
theorem writeToFile_given (flag : Flag) (shareIo localIo : WriteIo) (content : Bytes)
    (d : Disk FileName) :
    (m.writeToFile localtime flag shareIo localIo content d).2.1.limits = m.limits ∧
      (m.writeToFile localtime flag shareIo localIo content d).2.1.fragFolder_ = m.fragFolder_ := by
  unfold WriteFileMgr.writeToFile
  simp only
  split
  · exact ⟨rfl, rfl⟩
  · exact ⟨rfl, rfl⟩

theorem everySecondCheck_given (second : UInt64) (io : Slot → CloseIo) (d : Disk FileName) :
    let m' := (m.everySecondCheck localtime second io d).1
    m'.limits = m.limits ∧ m'.fragFolder_ = m.fragFolder_ := by
  refine forEach_inv (P := fun m' _ => m'.limits = m.limits ∧ m'.fragFolder_ = m.fragFolder_)
    (fun m' d s w h hw => ?_) ⟨rfl, rfl⟩
  exact h

/-- `everySecondCheck` changes files, not limits. -/
theorem Uses.everySecondCheck {l : Int32 × Int32} (h : m.Uses l) (second : UInt64)
    (io : Slot → CloseIo) (d : Disk FileName) :
    (m.everySecondCheck localtime second io d).1.Uses l := by
  refine forEach_inv (P := fun m' _ => m'.Uses l) (fun m' d s w h hw => ?_) h
  intro t v hv
  by_cases hts : t = s
  · subst hts
    simp only [WriteFileMgr.set, Function.update_self, Option.some.injEq] at hv
    rw [← hv]
    have hl := limits_closeCurFile localtime t.1 (io t) w d
    simp only [Writer.everySecondCheck]
    split
    · exact h t w hw
    · split
      · exact hl.trans (h t w hw)
      · exact h t w hw
  · simp only [WriteFileMgr.set, Function.update_of_ne hts] at hv
    exact h t v hv

end WriteFileMgr

end Remain
end CmakeFrame
