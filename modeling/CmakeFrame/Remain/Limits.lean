import CmakeFrame.Remain.RemainMgr

/-!
# Which limits the writers work with

Runs of a `RemainMgr` with records of any kind for any folder, and updates of the limits.

* `Uses`: every writer works with the limits in force, those of the latest update, or else those of
  `remainMgrInit`.
* `Creates`: a call is about to create a writer. The new one works with the limits of
  `remainMgrInit`: neither `RemainMgr` nor `WriteFileMgr` takes an update down for itself.
* `uses_iff`: a run keeps `Uses` exactly if it creates writers only while the limits in force are
  those of `remainMgrInit`.
-/

namespace CmakeFrame
namespace Remain
namespace Limits

open Lib

/-! ## Runs -/

/-- A call on the `RemainMgr`; with `bak`, `writeRemainFileBak`. -/
inductive Op where
  | write (bak : Bool) (bitFlag : Int32) (fragFolder data : Bytes) (shareIo localIo : WriteIo)
  | updateMaxFileSize (size : Int32)
  | updateGenFreq (freq : Int32)
  | everySecondCheck (second now : UInt64) (io : Bytes → Slot → CloseIo)

/-- The manager, the disk, and the limits in force. -/
structure St where
  g : RemainMgr
  d : Disk FileName
  inForce : Int32 × Int32

variable (localtime : UInt64 → Tm)

def step (s : St) : Op → St
  | .write bak bitFlag fragFolder data shareIo localIo =>
    let r :=
      if bak then s.g.writeRemainFileBak localtime bitFlag fragFolder data shareIo localIo s.d
      else s.g.writeRemainFile localtime bitFlag fragFolder data shareIo localIo s.d
    { s with g := r.2.1, d := r.2.2 }
  | .updateMaxFileSize size =>
    { s with g := s.g.updateMaxFileSize size, inForce := (clampMaxFileSize size, s.inForce.2) }
  | .updateGenFreq freq =>
    { s with g := s.g.updateGenFreq freq, inForce := (s.inForce.1, clampGenFreq freq) }
  | .everySecondCheck second now io =>
    let r := s.g.everySecondCheck localtime second now io s.d
    { s with g := r.1, d := r.2 }

def run (s : St) (ops : List Op) : St := ops.foldl (step localtime) s

/-- After `remainMgrInit`. -/
def start (gateNo maxCount outSeconds : Int32) (sharePath localPath exePath : Bytes) : St :=
  ⟨.init gateNo maxCount outSeconds sharePath localPath exePath, .empty, (maxCount, outSeconds)⟩

/-- Every writer of every folder works with the limits in force. -/
def Uses (s : St) : Prop := ∀ e ∈ s.g.userFileMgrMap_, e.2.Uses s.inForce

/-- A call is about to create a writer. -/
def Creates (s : St) : Op → Prop
  | .write bak bitFlag fragFolder data shareIo _ => ∃ flag, flagOf bak bitFlag = some flag ∧
      (s.g.fileMgr fragFolder).Creates localtime flag shareIo data s.d
  | _ => False

/-- The limits in force are those that `remainMgrInit` was given. -/
def AtInit (s : St) : Prop := s.inForce = (s.g.maxCount_, s.g.outSecond_)

/-! ## One call -/

/-- What holds of the manager in every run: it is in use, and each folder's manager was given the
limits of `remainMgrInit` and its folder. -/
structure Inv (g : RemainMgr) : Prop where
  isInit : g.isInit_ = true
  isExit : g.isExit_ = false
  given : ∀ e ∈ g.userFileMgrMap_, e.2.limits = (g.maxCount_, g.outSecond_) ∧ e.2.fragFolder_ = e.1

variable {localtime}

/-- The manager that a record goes to, old or new. -/
theorem Inv.fileMgr {g : RemainMgr} (h : Inv g) (f : Bytes) :
    (g.fileMgr f).limits = (g.maxCount_, g.outSecond_) ∧ (g.fileMgr f).fragFolder_ = f := by
  unfold RemainMgr.fileMgr
  cases hl : g.userFileMgrMap_.lookup f with
  | none => exact ⟨rfl, rfl⟩
  | some m => exact h.given _ (mem_of_lookup hl)

theorem fileMgr_uses {s : St} (h : Uses s) (f : Bytes) : (s.g.fileMgr f).Uses s.inForce := by
  unfold RemainMgr.fileMgr
  cases hl : s.g.userFileMgrMap_.lookup f with
  | none => exact fun _ _ hw => (nomatch hw)
  | some m => exact h _ (mem_of_lookup hl)

theorem Inv.put {g : RemainMgr} (h : Inv g) {f : Bytes} {m : WriteFileMgr}
    (hm : m.limits = (g.maxCount_, g.outSecond_) ∧ m.fragFolder_ = f) : Inv (g.put f m) := by
  refine ⟨h.isInit, h.isExit, fun e he => ?_⟩
  rcases mem_putKey he with rfl | he
  · exact hm
  · exact h.given e he

variable (localtime) in
/-- What a record does to the manager. -/
theorem write_cases {s : St} (h : Inv s.g) (bak : Bool) (bitFlag : Int32) (f data : Bytes)
    (shareIo localIo : WriteIo) :
    (flagOf bak bitFlag = none ∧
      (step localtime s (.write bak bitFlag f data shareIo localIo)).g = s.g.put f (s.g.fileMgr f)) ∨
    (∃ flag, flagOf bak bitFlag = some flag ∧
      (step localtime s (.write bak bitFlag f data shareIo localIo)).g = s.g.put f
        ((s.g.fileMgr f).writeToFile localtime flag shareIo localIo data s.d).2.1) := by
  have hw : ∀ e : Int, (s.g.writeFile localtime bak e bitFlag f data shareIo localIo s.d).2.1 =
      s.g.put f ((flagOf bak bitFlag).elim (s.g.fileMgr f) fun flag =>
        ((s.g.fileMgr f).writeToFile localtime flag shareIo localIo data s.d).2.1) := by
    intro e
    unfold RemainMgr.writeFile
    rw [h.isInit, h.isExit]
    simp only
    cases flagOf bak bitFlag <;> rfl
  have hs : (step localtime s (.write bak bitFlag f data shareIo localIo)).g =
      s.g.put f ((flagOf bak bitFlag).elim (s.g.fileMgr f) fun flag =>
        ((s.g.fileMgr f).writeToFile localtime flag shareIo localIo data s.d).2.1) := by
    cases bak
    · exact hw (-133)
    · exact hw (-136)
  cases hf : flagOf bak bitFlag with
  | none => exact .inl ⟨rfl, by rw [hs, hf]; rfl⟩
  | some flag => exact .inr ⟨flag, rfl, by rw [hs, hf]; rfl⟩

/-- The folders after `everySecondCheck` are the ones before, each after its own. -/
theorem mem_checkAll {second : UInt64} {io : Bytes → Slot → CloseIo}
    {es : List (Bytes × WriteFileMgr)} {d : Disk FileName} {e' : Bytes × WriteFileMgr}
    (h : e' ∈ (RemainMgr.checkAll localtime second io es d).1) :
    ∃ e ∈ es, ∃ d', e' = (e.1, (e.2.everySecondCheck localtime second (io e.1) d').1) := by
  induction es generalizing d with
  | nil => cases h
  | cons e es ih =>
    rw [RemainMgr.checkAll] at h
    rcases List.mem_cons.mp h with rfl | h
    · exact ⟨e, by simp, d, rfl⟩
    · obtain ⟨e₀, he₀, d', rfl⟩ := ih h
      exact ⟨e₀, by simp [he₀], d', rfl⟩

theorem everySecondCheck_map {g : RemainMgr} (h : g.isExit_ = false) (second now : UInt64)
    (io : Bytes → Slot → CloseIo) (d : Disk FileName) :
    (g.everySecondCheck localtime second now io d).1 = { g with
      userFileMgrMap_ := (RemainMgr.checkAll localtime (if second = 0 then now else second) io
        g.userFileMgrMap_ d).1 } := by
  rw [RemainMgr.everySecondCheck, h]
  rfl

theorem updateAll_map {g : RemainMgr} (h : g.isExit_ = false) (f : WriteFileMgr → WriteFileMgr) :
    g.updateAll f = { g with userFileMgrMap_ := g.userFileMgrMap_.map fun e => (e.1, f e.2) } := by
  rw [RemainMgr.updateAll, h]
  rfl

/-- An update leaves alone what the managers were given. -/
theorem Inv.updateAll {g : RemainMgr} (h : Inv g) {f : WriteFileMgr → WriteFileMgr}
    (hf : ∀ m, (f m).limits = m.limits ∧ (f m).fragFolder_ = m.fragFolder_) : Inv (g.updateAll f) := by
  rw [updateAll_map h.isExit]
  refine ⟨h.isInit, h.isExit, fun e he => ?_⟩
  obtain ⟨e₀, he₀, rfl⟩ := List.mem_map.mp he
  obtain ⟨h1, h2⟩ := h.given e₀ he₀
  exact ⟨(hf _).1.trans h1, (hf _).2.trans h2⟩

theorem step_inv {s : St} (h : Inv s.g) (op : Op) : Inv (step localtime s op).g := by
  cases op with
  | write bak bitFlag f data shareIo localIo =>
    have hm := h.fileMgr f
    rcases write_cases localtime h bak bitFlag f data shareIo localIo with
      ⟨-, hs⟩ | ⟨flag, -, hs⟩
    · rw [hs]
      exact h.put hm
    · rw [hs]
      obtain ⟨h1, h2⟩ := WriteFileMgr.writeToFile_given localtime (m := s.g.fileMgr f) flag shareIo
        localIo data s.d
      exact h.put ⟨h1.trans hm.1, h2.trans hm.2⟩
  | updateMaxFileSize size => exact h.updateAll fun _ => ⟨rfl, rfl⟩
  | updateGenFreq freq => exact h.updateAll fun _ => ⟨rfl, rfl⟩
  | everySecondCheck second now io =>
    show Inv (s.g.everySecondCheck localtime second now io s.d).1
    rw [everySecondCheck_map h.isExit]
    refine ⟨h.isInit, h.isExit, fun e he => ?_⟩
    obtain ⟨e₀, he₀, d', rfl⟩ := mem_checkAll he
    obtain ⟨h1, h2⟩ := h.given e₀ he₀
    obtain ⟨g1, g2⟩ := WriteFileMgr.everySecondCheck_given localtime (m := e₀.2)
      (if second = 0 then now else second) (io e₀.1) d'
    exact ⟨g1.trans h1, g2.trans h2⟩

/-- An update reaches every writer that exists. -/
theorem updateAll_uses {g : RemainMgr} (hx : g.isExit_ = false) {u : Writer → Writer}
    {f : WriteFileMgr → WriteFileMgr} (hf : ∀ m s, (f m).file s = (m.file s).map u)
    {l l' : Int32 × Int32} (hu : ∀ w : Writer, w.limits = l → (u w).limits = l')
    (h : ∀ e ∈ g.userFileMgrMap_, e.2.Uses l) :
    ∀ e ∈ (g.updateAll f).userFileMgrMap_, e.2.Uses l' := by
  rw [updateAll_map hx]
  intro e he s w hw
  obtain ⟨e₀, he₀, rfl⟩ := List.mem_map.mp he
  rw [hf] at hw
  obtain ⟨v, hv, rfl⟩ := Option.map_eq_some_iff.mp hw
  exact hu v (h e₀ he₀ s v hv)

/-- A call that creates no writer, or creates one while the limits are the initial ones. -/
theorem step_uses {s : St} (hi : Inv s.g) (h : Uses s) {op : Op}
    (hc : Creates localtime s op → AtInit s) : Uses (step localtime s op) := by
  cases op with
  | write bak bitFlag f data shareIo localIo =>
    have hm := fileMgr_uses h f
    have hput : ∀ m : WriteFileMgr, m.Uses s.inForce →
        ∀ e ∈ (s.g.put f m).userFileMgrMap_, e.2.Uses s.inForce := by
      intro m hu e he
      rcases mem_putKey he with rfl | he
      · exact hu
      · exact h e he
    rcases write_cases localtime hi bak bitFlag f data shareIo localIo with
      ⟨-, hs⟩ | ⟨flag, hflag, hs⟩
    · rw [Uses, hs]
      exact hput _ hm
    · rw [Uses, hs]
      refine hput _ (hm.writeToFile localtime (fun hcr => ?_) localIo)
      exact (hi.fileMgr f).1.trans (hc ⟨flag, hflag, hcr⟩).symm
  | updateMaxFileSize size =>
    refine updateAll_uses hi.isExit (fun _ _ => rfl) (fun w hw => ?_) h
    exact Prod.ext rfl (show w.outSecond_ = s.inForce.2 from congrArg Prod.snd hw)
  | updateGenFreq freq =>
    refine updateAll_uses hi.isExit (fun _ _ => rfl) (fun w hw => ?_) h
    exact Prod.ext (show w.maxCount_ = s.inForce.1 from congrArg Prod.fst hw) rfl
  | everySecondCheck second now io =>
    show ∀ e ∈ (s.g.everySecondCheck localtime second now io s.d).1.userFileMgrMap_, _
    rw [everySecondCheck_map hi.isExit]
    intro e he
    obtain ⟨e₀, he₀, d', rfl⟩ := mem_checkAll he
    exact (h e₀ he₀).everySecondCheck localtime _ _ _

/-- A call that creates a writer gives it the initial limits. -/
theorem atInit_of_step {s : St} (hi : Inv s.g) {op : Op} (hc : Creates localtime s op)
    (h : Uses (step localtime s op)) : AtInit s := by
  cases op with
  | write bak bitFlag f data shareIo localIo =>
    obtain ⟨flag, hflag, hcr⟩ := hc
    rcases write_cases localtime hi bak bitFlag f data shareIo localIo with
      ⟨hn, -⟩ | ⟨flag', hflag', hs⟩
    · rw [hflag] at hn
      cases hn
    · rw [hflag] at hflag'
      cases hflag'
      obtain ⟨t, w, hw, hl⟩ := WriteFileMgr.limits_of_creates localtime hcr localIo
      rw [Uses, hs] at h
      exact (h _ (self_mem_putKey ..) t w hw).symm.trans (hl.trans (hi.fileMgr f).1)
  | updateMaxFileSize size => cases hc
  | updateGenFreq freq => cases hc
  | everySecondCheck second now io => cases hc

/-! ## Whole runs -/

theorem run_inv {s : St} (h : Inv s.g) (ops : List Op) : Inv (run localtime s ops).g := by
  induction ops generalizing s with
  | nil => exact h
  | cons op ops ih => exact ih (step_inv h op)

theorem run_take_succ {s : St} {ops : List Op} {n : Nat} {op : Op} (h : ops[n]? = some op) :
    run localtime s (ops.take (n + 1)) = step localtime (run localtime s (ops.take n)) op := by
  rw [List.take_add_one, h, run, List.foldl_append]
  rfl

theorem start_inv (gateNo maxCount outSeconds : Int32) (sharePath localPath exePath : Bytes) :
    Inv (start gateNo maxCount outSeconds sharePath localPath exePath).g :=
  ⟨rfl, rfl, fun _ he => (nomatch he)⟩

variable (localtime) in
/-- In every run after `remainMgrInit`: all writers work with the limits in force, in every state
reached, exactly if each call that creates a writer is made while the limits in force are those of
`remainMgrInit`. -/
theorem uses_iff (gateNo maxCount outSeconds : Int32) (sharePath localPath exePath : Bytes)
    (ops : List Op) :
    let s := start gateNo maxCount outSeconds sharePath localPath exePath
    (∀ n, Uses (run localtime s (ops.take n))) ↔
      ∀ n op, ops[n]? = some op → Creates localtime (run localtime s (ops.take n)) op →
        AtInit (run localtime s (ops.take n)) := by
  intro s
  have hi : ∀ n, Inv (run localtime s (ops.take n)).g := fun n =>
    run_inv (start_inv gateNo maxCount outSeconds sharePath localPath exePath) _
  constructor
  · intro h n op hop hc
    refine atInit_of_step (hi n) hc ?_
    rw [← run_take_succ hop]
    exact h (n + 1)
  · intro h n
    induction n with
    | zero => exact fun _ he => (nomatch he)
    | succ n ih =>
      cases hop : ops[n]? with
      | none =>
        have : ops.take (n + 1) = ops.take n := by rw [List.take_add_one, hop]; simp
        rw [this]
        exact ih
      | some op =>
        rw [run_take_succ hop]
        exact step_uses (hi n) ih (h n op hop)

/-- The first record of a kind after an update. -/
def lateRecord : List Op :=
  let switch : SwitchIo := ⟨⟨true, true, true, true⟩, true, 10, 0, true⟩
  let io : WriteIo := ⟨switch, true, 100, 0, 0, true, switch⟩
  [.updateMaxFileSize 5, .write false 3 [97] [98, 13, 10] io io]

/-- After `lateRecord` the limit in force is 5, and the writer works with the initial 50. -/
theorem lateRecord_not_uses :
    let s := run (fun _ => ⟨1, 1, 0, 0, 0⟩) (start 7 50 60 [115] [108] []) lateRecord
    s.inForce = (5, 60) ∧
    (s.g.userFileMgrMap_.map fun e => (e.2.file (.share, .mt)).map Writer.limits) =
      [some (50, 60)] ∧
    ¬ Uses s := by
  intro s
  have hmap : (s.g.userFileMgrMap_.map fun e => (e.2.file (.share, .mt)).map Writer.limits) =
      [some (50, 60)] := by decide +kernel
  refine ⟨by decide +kernel, hmap, fun h => ?_⟩
  have hmem := List.mem_singleton_self (some ((50, 60) : Int32 × Int32))
  rw [← hmap] at hmem
  obtain ⟨e, he, hl⟩ := List.mem_map.mp hmem
  obtain ⟨w, hw, hwl⟩ := Option.map_eq_some_iff.mp hl
  have := (h e he _ w hw).symm.trans hwl
  revert this
  decide +kernel

end Limits
end Remain
end CmakeFrame
