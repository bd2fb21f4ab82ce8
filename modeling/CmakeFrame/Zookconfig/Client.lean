import CmakeFrame.Zookconfig.Cache
import CmakeFrame.Zookconfig.ServerList

/-!
# The loads of one client, called again

`zookLoadAllConfig` and `getTcpServerListInfo` record the path that they are asked for, and then load.
The threads of zookeeper do nothing in between here.

* `ZookConfig`: the client. `Situation`: the handle, and what zookeeper answers.
* `loadAllKeyValue`, `zookLoadAllConfig`, `getTcpServerListInfo`: `none` is a write behind a buffer.
* `Situation.Answers`: nothing fails. `repeat_load_iff`: when a call that has failed can be repeated.
* `repeated_load_refused`: a connection that is lost.
-/

namespace CmakeFrame
namespace Zookconfig

open Lib

def ZOOK_CONFIG_NO_INIT : Int := -10003
def ZOOK_SERVER_INFO_ALREADY_INIT : Int := -10005

/-- What the loads read and write of the client, but for the handle. -/
structure ZookConfig where
  configRootPath : Bytes
  serverPathVector : List Bytes
  configMap : Bytes → Option Bytes

/-- The constructor. -/
def ZookConfig.new : ZookConfig := ⟨[], [], fun _ => none⟩

/-- Whether there is a handle, how often a call is tried, and what zookeeper answers. -/
structure Situation where
  zkHandle : Bool
  colonyNum : Nat
  service : Service

/-- `configMap.insert`: nothing happens if the key is there. -/
def insertConfig (m : Bytes → Option Bytes) (key value : Bytes) : Bytes → Option Bytes :=
  fun k => match m k with
    | some old => some old
    | none => if k = key then some value else none

/-- The loop over the keys, with the map and the code at its end. -/
def loadKeys (colonyNum : Nat) (rootPath : Bytes) :
    List Child → (Bytes → Option Bytes) → Option ((Bytes → Option Bytes) × Int)
  | [], m => some (m, 0)
  | c :: rest, m =>
    if ¬ PathFits (loadPath rootPath c.name) then none
    else match retry colonyNum c.replies with
      | .error code => some (m, code)
      | .loss => some (m, ZCONNECTIONLOSS)
      | .ok value =>
        if ¬ ValueFits value then none
        else loadKeys colonyNum rootPath rest (insertConfig m c.name (cfgString value))

def loadAllKeyValue (w : Situation) (rootPath : Bytes) (m : Bytes → Option Bytes) :
    Option ((Bytes → Option Bytes) × Int) :=
  if zookeeperPathCheck rootPath ≤ 0 then some (m, zookeeperPathCheck rootPath)
  else if ¬ w.zkHandle then some (m, ZOOK_CONFIG_NO_INIT)
  else match retry w.colonyNum w.service.getChildren with
    | .error code => some (m, code)
    | .loss => some (m, ZCONNECTIONLOSS)
    | .ok () => loadKeys w.colonyNum rootPath w.service.children m

/-- What a call of `getTcpServerListInfo` leaves behind. `serverType` is what it is set to. -/
structure ServerCall where
  client : ZookConfig
  ret : Int
  infoList : List TcpServerInfo
  serverType : Option Bytes

namespace ZookConfig

variable (s : ZookConfig)

def zookLoadAllConfig (w : Situation) (configPath : Bytes) : Option (ZookConfig × Int) :=
  if configPath = [] then some (s, ZOOK_CONFIG_PARAMETER_ERROR)
  else if s.configRootPath ≠ [] then some (s, ZOOK_CONFIG_ALREADY_INIT)
  else (loadAllKeyValue w configPath s.configMap).map fun r =>
    ({ s with configRootPath := configPath, configMap := r.1 }, r.2)

/-- `infoList` is what the caller's list holds before. -/
def getTcpServerListInfo (w : Situation) (serverPath : Bytes) (infoList : List TcpServerInfo) :
    Option ServerCall :=
  if serverPath = [] then some ⟨s, ZOOK_CONFIG_PARAMETER_ERROR, infoList, none⟩
  else if zookeeperPathCheck serverPath ≤ 1 then
    some ⟨s, ZOOK_CONFIG_PARAMETER_ERROR, infoList, none⟩
  else if ¬ w.zkHandle then some ⟨s, ZOOK_CONFIG_NO_INIT, infoList, none⟩
  else if s.serverPathVector.contains serverPath then
    some ⟨s, ZOOK_SERVER_INFO_ALREADY_INIT, infoList, none⟩
  else
    -- the text from the last slash on, the slash included
    let serverType := (utilLastConstchar serverPath 47).map (47 :: ·)
    (LoadTcpServerListInfo w.colonyNum serverPath w.service).map fun r =>
      ⟨{ s with serverPathVector := s.serverPathVector ++ [serverPath] }, r.ret, r.infoList,
        serverType⟩

end ZookConfig

/-! ## Again -/

/-- There is a handle, and every call of zookeeper gets through. -/
structure Situation.Answers (w : Situation) : Prop where
  zkHandle : w.zkHandle = true
  children : retry w.colonyNum w.service.getChildren = .ok ()
  values : ∀ c ∈ w.service.children, ∃ value, retry w.colonyNum c.replies = .ok value

/-- A call of `zookLoadAllConfig` for `s`, repeated for `s'`, gives the same code and map. -/
def SameLoad (s s' : ZookConfig) (configPath : Bytes) : Prop :=
  ∀ w : Situation, w.Answers → ∀ r, s.zookLoadAllConfig w configPath = some r →
    ∃ r', s'.zookLoadAllConfig w configPath = some r' ∧ r'.2 = r.2 ∧ r'.1.configMap = r.1.configMap

/-- A call of `getTcpServerListInfo` for `s`, repeated for `s'`, gives the same code and list. -/
def SameList (s s' : ZookConfig) (serverPath : Bytes) (infoList infoList' : List TcpServerInfo) :
    Prop :=
  ∀ w : Situation, w.Answers → ∀ r, s.getTcpServerListInfo w serverPath infoList = some r →
    ∃ r', s'.getTcpServerListInfo w serverPath infoList' = some r' ∧ r'.ret = r.ret ∧
      r'.infoList = r.infoList

/-- Zookeeper answers that there are no children. -/
def noChildren : Situation := ⟨true, 0, ⟨[], fun _ => .ok ()⟩⟩

theorem noChildren_answers : noChildren.Answers := ⟨rfl, rfl, by simp [noChildren]⟩

section

variable {s s' : ZookConfig} {w : Situation} {path : Bytes} {ret : Int}

theorem loadAllKeyValue_noChildren (path : Bytes) (m : Bytes → Option Bytes) :
    ∃ ret, loadAllKeyValue noChildren path m = some (m, ret) ∧ ret ≠ ZOOK_CONFIG_ALREADY_INIT := by
  by_cases hcheck : zookeeperPathCheck path ≤ 0
  · refine ⟨zookeeperPathCheck path, by rw [loadAllKeyValue, if_pos hcheck], ?_⟩
    rw [zookeeperPathCheck_le_zero hcheck]
    decide
  · exact ⟨0, by rw [loadAllKeyValue, if_neg hcheck]; rfl, by decide⟩

/-- The load can be repeated if the path was not recorded. -/
theorem sameLoad_iff (h : s.zookLoadAllConfig w path = some (s', ret)) :
    SameLoad s s' path ↔ path = [] ∨ s.configRootPath ≠ [] := by
  unfold ZookConfig.zookLoadAllConfig at h
  constructor
  · intro hsame
    by_contra hnot
    obtain ⟨hpath, hroot⟩ := not_or.mp hnot
    rw [if_neg hpath, if_neg hroot] at h
    obtain ⟨r, -, heq⟩ := Option.map_eq_some_iff.mp h
    cases heq
    obtain ⟨ret', hload, hret'⟩ := loadAllKeyValue_noChildren path s.configMap
    obtain ⟨r', hr', hcode, -⟩ := hsame noChildren noChildren_answers
      ({ s with configRootPath := path }, ret')
      (by rw [ZookConfig.zookLoadAllConfig, if_neg hpath, if_neg hroot, hload]; rfl)
    rw [ZookConfig.zookLoadAllConfig, if_neg hpath, if_pos hpath] at hr'
    cases hr'
    exact hret' hcode.symm
  · intro hcond
    have hs : s' = s := by
      by_cases hpath : path = []
      · rw [if_pos hpath] at h
        cases h
        rfl
      · rw [if_neg hpath, if_pos (hcond.resolve_left hpath)] at h
        cases h
        rfl
    subst hs
    exact fun w' _ r hr => ⟨r, hr, rfl, rfl⟩

/-- The list can be asked for again if the path was not recorded. -/
theorem sameList_iff {infoList : List TcpServerInfo} {r : ServerCall}
    (h : s.getTcpServerListInfo w path infoList = some r) :
    SameList s r.client path infoList r.infoList ↔
      zookeeperPathCheck path ≤ 1 ∨ w.zkHandle = false ∨ path ∈ s.serverPathVector := by
  by_cases hcond : zookeeperPathCheck path ≤ 1 ∨ w.zkHandle = false ∨ path ∈ s.serverPathVector
  · -- nothing was recorded, and the list of the caller was not touched
    have hr : r.client = s ∧ r.infoList = infoList := by
      unfold ZookConfig.getTcpServerListInfo at h
      split at h
      · cases h
        exact ⟨rfl, rfl⟩
      · split at h
        · cases h
          exact ⟨rfl, rfl⟩
        · rename_i hcheck
          split at h
          · cases h
            exact ⟨rfl, rfl⟩
          · rename_i hhandle
            have hmem := (hcond.resolve_left hcheck).resolve_left (by simpa using hhandle)
            rw [if_pos (List.contains_iff_mem.mpr hmem)] at h
            cases h
            exact ⟨rfl, rfl⟩
    rw [hr.1, hr.2]
    exact iff_of_true (fun w' _ r hr => ⟨r, hr, rfl, rfl⟩) hcond
  · refine iff_of_false (fun hsame => ?_) hcond
    obtain ⟨hcheck, hcond⟩ := not_or.mp hcond
    obtain ⟨hhandle, hnew⟩ := not_or.mp hcond
    have hmem := List.contains_iff_mem.not.mpr hnew
    have hne : path ≠ [] := by
      rintro rfl
      exact hcheck (by decide)
    have hhandle : w.zkHandle = true := by simpa using hhandle
    rw [ZookConfig.getTcpServerListInfo, if_neg hne, if_neg hcheck, if_neg (by simp [hhandle]),
      if_neg hmem] at h
    obtain ⟨load, -, rfl⟩ := Option.map_eq_some_iff.mp h
    obtain ⟨r', hr', hcode, -⟩ := hsame noChildren noChildren_answers _
      (by rw [ZookConfig.getTcpServerListInfo, if_neg hne, if_neg hcheck, if_neg (by simp [noChildren]),
        if_neg hmem]; rfl)
    rw [ZookConfig.getTcpServerListInfo, if_neg hne, if_neg hcheck, if_neg (by simp [noChildren]),
      if_pos (by simp)] at hr'
    cases hr'
    have hcode : ZOOK_SERVER_INFO_ALREADY_INIT = 0 := hcode
    exact absurd hcode (by decide)

end

/-- **When a failed load can be repeated.** For the configuration: no path was given, or another one is
loaded already. For a list of servers: the path is refused, there was no handle, or the path is
registered already. In all other cases the repeated call finds its own path recorded. -/
theorem repeat_load_iff (s : ZookConfig) (w : Situation) (path : Bytes) :
    (∀ s' ret, s.zookLoadAllConfig w path = some (s', ret) → ret < 0 →
      (SameLoad s s' path ↔ path = [] ∨ s.configRootPath ≠ [])) ∧
    ∀ infoList r, s.getTcpServerListInfo w path infoList = some r → r.ret < 0 →
      (SameList s r.client path infoList r.infoList ↔
        zookeeperPathCheck path ≤ 1 ∨ w.zkHandle = false ∨ path ∈ s.serverPathVector) :=
  ⟨fun _ _ h _ => sameLoad_iff h, fun _ _ h _ => sameList_iff h⟩

/-- Every call of zookeeper is lost. -/
def lostConnection : Situation := ⟨true, 1, ⟨[], fun _ => .loss⟩⟩

/-- Without a handle the list can be asked for again. -/
theorem repeat_load_no_handle :
    SameList .new .new [47, 97] [] [] :=
  ((repeat_load_iff .new ⟨false, 0, ⟨[], fun _ => .loss⟩⟩ [47, 97]).2 []
    ⟨.new, ZOOK_CONFIG_NO_INIT, [], none⟩ rfl (by decide)).mpr (.inr (.inl rfl))

/-- The connection is lost in the first call: the second one finds the path recorded. -/
theorem repeated_load_refused :
    (¬ ∀ s w path s' ret, ZookConfig.zookLoadAllConfig s w path = some (s', ret) → ret < 0 →
      SameLoad s s' path) ∧
    ¬ ∀ s w path infoList r, ZookConfig.getTcpServerListInfo s w path infoList = some r → r.ret < 0 →
      SameList s r.client path infoList r.infoList := by
  constructor
  · intro h
    have hsame := h .new lostConnection [47, 97] ⟨[47, 97], [], fun _ => none⟩ ZCONNECTIONLOSS rfl
      (by decide)
    obtain ⟨r, hr, hcode, -⟩ := hsame noChildren noChildren_answers _ rfl
    cases hr
    exact absurd hcode (by decide)
  · intro h
    have hsame := h .new lostConnection [47, 97] [] _ rfl (by decide)
    obtain ⟨r, hr, hcode, -⟩ := hsame noChildren noChildren_answers _ rfl
    cases hr
    exact absurd hcode (by decide)

end Zookconfig
end CmakeFrame
