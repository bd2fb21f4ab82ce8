import CmakeFrame.Zookconfig.Client

/-!
# `watcher`: which callback an event reaches

`watcher` compares the path of an event with `strncmp` against each registered path, and takes the
text behind the root path and one more byte as the key. Both callbacks of a service path cut the type
name out of the path, `getTcpServerListInfo` from the last slash on, `serverInfoChangeCallBack` behind
it.

* `watcher`: the calls that an event makes; `none` is a read behind the path.
* `IsKey`: the path of a key's node. `Dispatched`: the calls that an event should make.
* `Exact`: the condition; `dispatch_iff`: for all events. `type_name_differs`: the type name.
* `misdispatched`: the root `/`, and a path that begins with a registered one.
-/

namespace CmakeFrame
namespace Zookconfig

open Lib

inductive EventType where
  | ZOO_CHILD_EVENT
  | ZOO_CHANGED_EVENT
  | other
  deriving DecidableEq, Repr

inductive WatcherCall where
  | serverInfoChangeCallBack (path : Bytes)
  | configUpdateCallBack (key : Bytes)
  deriving DecidableEq, Repr

/-- `watcher`, with the path of the event as a C string. -/
def watcher (s : ZookConfig) (type : EventType) (path : Bytes) : Option (List WatcherCall) :=
  match type with
  | .ZOO_CHILD_EVENT =>
    some ((watcherPaths s.serverPathVector path).map fun _ => .serverInfoChangeCallBack path)
  | .ZOO_CHANGED_EVENT =>
    if s.configRootPath = [] then some []
    else if isBelow s.configRootPath path then
      if path.length < s.configRootPath.length + 1 then none
      else some [.configUpdateCallBack (path.drop (s.configRootPath.length + 1))]
    else some []
  | .other => some []

/-! ## What an event should do -/

/-- `path` is the node of `key`, a child of the root path. -/
structure IsKey (root key path : Bytes) : Prop where
  name : key ≠ [] ∧ 0 ∉ key ∧ 47 ∉ key
  path : path = loadPath root key

/-- A registered path and the node of a key call their callback once, and nothing else is called. -/
def Dispatched (s : ZookConfig) (type : EventType) (path : Bytes) : Prop :=
  match type with
  | .ZOO_CHILD_EVENT =>
    (path ∈ s.serverPathVector.map cstr →
      watcher s type path = some [.serverInfoChangeCallBack path]) ∧
    (path ∉ s.serverPathVector.map cstr → watcher s type path = some [])
  | .ZOO_CHANGED_EVENT =>
    (∀ key, IsKey s.configRootPath key path →
      watcher s type path = some [.configUpdateCallBack key]) ∧
    ((∀ key, ¬ IsKey s.configRootPath key path) → watcher s type path = some [])
  | .other => watcher s type path = some []

/-- The condition. No other registered path is a beginning of the path of a child event, and it is not
registered twice. The root path is not `/` and has no 0 if the node is that of a key, and it is not a
beginning of any other path. -/
def Exact (s : ZookConfig) (type : EventType) (path : Bytes) : Prop :=
  match type with
  | .ZOO_CHILD_EVENT =>
    (∀ p ∈ s.serverPathVector, isBelow p path = true → cstr p = path) ∧
      (s.serverPathVector.map cstr).count path ≤ 1
  | .ZOO_CHANGED_EVENT =>
    ((∃ key, IsKey s.configRootPath key path) →
      cstr s.configRootPath ≠ [47] ∧ 0 ∉ s.configRootPath) ∧
    ((∀ key, ¬ IsKey s.configRootPath key path) → isBelow s.configRootPath path = false)
  | .other => True

/-! ## Child events -/

theorem isBelow_cstr {p path : Bytes} (h : cstr p = path) : isBelow p path = true := by
  subst h
  rw [isBelow, cstr_eq_self (zero_notMem_cstr p)]
  exact decide_eq_true rfl

/-- The registered paths that the event compares equal to are among those that it begins with. -/
theorem count_le_watcherPaths (serverPathVector : List Bytes) (path : Bytes) :
    (serverPathVector.map cstr).count path ≤ (watcherPaths serverPathVector path).length := by
  rw [watcherPaths, ← List.countP_eq_length_filter, List.count, List.countP_map]
  refine List.countP_mono_left fun p _ hp => ?_
  exact isBelow_cstr (by simpa using hp)

theorem watcherPaths_length_iff {serverPathVector : List Bytes} {path : Bytes} :
    (watcherPaths serverPathVector path).length = (serverPathVector.map cstr).count path ↔
      ∀ p ∈ serverPathVector, isBelow p path = true → cstr p = path := by
  induction serverPathVector with
  | nil => simp [watcherPaths]
  | cons p rest ih =>
    have hle := count_le_watcherPaths rest path
    rw [List.forall_mem_cons, ← ih]
    unfold watcherPaths at hle ⊢
    rw [List.map_cons, List.count_cons, List.filter_cons]
    by_cases hp : cstr p = path
    · simp [isBelow_cstr hp, hp]
    · by_cases hbelow : isBelow p path = true
      · simp only [hbelow, if_true, List.length_cons, beq_iff_eq, hp, if_false, true_implies,
          false_and, iff_false]
        omega
      · simp [hbelow, hp]

theorem childEvent_iff (s : ZookConfig) (path : Bytes) :
    Dispatched s .ZOO_CHILD_EVENT path ↔ Exact s .ZOO_CHILD_EVENT path := by
  have hle := count_le_watcherPaths s.serverPathVector path
  have hmem : path ∈ s.serverPathVector.map cstr ↔ 0 < (s.serverPathVector.map cstr).count path :=
    List.count_pos_iff.symm
  -- only the number of the calls matters
  have hone : watcher s .ZOO_CHILD_EVENT path = some [.serverInfoChangeCallBack path] ↔
      (watcherPaths s.serverPathVector path).length = 1 := by
    simp only [watcher, Option.some.injEq]
    constructor
    · intro h
      simpa using congrArg List.length h
    · intro h
      obtain ⟨p, hp⟩ := List.length_eq_one_iff.mp h
      rw [hp]
      rfl
  have hzero : watcher s .ZOO_CHILD_EVENT path = some [] ↔
      (watcherPaths s.serverPathVector path).length = 0 := by
    simp only [watcher, Option.some.injEq, List.map_eq_nil_iff, List.length_eq_zero_iff]
  simp only [Dispatched, Exact]
  rw [← watcherPaths_length_iff, hone, hzero, hmem]
  omega

/-! ## Data events -/

section

variable {s : ZookConfig} {root key path : Bytes}

theorem check_of_slash (h : cstr root = [47]) : zookeeperPathCheck root = 1 := by
  simp [zookeeperPathCheck, h]

/-- The node of a key is strictly below the root path. -/
theorem IsKey.length (h : IsKey root key path) : (cstr root).length < path.length := by
  have hpos : 0 < key.length := List.length_pos_of_ne_nil h.name.1
  rw [h.path, loadPath]
  split <;> simp [childPath, cstr_eq_self h.name.2.1]
  exact hpos

/-- A root path with a 0 in it is compared no further than that. -/
theorem isBelow_of_mem_zero (hz : 0 ∈ root) (hpath : 0 ∉ path) (h : isBelow root path = true) :
    path = cstr root := by
  rw [isBelow, cstr_eq_self hpath, decide_eq_true_iff] at h
  have hlt : (cstr root).length < root.length := by
    refine lt_of_le_of_ne (List.takeWhile_prefix _).length_le fun heq => ?_
    have hself : cstr root = root := (List.takeWhile_prefix _).eq_of_length heq
    exact zero_notMem_cstr root (hself.symm ▸ hz)
  rw [List.take_of_length_le hlt.le] at h
  rw [← h, List.take_of_length_le]
  have := congrArg List.length h
  rw [List.length_take] at this
  omega

theorem IsKey.zero_notMem (h : IsKey root key path) : 0 ∉ path := by
  have hroot := zero_notMem_cstr root
  rw [h.path, loadPath]
  split <;> simp [childPath, cstr_eq_self h.name.2.1, hroot, h.name.2.1]

theorem IsKey.isBelow (h : IsKey root key path) (hz : 0 ∉ root) : isBelow root path = true := by
  rw [h.path]
  exact isBelow_loadPath hz h.name.2.1

/-- Below the root path `/` the key loses its first byte. -/
theorem changedEvent_of_slash (hz : 0 ∉ s.configRootPath) (hslash : cstr s.configRootPath = [47])
    (h : IsKey s.configRootPath key path) :
    watcher s .ZOO_CHANGED_EVENT path = some [.configUpdateCallBack (key.drop 1)] := by
  have hroot : s.configRootPath = [47] := (cstr_eq_self hz).symm.trans hslash
  have hpath : path = 47 :: key := by
    rw [h.path, loadPath, if_pos (check_of_slash hslash), hslash, cstr_eq_self h.name.2.1]
    rfl
  have hpos := List.length_pos_of_ne_nil h.name.1
  have hlen : ¬ path.length < s.configRootPath.length + 1 := by
    rw [hroot, hpath, List.length_cons, List.length_singleton]
    omega
  rw [watcher, if_neg (by simp [hroot]), if_pos (h.isBelow hz), if_neg hlen, hroot, hpath]
  rfl

/-- An event of a key's node reaches the callback with the key unless the root is `/` or has a 0. -/
theorem changedEvent_key_iff (hroot : s.configRootPath ≠ [])
    (h : IsKey s.configRootPath key path) :
    watcher s .ZOO_CHANGED_EVENT path = some [.configUpdateCallBack key] ↔
      cstr s.configRootPath ≠ [47] ∧ 0 ∉ s.configRootPath := by
  by_cases hz : 0 ∈ s.configRootPath
  · rw [watcher, if_neg hroot]
    have hbelow : isBelow s.configRootPath path ≠ true := by
      intro hbelow
      have heq := isBelow_of_mem_zero hz h.zero_notMem hbelow
      have hlt := h.length
      rw [heq] at hlt
      exact lt_irrefl _ hlt
    rw [if_neg hbelow]
    simp [hz]
  · by_cases hslash : cstr s.configRootPath = [47]
    · rw [changedEvent_of_slash hz hslash h]
      refine iff_of_false (fun heq => ?_) (by simp [hslash])
      simp only [Option.some.injEq, List.cons.injEq, and_true,
        WatcherCall.configUpdateCallBack.injEq] at heq
      have hlength := congrArg List.length heq
      have hpos := List.length_pos_of_ne_nil h.name.1
      rw [List.length_drop] at hlength
      omega
    · have hcheck : zookeeperPathCheck s.configRootPath ≠ 1 := fun hc => hslash (eq_slash_of_check hc)
      have hpath : path = childPath s.configRootPath key := by
        rw [h.path, loadPath_eq_childPath hcheck]
      have hlen : ¬ path.length < s.configRootPath.length + 1 := by
        have := h.length
        rw [cstr_eq_self hz] at this
        omega
      rw [watcher, if_neg hroot, if_pos (h.isBelow hz), if_neg hlen, hpath,
        drop_childPath hz h.name.2.1]
      simp [hslash, hz]

theorem changedEvent_other_iff (hroot : s.configRootPath ≠ []) :
    watcher s .ZOO_CHANGED_EVENT path = some [] ↔ isBelow s.configRootPath path = false := by
  rw [watcher, if_neg hroot]
  cases isBelow s.configRootPath path with
  | false => simp
  | true =>
    simp only [if_true, Bool.true_eq_false, iff_false]
    split <;> simp

theorem changedEvent_iff (hroot : s.configRootPath ≠ []) (path : Bytes) :
    Dispatched s .ZOO_CHANGED_EVENT path ↔ Exact s .ZOO_CHANGED_EVENT path := by
  simp only [Dispatched, Exact]
  rw [changedEvent_other_iff hroot]
  refine and_congr_left fun _ => ?_
  constructor
  · rintro h ⟨key, hkey⟩
    exact (changedEvent_key_iff hroot hkey).mp (h key hkey)
  · intro h key hkey
    exact (changedEvent_key_iff hroot hkey).mpr (h ⟨key, hkey⟩)

end

/-! ## The type name -/

/-- The type that the list was asked for with has the slash, the one that `serverCb` gets has not. -/
theorem type_name_ne {s : ZookConfig} {w : Situation} {path : Bytes} {infoList : List TcpServerInfo}
    {r : ServerCall} (h : s.getTcpServerListInfo w path infoList = some r) {serverType : Bytes}
    (htype : r.serverType = some serverType) {colonyNum : Nat} {service : Service}
    {event : ChildEvent} (hevent : serverInfoChangeCallBack colonyNum true path service = some event)
    {info : List TcpServerInfo} {svrType : Bytes} (hcall : event.call = some (info, svrType)) :
    svrType ≠ serverType := by
  have hget : (utilLastConstchar path 47).map (47 :: ·) = some serverType := by
    unfold ZookConfig.getTcpServerListInfo at h
    split at h
    · cases h
      cases htype
    · split at h
      · cases h
        cases htype
      · split at h
        · cases h
          cases htype
        · split at h
          · cases h
            cases htype
          · obtain ⟨load, -, rfl⟩ := Option.map_eq_some_iff.mp h
            exact htype
  obtain ⟨text, htext, rfl⟩ := Option.map_eq_some_iff.mp hget
  simp only [serverInfoChangeCallBack, not_true_eq_false, if_false, htext] at hevent
  split at hevent
  · cases hevent
  · cases hevent
    cases hcall
    intro heq
    simpa using congrArg List.length heq

/-- **Which events are dispatched right.** An event of any type and path makes the calls that it should
make exactly under the condition; and for no service path does `serverCb` get the type name that
`getTcpServerListInfo` has reported. -/
theorem dispatch_iff (s : ZookConfig) (hroot : 0 < zookeeperPathCheck s.configRootPath) :
    (∀ type path, Dispatched s type path ↔ Exact s type path) ∧
    ∀ w path infoList r serverType colonyNum service event info svrType,
      s.getTcpServerListInfo w path infoList = some r → r.serverType = some serverType →
      serverInfoChangeCallBack colonyNum true path service = some event →
      event.call = some (info, svrType) → svrType ≠ serverType := by
  have hne : s.configRootPath ≠ [] := by
    intro hnil
    rw [hnil] at hroot
    exact absurd hroot (by decide)
  refine ⟨fun type path => ?_, fun _ _ _ _ _ _ _ _ _ _ h ht he hc => type_name_ne h ht he hc⟩
  cases type with
  | ZOO_CHILD_EVENT => exact childEvent_iff s path
  | ZOO_CHANGED_EVENT => exact changedEvent_iff hne path
  | other => exact iff_of_true rfl trivial

/-- The event of the key `k` below `/c`. -/
theorem dispatch_key : Dispatched ⟨[47, 99], [], fun _ => none⟩ .ZOO_CHANGED_EVENT [47, 99, 47, 107] := by
  refine ((dispatch_iff ⟨[47, 99], [], fun _ => none⟩ (by decide)).1 _ _).mpr ⟨fun _ => by decide, ?_⟩
  intro h
  exact absurd ⟨by decide, by decide⟩ (h [107])

/-- With the root path `/` the event of the key `ab` reaches the callback as `b`. An event of `/ab`
reaches the callback when only `/a` is registered. And the type name of `/a` is `/a` for the one and
`a` for the other. -/
theorem misdispatched :
    watcher ⟨[47], [], fun _ => none⟩ .ZOO_CHANGED_EVENT [47, 97, 98] =
      some [.configUpdateCallBack [98]] ∧
    watcher ⟨[47, 99], [[47, 97]], fun _ => none⟩ .ZOO_CHILD_EVENT [47, 97, 98] =
      some [.serverInfoChangeCallBack [47, 97, 98]] ∧
    (¬ ∀ s type path, 0 < zookeeperPathCheck s.configRootPath → Dispatched s type path) ∧
    ¬ ∀ s w path infoList r serverType colonyNum service event info svrType,
      ZookConfig.getTcpServerListInfo s w path infoList = some r → r.serverType = some serverType →
      serverInfoChangeCallBack colonyNum true path service = some event →
      event.call = some (info, svrType) → svrType = serverType := by
  refine ⟨by decide, by decide, fun h => ?_, fun h => ?_⟩
  · have hkey := (h ⟨[47], [], fun _ => none⟩ .ZOO_CHANGED_EVENT [47, 97, 98] (by decide)).1 [97, 98]
      ⟨by decide, by decide⟩
    revert hkey
    decide
  · have heq := h .new noChildren [47, 97] [] _ [47, 97] 1 noChildren.service _ [] [97] rfl rfl rfl rfl
    revert heq
    decide

end Zookconfig
end CmakeFrame
