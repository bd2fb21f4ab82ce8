import CmakeFrame.Lib.Sys
import CmakeFrame.Zookconfig.ZookConfig

/-!
# `configMap` beside the nodes of zookeeper

`zookLoadAllConfig` reads every child of a path with a watch, which fires once. `watcher` then calls
`configUpdateCallBack`, which reads the node without a watch. The values are set by anybody at any
time, and the events wait in a queue for the one thread that calls `watcher`.

* `CacheState`, `CacheAct`, `cacheSystem`: the nodes, the watches, the load and the callback, step
  by step. A read of the callback fails only where zookeeper refuses the path.
* `Follows`: with no event on its way, the map has the value of every node, and `configCb` was
  called with it if it is a new one.
* `Seen`: the condition on a step; `CacheInv`: the invariant; `cache_follows`: in every run whose
  steps all meet the condition.
* `second_change_lost`: the second change of a node is not seen.
-/

namespace CmakeFrame
namespace Zookconfig

open Lib

/-! ## The system -/

/-- Where `loadAllKeyValue` is. -/
inductive Load where
  | before
  /-- Before the next call of `zoo_get`, with the children behind this one. -/
  | reading (key : Bytes) (rest : List Bytes) (tryTime : Nat)
  /-- Before the insertion. -/
  | got (key value : Bytes) (rest : List Bytes)
  | done (ret : Int)
  deriving DecidableEq, Repr

/-- The loop over the children. -/
def Load.start : List Bytes → Load
  | [] => .done 0
  | key :: rest => .reading key rest 0

/-- Where `watcher` is with an event of `path`. -/
inductive Callback where
  | idle
  /-- In `configUpdateCallBack`, before `zoo_get`. -/
  | reading (path key : Bytes)
  /-- Before it takes `configLock`. -/
  | storing (key newValue : Bytes)
  deriving DecidableEq, Repr

/-- A call of `configCb`. -/
structure ConfigCall where
  key : Bytes
  oldValue : Bytes
  newValue : Bytes
  deriving DecidableEq, Repr

/-- `nodes` are the values in zookeeper, `armed` the paths with a watch of this client, and `events`
the paths whose watch has fired and that `watcher` has not been called for. `children`, `changed`
and `calls` are history: what the load found, the paths whose watch has fired at some time, and the
calls of `configCb`, the last one first. -/
structure CacheState where
  configRootPath : Bytes
  configMap : Bytes → Option Bytes
  nodes : Bytes → Option Bytes
  armed : Bytes → Bool
  events : List Bytes
  load : Load
  callback : Callback
  children : List Bytes
  changed : Bytes → Bool
  calls : List ConfigCall

inductive CacheAct where
  /-- The call up to its loop, with the reply for the children. -/
  | zookLoadAllConfig (configPath : Bytes) (reply : Reply (List Bytes))
  /-- `zoo_get` with a watch; an `ok` reads the node as it is. -/
  | loadGet (reply : Reply Unit)
  | loadInsert
  /-- Anybody sets the value of a node, also `setConfigKeyValue`. -/
  | set (path value : Bytes)
  /-- `watcher` is called for the next event. -/
  | deliver
  /-- `zoo_get` without a watch; nobody looks at its result. -/
  | get
  /-- The callback has the lock, and then calls `configCb`. -/
  | store
  deriving DecidableEq, Repr

/-- What `char cfg[1024]` gives as a string. A longer value is cut, and the 0 goes behind the
buffer. -/
def cfgString (value : Bytes) : Bytes := cstr (value.take 1024)

/-- The value fits and reads back as it is. -/
def ReadsBack (value : Bytes) : Prop := ValueFits value ∧ 0 ∉ value

instance (value : Bytes) : Decidable (ReadsBack value) := inferInstanceAs (Decidable (_ ∧ _))

/-- The path of a child in `loadAllKeyValue`. -/
def loadPath (root key : Bytes) : Bytes :=
  if zookeeperPathCheck root = 1 then cstr root ++ cstr key else childPath root key

namespace CacheState

/-- `zoo_get`; zookeeper refuses a path with an empty name in it. -/
def zooGet (s : CacheState) (path : Bytes) : Option Bytes :=
  if [47, 47].isPrefixOf path then none else s.nodes path

/-- `zoo_set` of a node that exists: a watch fires. -/
def zooSet (s : CacheState) (path value : Bytes) : CacheState :=
  { s with
    nodes := Function.update s.nodes path (some value)
    armed := Function.update s.armed path false
    events := if s.armed path then s.events ++ [path] else s.events
    changed := Function.update s.changed path (s.changed path || s.armed path) }

/-- The end of `configUpdateCallBack`. -/
def configStore (s : CacheState) (key newValue : Bytes) : CacheState :=
  match s.configMap key with
  | none => { s with callback := .idle }
  | some oldValue =>
    { s with
      configMap := Function.update s.configMap key (some newValue)
      callback := .idle
      calls := ⟨key, oldValue, newValue⟩ :: s.calls }

def next (colonyNum : Nat) (s : CacheState) : CacheAct → Option CacheState
  | .zookLoadAllConfig configPath reply =>
    if configPath = [] then some s
    else if s.configRootPath ≠ [] then some s
    else if zookeeperPathCheck configPath ≤ 0 then
      some { s with
        configRootPath := configPath, load := .done (zookeeperPathCheck configPath) }
    else match reply with
      | .ok children =>
        -- the names are C strings
        if ∀ key ∈ children, 0 ∉ key then
          some { s with configRootPath := configPath, children, load := .start children }
        else none
      | .loss => some { s with configRootPath := configPath, load := .done ZCONNECTIONLOSS }
      | .error code =>
        if code = ZOK then none
        else some { s with configRootPath := configPath, load := .done code }
  | .loadGet reply =>
    match s.load with
    | .reading key rest tryTime =>
      match reply with
      | .ok () =>
        match s.zooGet (loadPath s.configRootPath key) with
        | none => none
        | some value =>
          some { s with
            armed := Function.update s.armed (loadPath s.configRootPath key) true
            load := .got key (cfgString value) rest }
      | .loss =>
        if tryTime + 1 < colonyNum then some { s with load := .reading key rest (tryTime + 1) }
        else some { s with load := .done ZCONNECTIONLOSS }
      | .error code => if code = ZOK then none else some { s with load := .done code }
    | .before | .got _ _ _ | .done _ => none
  | .loadInsert =>
    match s.load with
    | .got key value rest =>
      match s.configMap key with
      | none =>
        some { s with
          configMap := Function.update s.configMap key (some value), load := .start rest }
      | some _ => some { s with load := .start rest }
    | .before | .reading _ _ _ | .done _ => none
  | .set path value =>
    match s.nodes path with
    | none => some s
    | some _ => some (s.zooSet path value)
  | .deliver =>
    match s.callback, s.events with
    | .idle, path :: events =>
      if s.configRootPath ≠ [] ∧ isBelow s.configRootPath path then
        some { s with
          events, callback := .reading path (path.drop (s.configRootPath.length + 1)) }
      else some { s with events }
    | .idle, [] | .reading _ _, _ | .storing _ _, _ => none
  | .get =>
    match s.callback with
    | .reading _ key =>
      match s.zooGet (childPath s.configRootPath key) with
      -- `cfg` is all 0, and `len` is its size
      | none => some { s with callback := .storing key [] }
      | some value => some { s with callback := .storing key (cfgString value) }
    | .idle | .storing _ _ => none
  | .store =>
    match s.callback with
    | .storing key newValue => some (s.configStore key newValue)
    | .idle | .reading _ _ => none

/-- `getConfigKeyValue`. -/
def getConfigKeyValue (s : CacheState) (key : Bytes) : Option Bytes := s.configMap key

/-- The last value that `configCb` was called with for a key. -/
def lastCall (s : CacheState) (key : Bytes) : Option Bytes :=
  (s.calls.find? (·.key = key)).map (·.newValue)

/-- The event of this path is on its way to `zoo_get`. -/
def pending (s : CacheState) (path : Bytes) : Prop :=
  path ∈ s.events ∨ match s.callback with
    | .reading p _ => p = path
    | .idle | .storing _ _ => False

instance (s : CacheState) (path : Bytes) : Decidable (s.pending path) := by
  unfold pending
  cases s.callback <;> infer_instance

end CacheState

/-- A client with a handle, and zookeeper with any nodes. -/
def cacheSystem (colonyNum : Nat) (nodes : Bytes → Option Bytes) : Sys CacheState CacheAct where
  init := ⟨[], fun _ => none, nodes, fun _ => false, [], .before, .idle, [], fun _ => false, []⟩
  next := CacheState.next colonyNum

/-! ## What the cache is for -/

/-- When the load was successful and no event is on its way, every key has the value of its node,
and `configCb` was called with it if the node has changed since the load. -/
def Follows (s : CacheState) : Prop :=
  s.load = .done 0 → s.events = [] → s.callback = .idle → ∀ key ∈ s.children,
    ∃ value, s.getConfigKeyValue key = some value ∧
      s.nodes (loadPath s.configRootPath key) = some value ∧
      (s.changed (loadPath s.configRootPath key) = true → s.lastCall key = some value)

/-- The condition on a step. A node that has changed since the load may change again only while its
watch is armed or its event is on its way. A value that is read is shorter than 1024 bytes, a path
shorter than 512, and both have no 0. Zookeeper does not refuse the path that the callback reads. The
callback of a key that the load has read waits for the insertion. -/
def Seen (s : CacheState) : CacheAct → Prop
  | .zookLoadAllConfig configPath _ => 0 ∉ configPath
  | .loadGet _ =>
    match s.load with
    | .reading key _ _ =>
      PathFits (loadPath s.configRootPath key) ∧
        ∀ value ∈ s.zooGet (loadPath s.configRootPath key), ReadsBack value
    | .before | .got _ _ _ | .done _ => True
  | .set path value =>
    s.armed path = true ∨ s.pending path ∨ s.changed path = false ∨ s.nodes path = some value
  | .get =>
    match s.callback with
    | .reading _ key =>
      PathFits (childPath s.configRootPath key) ∧
        ∃ value ∈ s.zooGet (childPath s.configRootPath key), ReadsBack value
    | .idle | .storing _ _ => True
  | .store =>
    match s.callback, s.load with
    | .storing key _, .got held _ _ => key ≠ held
    | _, _ => True
  | .loadInsert | .deliver => True

instance : ∀ s a, Decidable (Seen s a)
  | _, .zookLoadAllConfig _ _ => inferInstanceAs (Decidable (_ ∉ _))
  | s, .loadGet _ => by
    unfold Seen
    cases s.load <;> infer_instance
  | _, .set _ _ => inferInstanceAs (Decidable (_ ∨ _ ∨ _ ∨ _))
  | s, .get => by
    unfold Seen
    cases s.callback <;> infer_instance
  | s, .store => by
    unfold Seen
    cases s.callback <;> cases s.load <;> infer_instance
  | _, .loadInsert => isTrue trivial
  | _, .deliver => isTrue trivial

/-! ## Paths -/

theorem cfgString_eq {value : Bytes} (h : ReadsBack value) : cfgString value = value := by
  have hlt : value.length < 1024 := h.1
  unfold cfgString
  rw [List.take_of_length_le (by omega), cstr_eq_self h.2]

theorem eq_slash_of_check {root : Bytes} (h : zookeeperPathCheck root = 1) : cstr root = [47] := by
  unfold zookeeperPathCheck at h
  simp only at h
  split at h
  · exact absurd h (by decide)
  · split at h
    · exact absurd h (by decide)
    · rename_i hhead
      split at h
      · rename_i hlen
        obtain ⟨c, hc⟩ := List.length_eq_one_iff.mp hlen
        rw [hc] at hhead ⊢
        simpa using hhead
      · rename_i hlen
        split at h
        · exact absurd h (by decide)
        · exact absurd (Int.ofNat.inj h) hlen

theorem loadPath_injective {root a b : Bytes} (ha : 0 ∉ a) (hb : 0 ∉ b)
    (h : loadPath root a = loadPath root b) : a = b := by
  unfold loadPath at h
  split at h
  · rw [cstr_eq_self ha, cstr_eq_self hb] at h
    exact List.append_cancel_left h
  · exact childPath_injective ha hb h

theorem loadPath_eq_childPath {root : Bytes} (h : zookeeperPathCheck root ≠ 1) (key : Bytes) :
    loadPath root key = childPath root key :=
  if_neg h

/-- The event of a child reaches the callback with the name of the child. -/
theorem isBelow_loadPath {root key : Bytes} (hroot : 0 ∉ root) (hkey : 0 ∉ key) :
    isBelow root (loadPath root key) = true := by
  have hz : (0 : UInt8) ∉ loadPath root key := by
    unfold loadPath childPath
    split <;> simp [cstr_eq_self hroot, cstr_eq_self hkey, hroot, hkey]
  unfold isBelow
  rw [cstr_eq_self hz, cstr_eq_self hroot, decide_eq_true_iff]
  unfold loadPath childPath
  split <;> simp [cstr_eq_self hroot]

theorem drop_childPath {root key : Bytes} (hroot : 0 ∉ root) (hkey : 0 ∉ key) :
    (childPath root key).drop (root.length + 1) = key := by
  unfold childPath
  rw [cstr_eq_self hroot, cstr_eq_self hkey, List.drop_append]
  simp

/-- With the root `/` the callback asks for a path that zookeeper refuses. -/
theorem zooGet_root {s : CacheState} (h : zookeeperPathCheck s.configRootPath = 1) (key : Bytes) :
    s.zooGet (childPath s.configRootPath key) = none := by
  unfold CacheState.zooGet childPath
  rw [eq_slash_of_check h]
  rfl

/-! ## The invariant -/

section

variable {colonyNum : Nat} {s s' : CacheState}

namespace Load

/-- The children that are not inserted. -/
def todo : Load → List Bytes
  | .reading key rest _ | .got key _ rest => key :: rest
  | .before | .done _ => []

/-- The value that is about to be inserted. -/
def value (load : Load) (key : Bytes) : Option Bytes :=
  match load with
  | .got k value _ => if k = key then some value else none
  | .before | .reading _ _ _ | .done _ => none

@[simp] theorem value_reading (k : Bytes) (rest : List Bytes) (tryTime : Nat) (key : Bytes) :
    (reading k rest tryTime).value key = none :=
  rfl

@[simp] theorem value_got (k v : Bytes) (rest : List Bytes) (key : Bytes) :
    (got k v rest).value key = if k = key then some v else none :=
  rfl

@[simp] theorem value_start (rest : List Bytes) (key : Bytes) : (start rest).value key = none := by
  cases rest <;> rfl

@[simp] theorem todo_start (rest : List Bytes) : (start rest).todo = rest := by
  cases rest <;> rfl

end Load

namespace CacheState

/-- The value of the map, or the one that the load is about to insert. -/
def held (s : CacheState) (key : Bytes) : Option Bytes := (s.configMap key).or (s.load.value key)

/-- The same, or the value that the callback is about to store. -/
def current (s : CacheState) (key : Bytes) : Option Bytes :=
  match s.callback with
  | .storing k newValue => if k = key then some newValue else s.held key
  | .idle | .reading _ _ => s.held key

/-- The load has read the key. -/
def loaded (s : CacheState) (key : Bytes) : Prop := s.held key ≠ none

/-- The last value that `configCb` was called with, or the one that the callback is about to
store. -/
def announced (s : CacheState) (key : Bytes) : Option Bytes :=
  match s.callback with
  | .storing k newValue => if k = key then some newValue else s.lastCall key
  | .idle | .reading _ _ => s.lastCall key

/-- The path of a key. -/
def path (s : CacheState) (key : Bytes) : Bytes := loadPath s.configRootPath key

end CacheState

/-- What holds in every state. -/
structure CacheInv (s : CacheState) : Prop where
  root : 0 ∉ s.configRootPath
  before : s.configRootPath = [] → s.load = .before ∧ (∀ key, s.configMap key = none) ∧
    (∀ path, s.armed path = false) ∧ s.events = [] ∧ s.callback = .idle
  todo : ∀ key ∈ s.load.todo, 0 ∉ key
  loadedName : ∀ key, s.loaded key → 0 ∉ key
  progress : s.load = .before ∨ (∃ ret, s.load = .done ret ∧ ret ≠ 0) ∨
    ∀ key ∈ s.children, s.configMap key ≠ none ∨ key ∈ s.load.todo
  watched : ∀ path, s.armed path = true ∨ s.changed path = true ∨ s.pending path →
    ∃ key, s.loaded key ∧ path = s.path key
  reading : ∀ path key, s.callback = .reading path key →
    zookeeperPathCheck s.configRootPath ≠ 1 → s.loaded key ∧ path = s.path key
  storing : ∀ key newValue, s.callback = .storing key newValue → s.loaded key
  fresh : ∀ key, s.loaded key → s.pending (s.path key) ∨ s.current key = s.nodes (s.path key)
  called : ∀ key, s.loaded key → s.changed (s.path key) = true →
    s.pending (s.path key) ∨ s.announced key = s.nodes (s.path key)
  seen : ∀ key, s.loaded key → s.armed (s.path key) = true ∨ s.changed (s.path key) = true

theorem init_cacheInv (nodes : Bytes → Option Bytes) :
    CacheInv (cacheSystem colonyNum nodes).init := by
  constructor <;> simp [cacheSystem, CacheState.loaded, CacheState.held, CacheState.pending,
    Load.todo, Load.value]

/-! ## The steps -/

theorem pending_zooSet {path p value : Bytes} : (s.zooSet path value).pending p ↔
    s.pending p ∨ (s.armed path = true ∧ p = path) := by
  unfold CacheState.pending CacheState.zooSet
  cases ha : s.armed path with
  | false => simp
  | true =>
    simp only [if_true, List.mem_append, List.mem_singleton, true_and]
    tauto

/-- A node changes: either an event is on its way, or the value is the one that was read. -/
theorem CacheInv.set (hi : CacheInv s) {path value old : Bytes} (hnode : s.nodes path = some old)
    (hseen : Seen s (.set path value)) : CacheInv (s.zooSet path value) := by
  have hold : ∀ {p}, s.pending p → (s.zooSet path value).pending p := fun hp =>
    pending_zooSet.mpr (.inl hp)
  have hnew : s.armed path = true → (s.zooSet path value).pending path := fun ha =>
    pending_zooSet.mpr (.inr ⟨ha, rfl⟩)
  have hsame : ∀ key, s.loaded key → s.path key = path →
      (s.zooSet path value).pending path ∨ (s.nodes path = some value ∧ s.changed path = true) := by
    intro key hk hp
    have hcov := hi.seen key hk
    rw [hp] at hcov
    rcases hseen with ha | hpend | hch | hval
    · exact .inl (hnew ha)
    · exact .inl (hold hpend)
    · exact .inl (hnew (hcov.resolve_right (by simp [hch])))
    · exact hcov.imp hnew fun hch => ⟨hval, hch⟩
  -- who has the value of the node still has it, or there is an event
  have hkeep : ∀ key (v : Option Bytes), s.loaded key →
      s.pending (s.path key) ∨ v = s.nodes (s.path key) →
      (s.zooSet path value).pending (s.path key) ∨
        v = (s.zooSet path value).nodes (s.path key) := by
    intro key v hk hv
    by_cases hp : s.path key = path
    · rcases hsame key hk hp with hpend | ⟨hval, -⟩
      · exact .inl (hp ▸ hpend)
      · refine hv.imp hold fun hcur => ?_
        calc v
          _ = some value := by rw [hcur, hp, hval]
          _ = (s.zooSet path value).nodes (s.path key) := by simp [CacheState.zooSet, hp]
    · refine hv.imp hold fun hcur => ?_
      calc v
        _ = s.nodes (s.path key) := hcur
        _ = (s.zooSet path value).nodes (s.path key) := by simp [CacheState.zooSet, hp]
  exact { hi with
    before := fun hr => by
      obtain ⟨hl, hm, ha, he, hc⟩ := hi.before hr
      refine ⟨hl, hm, fun p => ?_, by simp [CacheState.zooSet, ha, he], hc⟩
      by_cases hp : p = path
      · simp [CacheState.zooSet, hp]
      · simp [CacheState.zooSet, hp, ha]
    watched := fun p hp => by
      by_cases he : p = path
      · subst he
        rcases hp with ha | hch | hpend
        · simp [CacheState.zooSet] at ha
        · refine hi.watched p ?_
          have : s.changed p = true ∨ s.armed p = true := by simpa [CacheState.zooSet] using hch
          tauto
        · refine hi.watched p ?_
          have := pending_zooSet.mp hpend
          tauto
      · rcases hp with ha | hch | hpend
        · exact hi.watched p (.inl (by simpa [CacheState.zooSet, he] using ha))
        · exact hi.watched p (.inr (.inl (by simpa [CacheState.zooSet, he] using hch)))
        · exact hi.watched p (.inr (.inr ((pending_zooSet.mp hpend).resolve_right fun h => he h.2)))
    fresh := fun key hk => hkeep key _ hk (hi.fresh key hk)
    called := fun key hk hch => by
      by_cases hp : s.path key = path
      · rcases hsame key hk hp with hpend | ⟨-, hwas⟩
        · exact .inl (hp ▸ hpend)
        · exact hkeep key _ hk (hi.called key hk (hp ▸ hwas))
      · have hch : Function.update s.changed path (s.changed path || s.armed path) (s.path key) =
            true := hch
        rw [Function.update_of_ne hp] at hch
        exact hkeep key _ hk (hi.called key hk hch)
    seen := fun key hk => by
      show (s.zooSet path value).armed (s.path key) = true ∨
        (s.zooSet path value).changed (s.path key) = true
      by_cases hp : s.path key = path
      · right
        have := hi.seen key hk
        rw [hp] at this
        simpa [CacheState.zooSet, hp, or_comm] using this
      · simpa [CacheState.zooSet, hp] using hi.seen key hk }

/-- The callback takes the next event. -/
theorem CacheInv.deliver (hi : CacheInv s) (h : s.next colonyNum .deliver = some s') :
    CacheInv s' := by
  simp only [CacheState.next] at h
  split at h
  · rename_i path events hidle hev
    have hpath : s.pending path := .inl (by simp [hev])
    obtain ⟨key, hk, rfl⟩ := hi.watched path (.inr (.inr hpath))
    have hname := hi.loadedName key hk
    have hroot : s.configRootPath ≠ [] := by
      intro hr
      have := (hi.before hr).2.2.2.1
      simp [this] at hev
    have hbelow : isBelow s.configRootPath (s.path key) = true := isBelow_loadPath hi.root hname
    rw [if_pos ⟨hroot, hbelow⟩] at h
    cases h
    have hpend : ∀ p, CacheState.pending { s with
        events, callback := .reading (s.path key)
          ((s.path key).drop (s.configRootPath.length + 1)) } p ↔ s.pending p := by
      intro p
      simp only [CacheState.pending, hev, hidle, List.mem_cons, or_false]
      tauto
    exact { hi with
      before := fun hr => absurd hr hroot
      watched := fun p hp => hi.watched p (hp.imp_right (Or.imp_right (hpend p).mp))
      reading := by
        rintro p k ⟨⟩ hcheck
        have hk' : (s.path key).drop (s.configRootPath.length + 1) = key := by
          rw [CacheState.path, loadPath_eq_childPath hcheck, drop_childPath hi.root hname]
        rw [hk']
        exact ⟨hk, rfl⟩
      storing := by rintro k v ⟨⟩
      fresh := fun k hk => by
        refine (hi.fresh k hk).imp (hpend _).mpr fun hcur => ?_
        rw [CacheState.current, hidle] at hcur
        exact hcur
      called := fun k hk hch => by
        refine (hi.called k hk hch).imp (hpend _).mpr fun hann => ?_
        rw [CacheState.announced, hidle] at hann
        exact hann }
  · cases h
  · cases h
  · cases h

/-- The callback reads the node. -/
theorem CacheInv.get (hi : CacheInv s) (hseen : Seen s .get)
    (h : s.next colonyNum .get = some s') : CacheInv s' := by
  simp only [CacheState.next] at h
  split at h
  · rename_i p key hcb
    simp only [Seen, hcb] at hseen
    obtain ⟨-, value, hget, hback⟩ := hseen
    rw [Option.mem_def] at hget
    split at h
    · rename_i hnone
      rw [hnone] at hget
      cases hget
    · rename_i value' hget'
      obtain rfl : value = value' := Option.some.inj (hget.symm.trans hget')
      cases h
      have hcheck : zookeeperPathCheck s.configRootPath ≠ 1 := by
        intro hroot
        rw [zooGet_root hroot] at hget
        cases hget
      obtain ⟨hk, hp⟩ := hi.reading p key hcb hcheck
      have hnode : s.nodes (s.path key) = some value := by
        rw [CacheState.path, loadPath_eq_childPath hcheck]
        unfold CacheState.zooGet at hget
        split at hget
        · cases hget
        · exact hget
      rw [cfgString_eq hback]
      -- only the event of `key` is no longer on its way
      have hpend : ∀ k, s.loaded k → k ≠ key → s.pending (s.path k) →
          CacheState.pending { s with callback := .storing key value } (s.path k) := by
        intro k hlk hne hpk
        rcases hpk with he | hc
        · exact .inl he
        · simp only [hcb, hp] at hc
          exact absurd (loadPath_injective (hi.loadedName _ hk) (hi.loadedName _ hlk) hc) hne.symm
      exact { hi with
        before := fun hr => by
          have := (hi.before hr).2.2.2.2
          simp [this] at hcb
        watched := fun q hq => by
          rcases hq with ha | hch | he | hc
          · exact hi.watched q (.inl ha)
          · exact hi.watched q (.inr (.inl hch))
          · exact hi.watched q (.inr (.inr (.inl he)))
          · exact absurd hc (by simp)
        reading := by rintro q k ⟨⟩
        storing := by
          rintro k v ⟨⟩
          exact hk
        fresh := fun k hlk => by
          by_cases hkk : key = k
          · right
            simp only [CacheState.current, hkk, if_true]
            rw [← hkk]
            exact hnode.symm
          · refine (hi.fresh k hlk).imp (hpend k hlk (Ne.symm hkk)) fun hcur => ?_
            simp only [CacheState.current, hcb] at hcur
            simp only [CacheState.current, hkk, if_false]
            exact hcur
        called := fun k hlk hch => by
          by_cases hkk : key = k
          · right
            simp only [CacheState.announced, hkk, if_true]
            rw [← hkk]
            exact hnode.symm
          · refine (hi.called k hlk hch).imp (hpend k hlk (Ne.symm hkk)) fun hann => ?_
            simp only [CacheState.announced, hcb] at hann
            simp only [CacheState.announced, hkk, if_false]
            exact hann }
  · cases h
  · cases h

section

variable {key newValue old : Bytes}

theorem configStore_eq (hold : s.configMap key = some old) : s.configStore key newValue = { s with
    configMap := Function.update s.configMap key (some newValue)
    callback := .idle
    calls := ⟨key, old, newValue⟩ :: s.calls } := by
  rw [CacheState.configStore, hold]

/-- What was about to be stored is now held. -/
theorem held_configStore (hcb : s.callback = .storing key newValue)
    (hold : s.configMap key = some old) (k : Bytes) :
    (s.configStore key newValue).held k = s.current k := by
  rw [configStore_eq hold]
  by_cases hkk : k = key
  · simp [CacheState.held, CacheState.current, hcb, hkk]
  · simp [CacheState.held, CacheState.current, hcb, hkk, Ne.symm hkk]

/-- And it is announced. -/
theorem announced_configStore (hcb : s.callback = .storing key newValue)
    (hold : s.configMap key = some old) (k : Bytes) :
    (s.configStore key newValue).announced k = s.announced k := by
  rw [configStore_eq hold]
  by_cases hkk : key = k
  · simp [CacheState.announced, CacheState.lastCall, hcb, hkk]
  · simp [CacheState.announced, CacheState.lastCall, hcb, hkk]

theorem pending_configStore (hcb : s.callback = .storing key newValue)
    (hold : s.configMap key = some old) (p : Bytes) :
    (s.configStore key newValue).pending p ↔ s.pending p := by
  rw [configStore_eq hold]
  simp [CacheState.pending, hcb]

theorem loaded_configStore (hk : s.loaded key) (hcb : s.callback = .storing key newValue)
    (hold : s.configMap key = some old) (k : Bytes) :
    (s.configStore key newValue).loaded k ↔ s.loaded k := by
  rw [CacheState.loaded, held_configStore hcb hold]
  by_cases hkk : key = k
  · subst hkk
    simp only [CacheState.current, hcb, if_true]
    exact ⟨fun _ => hk, fun _ => by simp⟩
  · simp [CacheState.current, hcb, hkk, CacheState.loaded]

/-- The value that the callback has read goes to the map. -/
theorem CacheInv.configStore (hi : CacheInv s) (hcb : s.callback = .storing key newValue)
    (hold : s.configMap key = some old) : CacheInv (s.configStore key newValue) := by
  have hheld := held_configStore hcb hold
  have hann := announced_configStore hcb hold
  have hpend := pending_configStore hcb hold
  have hlk := loaded_configStore (hi.storing key newValue hcb) hcb hold
  rw [configStore_eq hold] at hheld hann hpend hlk ⊢
  exact { hi with
    before := fun hr => by
      have := (hi.before hr).2.2.2.2
      simp [this] at hcb
    loadedName := fun k h => hi.loadedName k ((hlk k).mp h)
    progress := by
      refine hi.progress.imp_right (Or.imp_right fun hp k hc => (hp k hc).imp_left fun hm => ?_)
      by_cases hkk : k = key
      · simp [hkk]
      · simpa [hkk] using hm
    watched := fun p hp => by
      obtain ⟨k, h, he⟩ := hi.watched p (hp.imp_right (Or.imp_right (hpend p).mp))
      exact ⟨k, (hlk k).mpr h, he⟩
    reading := by rintro p k ⟨⟩
    storing := by rintro k v ⟨⟩
    fresh := fun k h => by
      refine (hi.fresh k ((hlk k).mp h)).imp (hpend _).mpr fun hcur => ?_
      show CacheState.held _ k = _
      rw [hheld]
      exact hcur
    called := fun k h hch => by
      refine (hi.called k ((hlk k).mp h) hch).imp (hpend _).mpr fun ha => ?_
      rw [hann]
      exact ha
    seen := fun k h => hi.seen k ((hlk k).mp h) }

end

/-- The callback stores the value that it has read. -/
theorem CacheInv.store (hi : CacheInv s) (hseen : Seen s .store)
    (h : s.next colonyNum .store = some s') : CacheInv s' := by
  simp only [CacheState.next] at h
  split at h
  · rename_i key newValue hcb
    cases h
    cases hm : s.configMap key with
    | some old => exact hi.configStore hcb hm
    | none =>
      -- the load has read the key and not inserted it, which the condition rules out
      have hk := hi.storing key newValue hcb
      simp only [CacheState.loaded, CacheState.held, hm, Option.none_or] at hk
      cases hl : s.load with
      | got held v rest =>
        simp only [Seen, hcb, hl] at hseen
        simp [hl, Load.value, Ne.symm hseen] at hk
      | before => simp [hl, Load.value] at hk
      | reading k rest t => simp [hl, Load.value] at hk
      | done ret => simp [hl, Load.value] at hk
  · cases h
  · cases h

/-- The load goes on, and no key is read or lost. -/
theorem CacheInv.setLoad (hi : CacheInv s) {configMap : Bytes → Option Bytes} {load : Load}
    (hne : s.configRootPath ≠ [])
    (hheld : ∀ key, (configMap key).or (load.value key) = s.held key)
    (htodo : ∀ key ∈ load.todo, 0 ∉ key)
    (hprogress : load = .before ∨ (∃ ret, load = .done ret ∧ ret ≠ 0) ∨
      ∀ key ∈ s.children, configMap key ≠ none ∨ key ∈ load.todo) :
    CacheInv { s with configMap, load } := by
  have hloaded : ∀ key, CacheState.loaded { s with configMap, load } key ↔ s.loaded key := by
    intro key
    rw [CacheState.loaded, CacheState.held, hheld, CacheState.loaded]
  have hcurrent : ∀ key, CacheState.current { s with configMap, load } key = s.current key := by
    intro key
    unfold CacheState.current
    cases s.callback <;> simp only [CacheState.held, hheld]
  exact { hi with
    before := fun hr => absurd hr hne
    todo := htodo
    loadedName := fun key h => hi.loadedName key ((hloaded key).mp h)
    progress := hprogress
    watched := fun p hp => by
      obtain ⟨key, h, he⟩ := hi.watched p hp
      exact ⟨key, (hloaded key).mpr h, he⟩
    reading := fun p key hcb hcheck => by
      obtain ⟨h, he⟩ := hi.reading p key hcb hcheck
      exact ⟨(hloaded key).mpr h, he⟩
    storing := fun key v hcb => (hloaded key).mpr (hi.storing key v hcb)
    fresh := fun key h => by
      refine (hi.fresh key ((hloaded key).mp h)).imp_right fun hcur => ?_
      rw [hcurrent]
      exact hcur
    called := fun key h => hi.called key ((hloaded key).mp h)
    seen := fun key h => hi.seen key ((hloaded key).mp h) }

theorem CacheInv.root_ne (hi : CacheInv s) (h : s.load ≠ .before) : s.configRootPath ≠ [] :=
  fun hr => h (hi.before hr).1

/-- The load has read `value` for `key`, and its watch is armed. -/
def CacheState.arm (s : CacheState) (key value : Bytes) (rest : List Bytes) : CacheState :=
  { s with armed := Function.update s.armed (s.path key) true, load := .got key value rest }

section

variable {key value : Bytes} {rest : List Bytes} {tryTime : Nat}

/-- What was loaded is held as before. -/
theorem held_arm (hl : s.load = .reading key rest tryTime) {k : Bytes} (hk : s.loaded k) :
    (s.arm key value rest).held k = s.held k := by
  cases hm : s.configMap k with
  | some v => simp [CacheState.arm, CacheState.held, hm]
  | none => simp [CacheState.loaded, CacheState.held, hm, hl, Load.value] at hk

theorem loaded_arm (hl : s.load = .reading key rest tryTime) {k : Bytes} (hk : s.loaded k) :
    (s.arm key value rest).loaded k := by
  rw [CacheState.loaded, held_arm hl hk]
  exact hk

theorem loaded_arm_self (s : CacheState) (key value : Bytes) (rest : List Bytes) :
    (s.arm key value rest).loaded key := by
  simp [CacheState.arm, CacheState.loaded, CacheState.held, Load.value]

/-- What is loaded now and was not is the key. -/
theorem eq_of_loaded_arm {k : Bytes} (hk : (s.arm key value rest).loaded k) (hold : ¬ s.loaded k) :
    k = key ∧ s.configMap key = none := by
  cases hm : s.configMap k with
  | some v => exact absurd (by simp [CacheState.loaded, CacheState.held, hm]) hold
  | none =>
    by_cases hkk : key = k
    · exact ⟨hkk.symm, hkk ▸ hm⟩
    · simp [CacheState.arm, CacheState.loaded, CacheState.held, hm, Load.value, hkk] at hk

/-- The callback cannot be about to store a key that nobody has read. -/
theorem CacheInv.current_arm (hi : CacheInv s) (hm : s.configMap key = none)
    (hold : ¬ s.loaded key) : (s.arm key value rest).current key = some value := by
  unfold CacheState.current
  split
  · rename_i k v hc
    split
    · rename_i hkk
      subst hkk
      exact absurd (hi.storing k v hc) hold
    · simp [CacheState.arm, CacheState.held, hm, Load.value]
  · simp [CacheState.arm, CacheState.held, hm, Load.value]
  · simp [CacheState.arm, CacheState.held, hm, Load.value]

/-- The load reads a key and arms its watch. -/
theorem CacheInv.arm (hi : CacheInv s) (hl : s.load = .reading key rest tryTime)
    (hnode : s.nodes (s.path key) = some value) : CacheInv (s.arm key value rest) := by
  have hne : s.configRootPath ≠ [] := hi.root_ne (by simp [hl])
  have hname : 0 ∉ key := hi.todo key (by simp [hl, Load.todo])
  exact { hi with
    before := fun hr => absurd hr hne
    todo := fun k hk => hi.todo k (by simpa [CacheState.arm, hl, Load.todo] using hk)
    loadedName := fun k hk => by
      by_cases hold : s.loaded k
      · exact hi.loadedName k hold
      · rw [(eq_of_loaded_arm hk hold).1]
        exact hname
    progress := by
      rcases hi.progress with hb | ⟨ret, hd, -⟩ | hp
      · simp [hl] at hb
      · simp [hl] at hd
      · refine .inr (.inr fun k hc => (hp k hc).imp_right fun ht => ?_)
        simpa [CacheState.arm, hl, Load.todo] using ht
    watched := fun p hp => by
      by_cases he : p = s.path key
      · exact ⟨key, loaded_arm_self s key value rest, he⟩
      · have hp : Function.update s.armed (s.path key) true p = true ∨ s.changed p = true ∨
            s.pending p := hp
        rw [Function.update_of_ne he] at hp
        obtain ⟨k, hk, h⟩ := hi.watched p hp
        exact ⟨k, loaded_arm hl hk, h⟩
    reading := fun p k hcb hcheck => by
      obtain ⟨hk, he⟩ := hi.reading p k hcb hcheck
      exact ⟨loaded_arm hl hk, he⟩
    storing := fun k v hcb => loaded_arm hl (hi.storing k v hcb)
    fresh := fun k hk => by
      by_cases hold : s.loaded k
      · refine (hi.fresh k hold).imp_right fun hcur => ?_
        simp only [CacheState.current, held_arm hl hold]
        exact hcur
      · obtain ⟨rfl, hm⟩ := eq_of_loaded_arm hk hold
        exact .inr ((hi.current_arm hm hold).trans hnode.symm)
    called := fun k hk hch => by
      by_cases hold : s.loaded k
      · exact hi.called k hold hch
      · obtain ⟨rfl, -⟩ := eq_of_loaded_arm hk hold
        obtain ⟨k', hk', he⟩ := hi.watched _ (.inr (.inl hch))
        have := loadPath_injective hname (hi.loadedName k' hk') he
        exact absurd (this ▸ hk') hold
    seen := fun k hk => by
      by_cases he : s.path k = s.path key
      · left
        show Function.update s.armed (s.path key) true (s.path k) = true
        rw [he, Function.update_self]
      · have hold : s.loaded k := by
          by_contra hno
          exact he (by rw [(eq_of_loaded_arm hk hno).1])
        refine (hi.seen k hold).imp_left fun ha => ?_
        show Function.update s.armed (s.path key) true (s.path k) = true
        rwa [Function.update_of_ne he] }

end

theorem CacheInv.loadGet (hi : CacheInv s) {reply : Reply Unit} (hseen : Seen s (.loadGet reply))
    (h : s.next colonyNum (.loadGet reply) = some s') : CacheInv s' := by
  simp only [CacheState.next] at h
  cases hl : s.load with
  | reading key rest tryTime =>
    have hne : s.configRootPath ≠ [] := hi.root_ne (by simp [hl])
    have hheld : ∀ {load : Load}, (∀ k, load.value k = none) →
        ∀ k, (s.configMap k).or (load.value k) = s.held k := by
      intro load hload k
      simp [CacheState.held, hload, hl]
    simp only [hl] at h
    cases reply with
    | ok a =>
      simp only at h
      split at h
      · cases h
      · rename_i value hget
        cases h
        simp only [Seen, hl] at hseen
        rw [cfgString_eq (hseen.2 value hget)]
        refine hi.arm hl ?_
        unfold CacheState.zooGet at hget
        split at hget
        · cases hget
        · exact hget
    | loss =>
      simp only at h
      split at h
      · cases h
        refine hi.setLoad hne (hheld fun _ => rfl) ?_ ?_
        · simpa [hl, Load.todo] using hi.todo
        · simpa [hl, Load.todo] using hi.progress
      · cases h
        exact hi.setLoad hne (hheld fun _ => rfl) (by simp [Load.todo])
          (.inr (.inl ⟨_, rfl, by decide⟩))
    | error code =>
      simp only at h
      split at h
      · cases h
      · rename_i hcode
        cases h
        exact hi.setLoad hne (hheld fun _ => rfl) (by simp [Load.todo])
          (.inr (.inl ⟨_, rfl, hcode⟩))
  | before => simp [hl] at h
  | got key value rest => simp [hl] at h
  | done ret => simp [hl] at h

theorem CacheInv.loadInsert (hi : CacheInv s) (h : s.next colonyNum .loadInsert = some s') :
    CacheInv s' := by
  simp only [CacheState.next] at h
  cases hl : s.load with
  | got key value rest =>
    have hne : s.configRootPath ≠ [] := hi.root_ne (by simp [hl])
    have htodo : ∀ k ∈ (Load.start rest).todo, 0 ∉ k := by
      intro k hk
      rw [Load.todo_start] at hk
      exact hi.todo k (by simp [hl, Load.todo, hk])
    have hprogress : ∀ k ∈ s.children, s.configMap k ≠ none ∨ k = key ∨ k ∈ rest := by
      rcases hi.progress with hb | ⟨ret, hd, -⟩ | hp
      · simp [hl] at hb
      · simp [hl] at hd
      · simpa [hl, Load.todo] using hp
    simp only [hl] at h
    cases hm : s.configMap key with
    | none =>
      simp only [hm, Option.some.injEq] at h
      rw [← h]
      refine hi.setLoad hne (fun k => ?_) htodo (.inr (.inr fun k hk => ?_))
      · by_cases hkk : k = key
        · simp [CacheState.held, hl, hkk, hm]
        · simp [CacheState.held, hl, hkk, Ne.symm hkk]
      · rw [Load.todo_start]
        by_cases hkk : k = key
        · simp [hkk]
        · simpa [hkk] using hprogress k hk
    | some old =>
      simp only [hm, Option.some.injEq] at h
      rw [← h]
      refine hi.setLoad hne (fun k => ?_) htodo (.inr (.inr fun k hk => ?_))
      · by_cases hkk : key = k
        · simp [CacheState.held, ← hkk, hm]
        · simp [CacheState.held, hl, hkk]
      · rw [Load.todo_start]
        rcases hprogress k hk with hin | rfl | hin
        · exact .inl hin
        · exact .inl (by simp [hm])
        · exact .inr hin
  | before => simp [hl] at h
  | reading key rest tryTime => simp [hl] at h
  | done ret => simp [hl] at h

/-- `zookLoadAllConfig` begins: nothing has been read. -/
theorem CacheInv.begin (hi : CacheInv s) (hroot : s.configRootPath = []) {configPath : Bytes}
    (hpath : 0 ∉ configPath) (hne : configPath ≠ []) {children : List Bytes} {load : Load}
    (hvalue : ∀ key, load.value key = none) (htodo : ∀ key ∈ load.todo, 0 ∉ key)
    (hprogress : (∃ ret, load = .done ret ∧ ret ≠ 0) ∨ ∀ key ∈ children, key ∈ load.todo) :
    CacheInv { s with configRootPath := configPath, children, load } := by
  obtain ⟨hl, hm, ha, he, hc⟩ := hi.before hroot
  have hno : ∀ key, ¬ s.loaded key := by
    intro key
    simp [CacheState.loaded, CacheState.held, hm, hl, Load.value]
  have hch : ∀ path, s.changed path = false := by
    intro path
    cases hp : s.changed path with
    | false => rfl
    | true =>
      obtain ⟨key, hk, -⟩ := hi.watched path (.inr (.inl hp))
      exact absurd hk (hno key)
  have hnew : ∀ key, ¬ CacheState.loaded { s with
      configRootPath := configPath, children, load } key := by
    intro key
    simp [CacheState.loaded, CacheState.held, hm, hvalue]
  exact {
    root := hpath
    before := fun hr => absurd hr hne
    todo := htodo
    loadedName := fun key hk => absurd hk (hnew key)
    progress := .inr (hprogress.imp_right fun h key hk => .inr (h key hk))
    watched := fun p hp => by simp [ha, hch, CacheState.pending, he, hc] at hp
    reading := fun p key hcb => by simp [hc] at hcb
    storing := fun key v hcb => by simp [hc] at hcb
    fresh := fun key hk => absurd hk (hnew key)
    called := fun key hk => absurd hk (hnew key)
    seen := fun key hk => absurd hk (hnew key) }

theorem CacheInv.zookLoadAllConfig (hi : CacheInv s) {configPath : Bytes}
    {reply : Reply (List Bytes)} (hseen : Seen s (.zookLoadAllConfig configPath reply))
    (h : s.next colonyNum (.zookLoadAllConfig configPath reply) = some s') : CacheInv s' := by
  simp only [CacheState.next] at h
  split at h
  · cases h
    exact hi
  · rename_i hne
    split at h
    · cases h
      exact hi
    · rename_i hroot
      have hroot : s.configRootPath = [] := not_not.mp hroot
      split at h
      · rename_i hcheck
        cases h
        refine hi.begin hroot hseen hne (fun _ => rfl) (by simp [Load.todo])
          (.inl ⟨_, rfl, fun h0 => ?_⟩)
        rw [zookeeperPathCheck_le_zero hcheck] at h0
        exact absurd h0 (by decide)
      · cases reply with
        | ok children =>
          simp only at h
          split at h
          · rename_i hnames
            cases h
            refine hi.begin hroot hseen hne (fun key => Load.value_start _ _) ?_ (.inr ?_)
            · simpa using hnames
            · simp
          · cases h
        | loss =>
          cases h
          exact hi.begin hroot hseen hne (fun _ => rfl) (by simp [Load.todo])
            (.inl ⟨_, rfl, by decide⟩)
        | error code =>
          simp only at h
          split at h
          · cases h
          · rename_i hcode
            cases h
            exact hi.begin hroot hseen hne (fun _ => rfl) (by simp [Load.todo])
              (.inl ⟨_, rfl, hcode⟩)

/-- Every step that meets the condition keeps the invariant. -/
theorem CacheInv.next (hi : CacheInv s) {a : CacheAct} (hseen : Seen s a)
    (h : s.next colonyNum a = some s') : CacheInv s' := by
  cases a with
  | zookLoadAllConfig configPath reply => exact hi.zookLoadAllConfig hseen h
  | loadGet reply => exact hi.loadGet hseen h
  | loadInsert => exact hi.loadInsert h
  | set path value =>
    simp only [CacheState.next] at h
    split at h
    · cases h
      exact hi
    · rename_i old hnode
      cases h
      exact hi.set hnode hseen
  | deliver => exact hi.deliver h
  | get => exact hi.get hseen h
  | store => exact hi.store hseen h

theorem CacheInv.follows (hi : CacheInv s) : Follows s := by
  intro hdone hev hidle key hkey
  have hno : ∀ p, ¬ s.pending p := by
    intro p
    simp [CacheState.pending, hev, hidle]
  obtain ⟨value, hv⟩ : ∃ value, s.configMap key = some value := by
    rcases hi.progress with hb | ⟨ret, hd, hret⟩ | hp
    · simp [hdone] at hb
    · rw [hdone] at hd
      cases hd
      exact absurd rfl hret
    · rcases hp key hkey with hm | ht
      · exact Option.ne_none_iff_exists'.mp hm
      · simp [hdone, Load.todo] at ht
  have hloaded : s.loaded key := by simp [CacheState.loaded, CacheState.held, hv]
  have hnode : s.nodes (s.path key) = some value := by
    have hcur := (hi.fresh key hloaded).resolve_left (hno _)
    rw [← hcur, CacheState.current, hidle]
    simp [CacheState.held, hv]
  refine ⟨value, hv, hnode, fun hch => ?_⟩
  have hann := (hi.called key hloaded hch).resolve_left (hno _)
  rw [← hnode, ← hann, CacheState.announced, hidle]

end

/-- In every run whose steps meet the condition: with no event on its way the map has the value of
every node, and `configCb` was called with it. -/
theorem cache_follows (colonyNum : Nat) (nodes : Bytes → Option Bytes) (s : CacheState)
    (h : ((cacheSystem colonyNum nodes).only Seen).Reach s) : Follows s :=
  (Sys.Reach.inv_only (init_cacheInv nodes) (fun _ _ _ hi hc hs => hi.next hc hs) h).follows

/-- `/c/k` with the value 1. -/
def nodeK : Bytes → Option Bytes := Function.update (fun _ => none) [47, 99, 47, 107] (some [49])

/-- The load of `/c`, and a change to 2 that the callback sees. -/
def oneChange : List CacheAct :=
  [.zookLoadAllConfig [47, 99] (.ok [[107]]), .loadGet (.ok ()), .loadInsert,
    .set [47, 99, 47, 107] [50], .deliver, .get, .store]

theorem cache_follows_oneChange : ∃ s, ((cacheSystem 1 nodeK).only Seen).run
    (cacheSystem 1 nodeK).init oneChange = some s ∧ s.getConfigKeyValue [107] = some [50] ∧
    Follows s :=
  ⟨_, rfl, rfl, cache_follows 1 nodeK _ (Sys.Reach.init.run oneChange rfl)⟩

/-- A second change, to 3, comes when the watch has fired: the map keeps 2. -/
theorem second_change_lost : ¬ ∀ colonyNum nodes s, (cacheSystem colonyNum nodes).Reach s →
    Follows s := by
  intro h
  obtain ⟨s, hrun⟩ : ∃ s, (cacheSystem 1 nodeK).run (cacheSystem 1 nodeK).init
      (oneChange ++ [.set [47, 99, 47, 107] [51]]) = some s := ⟨_, rfl⟩
  have hf := h 1 nodeK s (Sys.Reach.init.run _ hrun)
  cases hrun
  obtain ⟨value, hmap, hnode, -⟩ := hf rfl rfl rfl [107] (.head _)
  have hmap : some value = some [50] := hmap.symm.trans rfl
  have hnode : some value = some [51] := hnode.symm.trans rfl
  exact absurd (hmap.symm.trans hnode) (by decide)

end Zookconfig
end CmakeFrame
