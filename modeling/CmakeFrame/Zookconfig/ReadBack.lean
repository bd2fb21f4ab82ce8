import CmakeFrame.Zookconfig.Client
import CmakeFrame.Zookconfig.CreateOrUpdate

/-!
# Values that are written and read back

`zookGetPathValue`, `loadAllKeyValue` and `configUpdateCallBack` read a node into `char cfg[1024]`,
put a 0 behind the bytes that came and take the C string. `zoo_get` gives at most 1024 bytes.

* `Zookeeper.zooGet`, `zookGetPathValue`, `configUpdateCallBack`: `none` is a write behind a buffer.
* `Answered`: what a call of `zoo_get` may give for a path.
* `getPathValue_iff`, `loadAllKeyValue_iff`, `configUpdate_iff`: when each of them gives the value
  that it should. `values_read_back_iff`: all three, behind `createForeverPath`.
* `value_not_read_back`: a value of 1024 bytes, a value with a 0, and a read that fails.
-/

namespace CmakeFrame
namespace Zookconfig

open Lib

/-- `zoo_get`. A null value has the length -1, and is read like an empty one. -/
def Zookeeper.zooGet (z : Zookeeper) (nodes : Nodes) (path : Bytes) : Reply Bytes :=
  if ¬ z.accepts path then .error ZBADARGUMENTS
  else match nodes path with
    | none => .error ZNONODE
    | some node => .ok (node.value.getD [])

/-- The code and the value behind the call. `value` is what the caller's string holds before. -/
def zookGetPathValue (w : Situation) (replies : Nat → Reply Bytes) (getPath value : Bytes) :
    Option (Int × Bytes) :=
  if zookeeperPathCheck getPath ≤ 0 then some (zookeeperPathCheck getPath, value)
  else if ¬ w.zkHandle then some (ZOOK_CONFIG_NO_INIT, value)
  else if ¬ PathFits (cstr getPath) then none
  else match retry w.colonyNum replies with
    | .error code => some (code, value)
    | .loss => some (ZCONNECTIONLOSS, value)
    | .ok v => if ¬ ValueFits v then none else some (ZOK, cfgString v)

/-- The map behind the callback, and the call of `configCb`. The only call of `zoo_get` is not
checked: when it fails, `len` is still 1024. -/
def configUpdateCallBack (s : ZookConfig) (key : Bytes) (reply : Reply Bytes) :
    Option ((Bytes → Option Bytes) × Option ConfigCall) :=
  if ¬ PathFits (childPath s.configRootPath key) then none
  else match s.configMap key with
    | none => some (s.configMap, none)
    | some oldValue =>
      match reply with
      | .loss | .error _ => none
      | .ok value =>
        if ¬ ValueFits value then none
        else some (Function.update s.configMap key (some (cfgString value)),
          some ⟨key, oldValue, cfgString value⟩)

/-- A call of `zoo_get` for `path` reads the node, or fails. -/
def Answered (z : Zookeeper) (nodes : Nodes) (path : Bytes) (reply : Reply Bytes) : Prop :=
  reply = z.zooGet nodes path ∨ reply = .loss ∨ ∃ code, code ≠ ZOK ∧ reply = .error code

/-- Zookeeper refuses a path with an empty first name. -/
def RefusesEmpty (z : Zookeeper) : Prop := ∀ rest, z.accepts (47 :: 47 :: rest) = false

/-! ## What a caller should get -/

/-- The call gives `v`, or another code than `ZOK`. -/
def ReadExactly (v : Bytes) : Option (Int × Bytes) → Prop
  | none => False
  | some (ret, value) => ret = ZOK → value = v

/-- The key has the value `v`, or the load gives another code than 0. -/
def LoadedExactly (key v : Bytes) : Option ((Bytes → Option Bytes) × Int) → Prop
  | none => False
  | some (m, ret) => ret = 0 → m key = some v

/-- A read that succeeds gives a key of the map the value `v`, and `configCb` too. One that fails
changes nothing. -/
def UpdatedExactly (s : ZookConfig) (key : Bytes) (reply : Reply Bytes) (v : Bytes) :
    Option ((Bytes → Option Bytes) × Option ConfigCall) → Prop
  | none => False
  | some (m, call) =>
    match reply with
    | .ok _ => ∀ oldValue, s.configMap key = some oldValue →
        m key = some v ∧ call = some ⟨key, oldValue, v⟩
    | .loss | .error _ => m = s.configMap

/-! ## The condition -/

/-- All children are read. -/
def AllRead (colonyNum : Nat) (children : List Child) : Prop :=
  ∀ c ∈ children, ∃ value, retry colonyNum c.replies = .ok value

/-- Every child that the load comes to has room in the buffers. -/
def KeysFit (colonyNum : Nat) (rootPath : Bytes) (children : List Child) : Prop :=
  ∀ before c after, children = before ++ c :: after → AllRead colonyNum before →
    PathFits (loadPath rootPath c.name) ∧
      ∀ value, retry colonyNum c.replies = .ok value → ValueFits value

/-- The condition of `zookGetPathValue`. -/
def GetFits (w : Situation) (replies : Nat → Reply Bytes) (getPath v : Bytes) : Prop :=
  w.zkHandle = true → PathFits (cstr getPath) ∧ (retry w.colonyNum replies = .ok v → ReadsBack v)

/-- The condition of `loadAllKeyValue`. -/
def LoadFits (w : Situation) (rootPath v : Bytes) : Prop :=
  0 < zookeeperPathCheck rootPath → w.zkHandle = true →
    retry w.colonyNum w.service.getChildren = .ok () →
      KeysFit w.colonyNum rootPath w.service.children ∧
        (AllRead w.colonyNum w.service.children → 0 ∉ v)

/-- The condition of `configUpdateCallBack`: a key of the map is read. -/
def UpdateFits (s : ZookConfig) (key : Bytes) (reply : Reply Bytes) (v : Bytes) : Prop :=
  PathFits (childPath s.configRootPath key) ∧
    (s.configMap key ≠ none → reply = .ok v ∧ ReadsBack v)

/-! ## One value -/

theorem readsBack_iff {value : Bytes} (h : ValueFits value) :
    cfgString value = value ↔ ReadsBack value := by
  constructor
  · intro heq
    refine ⟨h, fun hz => ?_⟩
    have hlt : value.length < 1024 := h
    rw [cfgString, List.take_of_length_le (by omega)] at heq
    exact zero_notMem_cstr value (heq.symm ▸ hz)
  · exact cfgString_eq

section

variable {z : Zookeeper} {nodes : Nodes} {path v : Bytes} {s : ZookConfig} {w : Situation}

theorem Answered.ok {reply : Reply Bytes} (h : Answered z nodes path reply) {node : Node}
    (hnode : nodes path = some node) (hvalue : node.value = some v) {x : Bytes}
    (hx : reply = .ok x) : x = v := by
  rcases h with h | h | ⟨code, -, h⟩
  · rw [h, Zookeeper.zooGet] at hx
    split at hx
    · cases hx
    · rw [hnode] at hx
      simp only [hvalue, Option.getD_some, Reply.ok.injEq] at hx
      exact hx.symm
  · rw [h] at hx
    cases hx
  · rw [h] at hx
    cases hx

/-! ## `zookGetPathValue` -/

theorem getPathValue_iff {replies : Nat → Reply Bytes} {getPath : Bytes}
    (hcheck : 0 < zookeeperPathCheck getPath) (hcodes : retry w.colonyNum replies ≠ .error ZOK)
    (hreply : ∀ x, retry w.colonyNum replies = .ok x → x = v) (value : Bytes) :
    ReadExactly v (zookGetPathValue w replies getPath value) ↔ GetFits w replies getPath v := by
  rw [zookGetPathValue, if_neg (by omega), GetFits]
  by_cases hhandle : w.zkHandle = true
  · rw [if_neg (not_not.mpr hhandle)]
    by_cases hfits : PathFits (cstr getPath)
    · rw [if_neg (not_not.mpr hfits)]
      cases hr : retry w.colonyNum replies with
      | loss => simp [ReadExactly, hhandle, hfits, ZOK, ZCONNECTIONLOSS]
      | error code =>
        have hcode : code ≠ ZOK := fun heq => hcodes (by rw [hr, heq])
        simp [ReadExactly, hhandle, hfits, hcode]
      | ok x =>
        obtain rfl := hreply x hr
        by_cases hx : ValueFits x
        · simp [ReadExactly, hhandle, hfits, hx, readsBack_iff hx]
        · simp [ReadExactly, hhandle, hx, ReadsBack]
    · rw [if_pos hfits]
      simp [ReadExactly, hhandle, hfits]
  · rw [if_pos hhandle]
    simp [ReadExactly, hhandle, ZOOK_CONFIG_NO_INIT, ZOK]

/-! ## `loadAllKeyValue` -/

section

variable {colonyNum : Nat} {rootPath : Bytes} {c : Child} {children : List Child}
  {m m' : Bytes → Option Bytes}

theorem keysFit_cons : KeysFit colonyNum rootPath (c :: children) ↔
    PathFits (loadPath rootPath c.name) ∧ ∀ value, retry colonyNum c.replies = .ok value →
      ValueFits value ∧ KeysFit colonyNum rootPath children := by
  constructor
  · intro h
    obtain ⟨hpath, hvalue⟩ := h [] c children rfl (by simp [AllRead])
    refine ⟨hpath, fun value hr => ⟨hvalue value hr, fun before d after heq hread => ?_⟩⟩
    refine h (c :: before) d after (by rw [heq]; rfl) fun e he => ?_
    rcases List.mem_cons.mp he with rfl | he
    · exact ⟨value, hr⟩
    · exact hread e he
  · rintro ⟨hpath, hrest⟩ before d after heq hread
    cases before with
    | nil =>
      cases heq
      exact ⟨hpath, fun value hr => (hrest value hr).1⟩
    | cons e before =>
      cases heq
      obtain ⟨value, hr⟩ := hread c (.head _)
      exact (hrest value hr).2 before d after rfl fun e he => hread e (.tail _ he)

theorem loadKeys_isSome_iff : (loadKeys colonyNum rootPath children m).isSome ↔
    KeysFit colonyNum rootPath children := by
  induction children generalizing m with
  | nil => simp [loadKeys, KeysFit]
  | cons c children ih =>
    rw [keysFit_cons, loadKeys]
    by_cases hpath : PathFits (loadPath rootPath c.name)
    · rw [if_neg (not_not.mpr hpath)]
      cases hr : retry colonyNum c.replies with
      | loss => simp [hpath]
      | error code => simp [hpath]
      | ok value => by_cases hvalue : ValueFits value <;> simp [hpath, hvalue, ih]
    · simp [hpath]

/-- What the first turn can do: read a value and go on, or give up with the map as it is. -/
theorem loadKeys_cons_cases {ret : Int}
    (h : loadKeys colonyNum rootPath (c :: children) m = some (m', ret)) :
    (∃ value, retry colonyNum c.replies = .ok value ∧
      loadKeys colonyNum rootPath children (insertConfig m c.name (cfgString value)) =
        some (m', ret)) ∨
    m' = m ∧ (retry colonyNum c.replies = .error ret ∨
      retry colonyNum c.replies = .loss ∧ ret = ZCONNECTIONLOSS) := by
  rw [loadKeys] at h
  split at h
  · cases h
  · cases hr : retry colonyNum c.replies with
    | loss =>
      rw [hr] at h
      cases h
      exact .inr ⟨rfl, .inr ⟨rfl, rfl⟩⟩
    | error code =>
      rw [hr] at h
      cases h
      exact .inr ⟨rfl, .inl rfl⟩
    | ok value =>
      simp only [hr] at h
      split at h
      · cases h
      · exact .inl ⟨value, rfl, h⟩

/-- The load gives 0 when all are read. -/
theorem loadKeys_zero_iff (hcodes : ∀ c ∈ children, retry colonyNum c.replies ≠ .error ZOK)
    {ret : Int} (h : loadKeys colonyNum rootPath children m = some (m', ret)) :
    ret = 0 ↔ AllRead colonyNum children := by
  induction children generalizing m with
  | nil =>
    cases h
    simp [AllRead]
  | cons c children ih =>
    rcases loadKeys_cons_cases h with ⟨value, hr, hrest⟩ | ⟨-, hr | ⟨hr, rfl⟩⟩
    · rw [ih (fun d hd => hcodes d (.tail _ hd)) hrest]
      simp [AllRead, hr]
    · have hcode : ret ≠ 0 := fun heq => hcodes c (.head _) (by rw [hr, heq]; rfl)
      simp [AllRead, hr, hcode]
    · simp [AllRead, hr, ZCONNECTIONLOSS]

theorem insertConfig_of_some {key old : Bytes} (h : m key = some old) (k value : Bytes) :
    insertConfig m k value key = some old := by
  rw [insertConfig, h]

theorem insertConfig_self {key : Bytes} (h : m key = none) (value : Bytes) :
    insertConfig m key value key = some value := by
  rw [insertConfig, h]
  exact if_pos rfl

theorem insertConfig_of_ne {key k : Bytes} (h : key ≠ k) (value : Bytes) :
    insertConfig m k value key = m key := by
  unfold insertConfig
  cases hm : m key <;> simp [h]

/-- A key that is there keeps its value. -/
theorem loadKeys_keeps {key old : Bytes} (hold : m key = some old) {ret : Int}
    (h : loadKeys colonyNum rootPath children m = some (m', ret)) : m' key = some old := by
  induction children generalizing m with
  | nil =>
    cases h
    exact hold
  | cons c children ih =>
    rcases loadKeys_cons_cases h with ⟨value, -, hrest⟩ | ⟨rfl, -⟩
    · exact ih (insertConfig_of_some hold ..) hrest
    · exact hold

/-- A child that is read gives its key the string of its value. -/
theorem loadKeys_value (hnames : (children.map Child.name).Nodup) (hc : c ∈ children)
    (hnew : m c.name = none) (hr : retry colonyNum c.replies = .ok v)
    (hread : AllRead colonyNum children) {ret : Int}
    (h : loadKeys colonyNum rootPath children m = some (m', ret)) :
    m' c.name = some (cfgString v) := by
  induction children generalizing m with
  | nil => cases hc
  | cons d children ih =>
    obtain ⟨hd, hnames⟩ := List.nodup_cons.mp hnames
    obtain ⟨value, hvalue⟩ := hread d (.head _)
    rcases loadKeys_cons_cases h with ⟨x, hx, hrest⟩ | ⟨-, hx | ⟨hx, -⟩⟩
    · rcases List.mem_cons.mp hc with rfl | hc
      · rw [hr] at hx
        cases hx
        exact loadKeys_keeps (insertConfig_self hnew _) hrest
      · have hne : c.name ≠ d.name := fun heq => hd (heq ▸ List.mem_map_of_mem hc)
        exact ih hnames hc (by rwa [insertConfig_of_ne hne])
          (fun e he => hread e (.tail _ he)) hrest
    · rw [hvalue] at hx
      cases hx
    · rw [hvalue] at hx
      cases hx

/-- The load of a client that has loaded nothing before. -/
theorem loadAllKeyValue_iff (hnames : (w.service.children.map Child.name).Nodup)
    (hcodes : ∀ c ∈ w.service.children, retry w.colonyNum c.replies ≠ .error ZOK)
    (hchildren : retry w.colonyNum w.service.getChildren ≠ .error ZOK)
    (hc : c ∈ w.service.children) (hreply : ∀ x, retry w.colonyNum c.replies = .ok x → x = v) :
    LoadedExactly c.name v (loadAllKeyValue w rootPath fun _ => none) ↔ LoadFits w rootPath v := by
  rw [loadAllKeyValue, LoadFits]
  by_cases hcheck : zookeeperPathCheck rootPath ≤ 0
  · have hne : zookeeperPathCheck rootPath ≠ 0 := by
      rw [zookeeperPathCheck_le_zero hcheck]
      decide
    rw [if_pos hcheck]
    exact iff_of_true (fun h => absurd h hne) fun h => absurd h (by omega)
  · rw [if_neg hcheck]
    by_cases hhandle : w.zkHandle = true
    · rw [if_neg (not_not.mpr hhandle)]
      cases hget : retry w.colonyNum w.service.getChildren with
      | loss => simp [LoadedExactly, ZCONNECTIONLOSS]
      | error code =>
        have hcode : code ≠ 0 := fun heq => hchildren (by rw [hget, heq]; rfl)
        simp [LoadedExactly, hcode]
      | ok _ =>
        simp only [hhandle, forall_const, show 0 < zookeeperPathCheck rootPath by omega]
        rw [← loadKeys_isSome_iff (m := fun _ => none)]
        cases hload : loadKeys w.colonyNum rootPath w.service.children fun _ => none with
        | none => simp [LoadedExactly]
        | some r =>
          obtain ⟨m', ret⟩ := r
          simp only [LoadedExactly, Option.isSome_some, true_and, loadKeys_zero_iff hcodes hload]
          refine forall_congr' fun hread => ?_
          obtain ⟨x, hx⟩ := hread c hc
          obtain rfl := hreply x hx
          have hfits : ValueFits x := by
            have hkeys := loadKeys_isSome_iff.mp (Option.isSome_iff_exists.mpr ⟨_, hload⟩)
            obtain ⟨before, after, heq⟩ := List.append_of_mem hc
            refine (hkeys before c after heq fun d hd => hread d ?_).2 x hx
            rw [heq]
            exact List.mem_append_left _ hd
          rw [loadKeys_value hnames hc rfl hx hread hload, Option.some_inj, readsBack_iff hfits]
          exact and_iff_right hfits
    · rw [if_pos hhandle]
      simp [LoadedExactly, hhandle, ZOOK_CONFIG_NO_INIT]

end

/-! ## `configUpdateCallBack` -/

theorem configUpdate_iff {key : Bytes} {reply : Reply Bytes} (hreply : ∀ x, reply = .ok x → x = v) :
    UpdatedExactly s key reply v (configUpdateCallBack s key reply) ↔ UpdateFits s key reply v := by
  rw [configUpdateCallBack, UpdateFits]
  by_cases hfits : PathFits (childPath s.configRootPath key)
  · rw [if_neg (not_not.mpr hfits)]
    cases hm : s.configMap key with
    | none => cases reply <;> simp [UpdatedExactly, hfits, hm]
    | some oldValue =>
      cases reply with
      | loss => simp [UpdatedExactly]
      | error code => simp [UpdatedExactly]
      | ok x =>
        obtain rfl := hreply x rfl
        by_cases hx : ValueFits x
        · simp [UpdatedExactly, hfits, hm, hx, readsBack_iff hx]
        · simp [UpdatedExactly, hx, ReadsBack]
  · rw [if_pos hfits]
    simp [UpdatedExactly, hfits]

/-! ## Behind `createForeverPath` -/

theorem retry_ne_error {α : Type} {colonyNum : Nat} {replies : Nat → Reply α}
    (h : ∀ n, replies n ≠ .error ZOK) : retry colonyNum replies ≠ .error ZOK := by
  obtain ⟨n, hn⟩ : ∃ n, retry colonyNum replies = replies n := retry_eq colonyNum
  rw [hn]
  exact h n

theorem Answered.ne_error {reply : Reply Bytes} (h : Answered z nodes path reply) :
    reply ≠ .error ZOK := by
  rcases h with rfl | rfl | ⟨code, hcode, rfl⟩
  · unfold Zookeeper.zooGet
    split
    · simp [ZOK, ZBADARGUMENTS]
    · split <;> simp [ZOK, ZNONODE]
  · simp
  · simpa using hcode

theorem Answered.retry_ok {colonyNum : Nat} {replies : Nat → Reply Bytes}
    (h : ∀ n, Answered z nodes path (replies n)) {node : Node} (hnode : nodes path = some node)
    (hvalue : node.value = some v) (x : Bytes) (hx : retry colonyNum replies = .ok x) : x = v := by
  obtain ⟨n, hn⟩ : ∃ n, retry colonyNum replies = replies n := retry_eq colonyNum
  exact (h n).ok hnode hvalue (hn ▸ hx)

/-- The leaf behind a call that gave `ZOK`. -/
theorem run_leaf {c : CreateCall} (h : (c.run z nodes).2 = ZOK) :
    1 < zookeeperPathCheck c.path ∧
      ∃ node, (c.run z nodes).1 c.leaf = some node ∧ node.value = some c.value := by
  have hcheck : 1 < zookeeperPathCheck c.path := by
    by_contra hle
    rw [CreateCall.run] at h
    split at h
    · rename_i hneg
      have hcode : zookeeperPathCheck c.path = ZOK := h
      rw [zookeeperPathCheck_le_zero hneg] at hcode
      exact absurd hcode (by decide)
    · rw [if_pos (by omega)] at h
      have hcode : ZOOK_CONFIG_PARAMETER_ERROR = ZOK := h
      exact absurd hcode (by decide)
  refine ⟨hcheck, ?_⟩
  rw [(runs_of_run hcheck h).run hcheck]
  exact ⟨_, Function.update_self .., written_value c _⟩

/-- The callback asks for the path that the load has read, or for one that is refused. -/
theorem Answered.callback_ok (hrefuse : RefusesEmpty z) {key : Bytes} {reply : Reply Bytes}
    (h : Answered z nodes (childPath s.configRootPath key) reply) {node : Node}
    (hnode : nodes (loadPath s.configRootPath key) = some node) (hvalue : node.value = some v)
    (x : Bytes) (hx : reply = .ok x) : x = v := by
  by_cases hroot : zookeeperPathCheck s.configRootPath = 1
  · have hpath : z.accepts (childPath s.configRootPath key) = false := by
      rw [childPath, eq_slash_of_check hroot]
      exact hrefuse _
    rw [Answered, Zookeeper.zooGet, if_pos (by simp [hpath])] at h
    rw [hx] at h
    rcases h with h | h | ⟨_, -, h⟩ <;> cases h
  · rw [loadPath_eq_childPath hroot] at hnode
    exact h.ok hnode hvalue hx

end

/-- **Values are read back.** Behind a call for a path that gave `ZOK`: each of the three readers
gives the value that was written or an error, and writes inside of its buffers, exactly when the
paths are shorter than 512 bytes, a value that is read is shorter than 1024 and the value has no 0;
and a key of the map must be read, or the callback writes behind the buffer. -/
theorem values_read_back_iff (z : Zookeeper) (nodes : Nodes) (c : CreateCall)
    (hrefuse : RefusesEmpty z) (hrun : (c.run z nodes).2 = ZOK) :
    (∀ w replies value, (∀ n, Answered z (c.run z nodes).1 c.leaf (replies n)) →
      (ReadExactly c.value (zookGetPathValue w replies c.path value) ↔
        GetFits w replies c.path c.value)) ∧
    (∀ (w : Situation) (rootPath : Bytes), ∀ child ∈ w.service.children,
      c.leaf = loadPath rootPath child.name → (w.service.children.map Child.name).Nodup →
      (∀ n, w.service.getChildren n ≠ .error ZOK) →
      (∀ d ∈ w.service.children, ∀ n,
        Answered z (c.run z nodes).1 (loadPath rootPath d.name) (d.replies n)) →
      (LoadedExactly child.name c.value (loadAllKeyValue w rootPath fun _ => none) ↔
        LoadFits w rootPath c.value)) ∧
    ∀ (s : ZookConfig) (key : Bytes) (reply : Reply Bytes),
      c.leaf = loadPath s.configRootPath key →
      Answered z (c.run z nodes).1 (childPath s.configRootPath key) reply →
      (UpdatedExactly s key reply c.value (configUpdateCallBack s key reply) ↔
        UpdateFits s key reply c.value) := by
  obtain ⟨hcheck, node, hnode, hvalue⟩ := run_leaf hrun
  refine ⟨fun w replies value h => ?_, fun w rootPath child hchild hleaf hnames hget h => ?_,
    fun s key reply hleaf h => ?_⟩
  · exact getPathValue_iff (by omega) (retry_ne_error fun n => (h n).ne_error)
      (Answered.retry_ok h hnode hvalue) value
  · refine loadAllKeyValue_iff hnames (fun d hd => retry_ne_error fun n => (h d hd n).ne_error)
      (retry_ne_error hget) hchild (Answered.retry_ok (h child hchild) ?_ hvalue)
    rw [← hleaf]
    exact hnode
  · exact configUpdate_iff (h.callback_ok hrefuse (hleaf ▸ hnode) hvalue)

/-- A server that refuses an empty first name. -/
def strictServer : Zookeeper := ⟨fun path => !([47, 47] : Bytes).isPrefixOf path, false⟩

theorem strictServer_refuses : RefusesEmpty strictServer := fun _ => rfl

/-- `createForeverPath("/a", value)`, in a zookeeper with nothing but the root. -/
def written (value : Bytes) : Nodes :=
  (CreateCall.run strictServer onlyRoot ⟨.createForeverPath, [47, 97], value⟩).1

/-- The only child of the root is `a`. -/
def onlyA (value : Bytes) : Situation := ⟨true, 1, ⟨[⟨[97], fun _ => .ok value⟩], fun _ => .ok ()⟩⟩

theorem answered_written (value : Bytes) :
    Answered strictServer (written value) [47, 97] (.ok value) :=
  .inl rfl

/-- The value 1 is read back, and an update to it that cannot be read is lost behind the buffer. -/
theorem values_read_back_one :
    ReadExactly [49] (zookGetPathValue (onlyA [49]) (fun _ => .ok [49]) [47, 97] []) ∧
    LoadedExactly [97] [49] (loadAllKeyValue (onlyA [49]) [47] fun _ => none) ∧
    ¬ UpdatedExactly ⟨[47], [], fun _ => some []⟩ [97] (.error ZBADARGUMENTS) [49]
      (configUpdateCallBack ⟨[47], [], fun _ => some []⟩ [97] (.error ZBADARGUMENTS)) := by
  obtain ⟨hget, hload, hupdate⟩ :=
    values_read_back_iff strictServer onlyRoot newPath strictServer_refuses rfl
  refine ⟨?_, ?_, ?_⟩
  · refine (hget (onlyA [49]) (fun _ => .ok [49]) [] fun _ => answered_written [49]).mpr ?_
    exact fun _ => ⟨by decide, fun _ => by decide⟩
  · refine (hload (onlyA [49]) [47] ⟨[97], _⟩ (.head _) rfl (by decide) (by simp [onlyA])
      fun d hd n => ?_).mpr fun _ _ _ => ⟨fun before d after heq _ => ?_, fun _ => by decide⟩
    · obtain rfl := List.mem_singleton.mp hd
      exact answered_written [49]
    · have hd : d ∈ (onlyA [49]).service.children := by simp [heq]
      obtain rfl := List.mem_singleton.mp hd
      refine ⟨by decide, fun value hvalue => ?_⟩
      cases hvalue
      decide
  · intro h
    have hfits := (hupdate ⟨[47], [], fun _ => some []⟩ [97] (.error ZBADARGUMENTS) rfl
      (.inl rfl)).mp h
    cases (hfits.2 (by simp)).1

/-- A value of 1024 bytes, whose end is written behind the buffer; a value that begins with a 0; and
a read that fails, behind which the callback writes behind the buffer. -/
theorem value_not_read_back :
    (¬ ∀ value w replies, (∀ n, Answered strictServer (written value) [47, 97] (replies n)) →
      ReadExactly value (zookGetPathValue w replies [47, 97] [])) ∧
    (¬ ∀ value, LoadedExactly [97] value (loadAllKeyValue (onlyA value) [47] fun _ => none)) ∧
    ¬ ∀ s value reply, s.configRootPath = [47] →
      Answered strictServer (written value) (childPath s.configRootPath [97]) reply →
        UpdatedExactly s [97] reply value (configUpdateCallBack s [97] reply) := by
  refine ⟨fun h => ?_, fun h => ?_, fun h => ?_⟩
  · obtain ⟨v, hv⟩ : ∃ v : Bytes, v.length = 1024 := ⟨_, List.length_replicate (a := 48)⟩
    have hlong := h v (onlyA v) (fun _ => .ok v) fun _ => answered_written v
    have hcodes : retry 1 (fun _ => Reply.ok v) ≠ .error ZOK := nofun
    have hread : ∀ x, retry 1 (fun _ => Reply.ok v) = .ok x → x = v :=
      fun x hx => (Reply.ok.inj hx).symm
    have hfits : GetFits (onlyA v) (fun _ => .ok v) [47, 97] v :=
      (getPathValue_iff (by decide) hcodes hread []).mp hlong
    have hlt : v.length < 1024 := ((hfits rfl).2 rfl).1
    omega
  · have hzero := h [0] rfl
    exact absurd hzero (by decide)
  · exact h ⟨[47], [], fun _ => some []⟩ [49] .loss rfl (.inr (.inl rfl))

end Zookconfig
end CmakeFrame
