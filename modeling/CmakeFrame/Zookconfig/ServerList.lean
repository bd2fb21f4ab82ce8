import CmakeFrame.Zookconfig.ZookConfig
import Mathlib.Data.List.ReduceOption

/-!
# `LoadTcpServerListInfo` and the callback of a child event

The load asks for the children of a path with a watch, reads each of them, and takes the values
apart at their colons. The callback hands the list to `serverCb`.

* `loadInfo`, `loadChild`, `loadChildren`, `LoadTcpServerListInfo`, `serverInfoChangeCallBack`:
  `none` is a write behind a buffer.
* `Live`: a child that is there for the whole load, with a value of the form `ip:port` or
  `ip:port:suffix`; `SeesAll`: what `serverCb` should be told.
* `Undisturbed`: the condition; `server_list_iff`: for all children and all replies.
-/

namespace CmakeFrame
namespace Zookconfig

open Lib

/-! ## The load -/

structure TcpServerInfo where
  gateNo : Int32
  port : Int16
  ipAddr : Bytes
  suffix : Bytes
  deriving DecidableEq, Repr

/-- A child, and what each call of `zoo_get` for it gives: an error when it is no longer there. -/
structure Child where
  name : Bytes
  replies : Nat → Reply Bytes

/-- What the load does with one child. -/
inductive ChildResult where
  | push (info : TcpServerInfo)
  /-- `continue` -/
  | skip
  /-- `return` -/
  | stop (code : Int)
  /-- A write behind `infoPath` or `infoCfg`. -/
  | overflow
  deriving DecidableEq, Repr

/-- `static_cast<uint16_t>(atoi(pServerPort))`, which the constructor takes as an `int16_t`. -/
def serverPort (text : Bytes) : Int16 := (atoi text).toUInt32.toUInt16.toInt16

/-- The value of a child, taken apart at its colons. -/
def loadInfo (name value : Bytes) : Option TcpServerInfo :=
  match utilFristChar value 58 with
  | none => none
  | some (serverIp, rest) =>
    match utilFristChar rest 58 with
    | none => some ⟨atoi name, serverPort rest, serverIp, []⟩
    | some (_, suffix) => some ⟨atoi name, serverPort rest, serverIp, suffix⟩

/-- One turn of the loop over the children. -/
def loadChild (colonyNum : Nat) (serverPath : Bytes) (c : Child) : ChildResult :=
  if ¬ PathFits (childPath serverPath c.name) then .overflow
  else match retry colonyNum c.replies with
    | .error code => .stop code
    | .loss => .skip
    | .ok value =>
      if value = [] then .skip
      else if ¬ ValueFits value then .overflow
      else match loadInfo c.name value with
        | none => .stop ZOOK_SERVER_INFO_ERROR
        | some info => .push info

/-- The list at the end of the loop, and the code that has ended it early. `added` is history: what
each of the children has added. -/
structure LoadedList where
  infoList : List TcpServerInfo
  added : List (Option TcpServerInfo)
  code : Option Int
  deriving DecidableEq, Repr

/-- The loop over the children. -/
def loadChildren (colonyNum : Nat) (serverPath : Bytes) : List Child → Option LoadedList
  | [] => some ⟨[], [], none⟩
  | c :: rest =>
    match loadChild colonyNum serverPath c with
    | .overflow => none
    | .stop code => some ⟨[], none :: rest.map fun _ => none, some code⟩
    | .skip =>
      match loadChildren colonyNum serverPath rest with
      | none => none
      | some r => some { r with added := none :: r.added }
    | .push info =>
      match loadChildren colonyNum serverPath rest with
      | none => none
      | some r => some { r with infoList := info :: r.infoList, added := some info :: r.added }

/-- The children that are registered when the load begins, and the replies to
`zoo_get_children`. -/
structure Service where
  children : List Child
  getChildren : Nat → Reply Unit

/-- What `LoadTcpServerListInfo` leaves behind: `armed` is whether `zoo_get_children` has armed the
watch. -/
structure LoadResult where
  infoList : List TcpServerInfo
  added : List (Option TcpServerInfo)
  ret : Int
  armed : Bool
  deriving DecidableEq, Repr

def LoadTcpServerListInfo (colonyNum : Nat) (serverPath : Bytes) (service : Service) :
    Option LoadResult :=
  match retry colonyNum service.getChildren with
  | .loss => some ⟨[], service.children.map fun _ => none, ZCONNECTIONLOSS, false⟩
  | .error code => some ⟨[], service.children.map fun _ => none, code, false⟩
  | .ok () =>
    match loadChildren colonyNum serverPath service.children with
    | none => none
    | some r => some ⟨r.infoList, r.added, r.code.getD r.infoList.length, true⟩

/-- What the callback of a child event does: the call of `serverCb`, with the list and the type. -/
structure ChildEvent where
  call : Option (List TcpServerInfo × Bytes)
  added : List (Option TcpServerInfo)
  armed : Bool
  deriving DecidableEq, Repr

/-- `serverCb` is whether the user has set one. -/
def serverInfoChangeCallBack (colonyNum : Nat) (serverCb : Bool) (path : Bytes)
    (service : Service) : Option ChildEvent :=
  if ¬ serverCb then some ⟨none, [], false⟩
  else match utilLastConstchar path 47 with
    | none => some ⟨none, [], false⟩
    | some svrType =>
      match LoadTcpServerListInfo colonyNum path service with
      | none => none
      | some r => some ⟨some (r.infoList, svrType), r.added, r.armed⟩

/-- `watcher` for a child event of `path`: one call for every registered path that it begins with.
-/
def watcherPaths (serverPathVector : List Bytes) (path : Bytes) : List Bytes :=
  serverPathVector.filter fun p => isBelow p path

/-! ## What the user should be told -/

/-- A server, as `createServerInfo` writes it. -/
structure Endpoint where
  ip : Bytes
  port : Nat
  suffix : Option Bytes
  deriving DecidableEq, Repr

namespace Endpoint

/-- What stands behind the port. -/
def tail (e : Endpoint) : Bytes :=
  match e.suffix with
  | none => []
  | some suffix => 58 :: suffix

/-- `ip:port` or `ip:port:suffix` -/
def text (e : Endpoint) : Bytes := e.ip ++ 58 :: (natDec e.port ++ e.tail)

/-- The colons and the end of the text can be found, and the port is one. -/
structure WellFormed (e : Endpoint) : Prop where
  ip : 58 ∉ e.ip
  zero : 0 ∉ e.ip ∧ 0 ∉ e.tail
  port : e.port < 65536

end Endpoint

/-- The entry of a child with the server `e`. -/
def TcpServerInfo.Describes (info : TcpServerInfo) (c : Child) (e : Endpoint) : Prop :=
  info.gateNo = atoi c.name ∧ info.ipAddr = e.ip ∧ info.port.toInt = e.port ∧
    info.suffix = e.suffix.getD []

/-- The child is there with the server `e` whenever it is read. -/
structure Live (c : Child) (e : Endpoint) : Prop where
  wellFormed : e.WellFormed
  replies : ∀ n, c.replies n = .ok e.text ∨ c.replies n = .loss

/-- Each live child has added its own entry. -/
def AllAdded (children : List Child) (added : List (Option TcpServerInfo)) : Prop :=
  ∀ (i : Nat) (c : Child) (e : Endpoint), children[i]? = some c → Live c e →
    ∃ info : TcpServerInfo, added[i]? = some (some info) ∧ info.Describes c e

/-- `serverCb` is called, the list is what the children have added one after another, each live
child has added its own entry, and the watch is armed. -/
def SeesAll (service : Service) (event : Option ChildEvent) : Prop :=
  ∃ r infoList svrType, event = some r ∧ r.call = some (infoList, svrType) ∧ r.armed = true ∧
    infoList = r.added.reduceOption ∧ r.added.length = service.children.length ∧
    AllAdded service.children r.added

/-! ## The condition -/

/-- The read of the child gives an error, or a value without a colon that is not empty. -/
def Aborts (colonyNum : Nat) (c : Child) : Prop :=
  match retry colonyNum c.replies with
  | .error _ => True
  | .loss => False
  | .ok value => value ≠ [] ∧ 58 ∉ cstr value

/-- The path and the value of the child have room in the buffers. -/
def Fits (colonyNum : Nat) (serverPath : Bytes) (c : Child) : Prop :=
  PathFits (childPath serverPath c.name) ∧
    ∀ value, retry colonyNum c.replies = .ok value → ValueFits value

/-- Every child that the load comes to fits, and a live one has no child that aborts before it, is
not lost `colonyNum` times, and has a port below 32768. -/
def Undisturbed (colonyNum : Nat) (serverPath : Bytes) (children : List Child) : Prop :=
  ∀ before c after, children = before ++ c :: after →
    ((∀ d ∈ before, ¬ Aborts colonyNum d) → Fits colonyNum serverPath c) ∧
    ∀ e, Live c e → (∀ d ∈ before, ¬ Aborts colonyNum d) ∧
      retry colonyNum c.replies ≠ .loss ∧ e.port < 32768

/-! ## One value -/

theorem utilFristChar_append {f r : Bytes} {c : UInt8} (hc : c ∉ f) (hf : 0 ∉ f) (hr : 0 ∉ r)
    (h0 : c ≠ 0) : utilFristChar (f ++ c :: r) c = some (f, r) := by
  have hz : (0 : UInt8) ∉ f ++ c :: r := by simp [hf, hr, h0.symm]
  unfold utilFristChar
  rw [cstr_eq_self hz]
  simp [findByte_append hc]

theorem utilFristChar_of_notMem {s : Bytes} {c : UInt8} (h : c ∉ cstr s) :
    utilFristChar s c = none := by
  unfold utilFristChar
  simp [findByte_eq_none.mpr h]

theorem utilFristChar_eq_none {s : Bytes} {c : UInt8} :
    utilFristChar s c = none ↔ c ∉ cstr s := by
  refine ⟨fun h => ?_, utilFristChar_of_notMem⟩
  unfold utilFristChar at h
  cases hf : findByte c (cstr s) with
  | none => exact findByte_eq_none.mp hf
  | some i => simp [hf] at h

namespace Endpoint

variable {e : Endpoint}

theorem endsNumber_tail (e : Endpoint) : EndsNumber e.tail := by
  unfold tail
  cases e.suffix with
  | none => simp [EndsNumber]
  | some suffix => exact endsNumber_cons (by decide)

/-- The number of the port is read, and kept in 16 bits with a sign. -/
theorem toInt_serverPort (h : e.WellFormed) :
    (serverPort (natDec e.port ++ e.tail)).toInt = Int.bmod e.port 65536 := by
  have hport := h.port
  have hdec : natDec e.port = intDec (Int32.ofInt e.port).toInt := by
    have hint : (Int32.ofInt e.port).toInt = e.port := by
      rw [Int32.toInt_ofInt]
      simp [Int.bmod]
      omega
    rw [hint, intDec, if_neg (by omega), Int.natAbs_natCast]
  have hu : (Int32.ofInt e.port).toUInt32 = UInt32.ofNat e.port := by
    rw [Int32.ofInt_eq_ofNat]
    rfl
  have hs : (UInt32.ofNat e.port).toUInt16 = UInt16.ofNat e.port := by
    apply UInt16.toNat_inj.mp
    simp
  rw [serverPort, hdec, atoi_intDec _ e.endsNumber_tail, hu, hs, UInt16.toInt16_ofNat',
    Int16.toInt_ofNat']

theorem toInt_serverPort_iff (h : e.WellFormed) :
    (serverPort (natDec e.port ++ e.tail)).toInt = e.port ↔ e.port < 32768 := by
  have hport := h.port
  rw [toInt_serverPort h]
  simp [Int.bmod]
  omega

theorem zero_notMem_rest (h : e.WellFormed) : 0 ∉ natDec e.port ++ e.tail := by
  simp [notMem_natDec (c := 0) (by decide), h.zero.2]

/-- The text of a server is taken apart again. -/
theorem loadInfo_text (h : e.WellFormed) (name : Bytes) : loadInfo name e.text =
    some ⟨atoi name, serverPort (natDec e.port ++ e.tail), e.ip, e.suffix.getD []⟩ := by
  have hrest := zero_notMem_rest h
  have hdec : (58 : UInt8) ∉ natDec e.port := notMem_natDec (by decide) _
  have hfirst : utilFristChar e.text 58 = some (e.ip, natDec e.port ++ e.tail) :=
    utilFristChar_append h.ip h.zero.1 hrest (by decide)
  unfold loadInfo
  rw [hfirst]
  cases hs : e.suffix with
  | none =>
    have ht : e.tail = [] := by rw [tail, hs]
    have hnone : utilFristChar (natDec e.port ++ e.tail) 58 = none := by
      rw [ht, List.append_nil]
      refine utilFristChar_of_notMem fun hc => hdec ?_
      rwa [cstr_eq_self (notMem_natDec (by decide) _)] at hc
    simp only [hnone, Option.getD_none]
  | some suffix =>
    have ht : e.tail = 58 :: suffix := by rw [tail, hs]
    have hsome : utilFristChar (natDec e.port ++ e.tail) 58 = some (natDec e.port, suffix) := by
      have hz := h.zero.2
      rw [ht] at hz ⊢
      exact utilFristChar_append hdec (notMem_natDec (by decide) _) (by simpa using hz) (by decide)
    simp only [hsome, Option.getD_some]

theorem text_ne_nil (e : Endpoint) : e.text ≠ [] := by simp [text]

end Endpoint

/-! ## All children -/

section

variable {colonyNum : Nat} {serverPath : Bytes} {c : Child} {children : List Child}
  {e : Endpoint}

/-- What the reads of a live child give. -/
theorem Live.retry (h : Live c e) :
    retry colonyNum c.replies = .ok e.text ∨ retry colonyNum c.replies = .loss := by
  obtain ⟨n, hn⟩ : ∃ n, Zookconfig.retry colonyNum c.replies = c.replies n := retry_eq colonyNum
  rw [hn]
  exact h.replies n

theorem Live.loadInfo (h : Live c e) : loadInfo c.name e.text =
    some ⟨atoi c.name, serverPort (natDec e.port ++ e.tail), e.ip, e.suffix.getD []⟩ :=
  Endpoint.loadInfo_text h.wellFormed c.name

theorem Live.not_aborts (h : Live c e) : ¬ Aborts colonyNum c := by
  unfold Aborts
  rcases h.retry with hok | hloss
  · rw [hok]
    rintro ⟨-, hcolon⟩
    have hnone := utilFristChar_of_notMem hcolon
    have := h.loadInfo
    simp [Zookconfig.loadInfo, hnone] at this
  · rw [hloss]
    exact id

/-- What `loadChild` does is said by the predicates on the child. -/
theorem loadChild_cases (colonyNum : Nat) (serverPath : Bytes) (c : Child) :
    (loadChild colonyNum serverPath c = .overflow ∧ ¬ Fits colonyNum serverPath c) ∨
    (∃ code, loadChild colonyNum serverPath c = .stop code ∧ Fits colonyNum serverPath c ∧
      Aborts colonyNum c) ∨
    (loadChild colonyNum serverPath c = .skip ∧ Fits colonyNum serverPath c ∧
      ¬ Aborts colonyNum c ∧
      ∀ e, Live c e → retry colonyNum c.replies = .loss) ∨
    ∃ info, loadChild colonyNum serverPath c = .push info ∧ Fits colonyNum serverPath c ∧
      ¬ Aborts colonyNum c ∧
      ∀ e, Live c e → retry colonyNum c.replies ≠ .loss ∧
        (info.Describes c e ↔ e.port < 32768) := by
  unfold loadChild Fits Aborts
  by_cases hp : PathFits (childPath serverPath c.name)
  · rw [if_neg (not_not.mpr hp)]
    cases hr : retry colonyNum c.replies with
    | error code => exact .inr (.inl ⟨code, rfl, ⟨hp, by simp⟩, trivial⟩)
    | loss => exact .inr (.inr (.inl ⟨rfl, ⟨hp, by simp⟩, id, fun _ _ => rfl⟩))
    | ok value =>
      have hlive : ∀ e, Live c e → value = e.text := by
        intro e he
        have h : retry colonyNum c.replies = .ok e.text ∨ retry colonyNum c.replies = .loss :=
          he.retry
        rw [hr] at h
        rcases h with h | h
        · cases h
          rfl
        · cases h
      simp only
      by_cases hnil : value = []
      · rw [if_pos hnil]
        refine .inr (.inr (.inl ⟨rfl, ⟨hp, ?_⟩, fun h => h.1 hnil, fun e he => ?_⟩))
        · rintro v ⟨⟩
          simp [hnil, ValueFits]
        · exact absurd (hlive e he).symm (hnil ▸ e.text_ne_nil)
      · rw [if_neg hnil]
        by_cases hv : ValueFits value
        · have hfits : ∀ v, Reply.ok value = .ok v → ValueFits v := by
            rintro v ⟨⟩
            exact hv
          rw [if_neg (not_not.mpr hv)]
          cases hi : loadInfo c.name value with
          | none =>
            refine .inr (.inl ⟨_, rfl, ⟨hp, hfits⟩, hnil, ?_⟩)
            rw [← utilFristChar_eq_none]
            unfold loadInfo at hi
            split at hi
            · assumption
            · split at hi <;> cases hi
          | some info =>
            refine .inr (.inr (.inr ⟨info, rfl, ⟨hp, hfits⟩, ?_, fun e he => ?_⟩))
            · rintro ⟨-, hcolon⟩
              simp [loadInfo, utilFristChar_of_notMem hcolon] at hi
            · refine ⟨by simp, ?_⟩
              rw [hlive e he, he.loadInfo] at hi
              cases hi
              rw [← Endpoint.toInt_serverPort_iff he.wellFormed]
              simp [TcpServerInfo.Describes]
        · rw [if_pos hv]
          exact .inl ⟨rfl, fun h => hv (h.2 value rfl)⟩
  · rw [if_pos hp]
    exact .inl ⟨rfl, fun h => hp h.1⟩

theorem allAdded_cons {a : Option TcpServerInfo} {added : List (Option TcpServerInfo)} :
    AllAdded (c :: children) (a :: added) ↔
      (∀ e, Live c e → ∃ info : TcpServerInfo, a = some info ∧ info.Describes c e) ∧
        AllAdded children added := by
  constructor
  · intro h
    refine ⟨fun e he => ?_, fun i d e hd he => h (i + 1) d e hd he⟩
    obtain ⟨info, hi, hdesc⟩ := h 0 c e rfl he
    exact ⟨info, by simpa using hi, hdesc⟩
  · rintro ⟨hc, hrest⟩ i d e hd he
    cases i with
    | zero =>
      cases hd
      obtain ⟨info, rfl, hdesc⟩ := hc e he
      exact ⟨info, rfl, hdesc⟩
    | succ i => exact hrest i d e hd he

/-- Nobody adds anything. -/
theorem allAdded_none : AllAdded children (children.map fun _ => none) ↔
    ∀ d ∈ children, ∀ e, ¬ Live d e := by
  constructor
  · intro h d hd e he
    obtain ⟨i, hi⟩ := List.mem_iff_getElem?.mp hd
    obtain ⟨info, hinfo, -⟩ := h i d e hi he
    rw [List.getElem?_map, hi] at hinfo
    cases hinfo
  · intro h i d e hd he
    exact absurd he (h d (List.mem_of_getElem? hd) e)

theorem undisturbed_cons : Undisturbed colonyNum serverPath (c :: children) ↔
    Fits colonyNum serverPath c ∧
      (∀ e, Live c e → retry colonyNum c.replies ≠ .loss ∧ e.port < 32768) ∧
      (Aborts colonyNum c → ∀ d ∈ children, ∀ e, ¬ Live d e) ∧
      (¬ Aborts colonyNum c → Undisturbed colonyNum serverPath children) := by
  constructor
  · intro h
    obtain ⟨hfits, hlive⟩ := h [] c children rfl
    refine ⟨hfits (by simp), fun e he => (hlive e he).2, fun ha d hd e he => ?_,
      fun hna before d after heq => ?_⟩
    · obtain ⟨before, after, rfl⟩ := List.append_of_mem hd
      exact ((h (c :: before) d after rfl).2 e he).1 c (.head _) ha
    · obtain ⟨hfits, hlive⟩ := h (c :: before) d after (by rw [heq, List.cons_append])
      refine ⟨fun hb => hfits ?_, fun e he => ?_⟩
      · rintro x (_ | ⟨_, hx⟩)
        · exact hna
        · exact hb x hx
      · obtain ⟨hb, hrest⟩ := hlive e he
        exact ⟨fun x hx => hb x (.tail _ hx), hrest⟩
  · rintro ⟨hfits, hlive, habort, hrest⟩ before d after heq
    cases before with
    | nil =>
      cases heq
      exact ⟨fun _ => hfits, fun e he => ⟨by simp, hlive e he⟩⟩
    | cons x before =>
      rw [List.cons_append, List.cons.injEq] at heq
      obtain ⟨rfl, rfl⟩ := heq
      by_cases ha : Aborts colonyNum c
      · refine ⟨fun hb => absurd ha (hb c (.head _)), fun e he => ?_⟩
        exact absurd he (habort ha d (by simp) e)
      · obtain ⟨hf, hl⟩ := hrest ha before d after rfl
        refine ⟨fun hb => hf fun x hx => hb x (.tail _ hx), fun e he => ?_⟩
        obtain ⟨hb, h⟩ := hl e he
        refine ⟨?_, h⟩
        rintro x (_ | ⟨_, hx⟩)
        · exact ha
        · exact hb x hx

/-- The list is what the children have added, one after another. -/
theorem infoList_eq {r : LoadedList} (h : loadChildren colonyNum serverPath children = some r) :
    r.infoList = r.added.reduceOption ∧ r.added.length = children.length := by
  induction children generalizing r with
  | nil =>
    cases h
    exact ⟨rfl, rfl⟩
  | cons c children ih =>
    rw [loadChildren] at h
    split at h
    · cases h
    · cases h
      refine ⟨?_, by simp⟩
      symm
      rw [List.reduceOption_eq_nil_iff]
      exact ⟨children.length + 1, by simp [List.replicate_succ, List.map_const']⟩
    · split at h
      · cases h
      · rename_i r' hr
        cases h
        obtain ⟨h1, h2⟩ := ih hr
        exact ⟨h1, by simp [h2]⟩
    · split at h
      · cases h
      · rename_i r' hr
        cases h
        obtain ⟨h1, h2⟩ := ih hr
        exact ⟨by simp [h1], by simp [h2]⟩

/-- A child that does not end the loop adds `a`, and the loop goes on. -/
theorem loadChildren_cons_iff {a : Option TcpServerInfo}
    (hl : loadChild colonyNum serverPath c = a.elim .skip .push) :
    (∃ r, loadChildren colonyNum serverPath (c :: children) = some r ∧
        AllAdded (c :: children) r.added) ↔
      (∀ e, Live c e → ∃ info : TcpServerInfo, a = some info ∧ info.Describes c e) ∧
        ∃ r, loadChildren colonyNum serverPath children = some r ∧ AllAdded children r.added := by
  rw [loadChildren, hl]
  cases loadChildren colonyNum serverPath children with
  | none => cases a <;> simp
  | some r => cases a <;> simp [allAdded_cons]

/-- The loop over the children serves every live one exactly under the condition. -/
theorem loadChildren_iff : (∃ r, loadChildren colonyNum serverPath children = some r ∧
    AllAdded children r.added) ↔ Undisturbed colonyNum serverPath children := by
  induction children with
  | nil =>
    refine ⟨fun _ before c after h => ?_, fun _ => ⟨_, rfl, fun i c e h => ?_⟩⟩
    · cases before <;> cases h
    · cases h
  | cons c children ih =>
    rw [undisturbed_cons]
    rcases loadChild_cases colonyNum serverPath c with
      ⟨hl, hfits⟩ | ⟨code, hl, hfits, ha⟩ | ⟨hl, hfits, ha, hloss⟩ | ⟨info, hl, hfits, ha, hpush⟩
    · simp [loadChildren, hl, hfits]
    · have hno : ∀ e, ¬ Live c e := fun e he => he.not_aborts ha
      simp only [loadChildren, hl, Option.some.injEq, exists_eq_left', allAdded_cons,
        allAdded_none]
      constructor
      · rintro ⟨-, hrest⟩
        exact ⟨hfits, fun e he => absurd he (hno e), fun _ => hrest, fun h => absurd ha h⟩
      · rintro ⟨-, -, hrest, -⟩
        exact ⟨fun e he => absurd he (hno e), hrest ha⟩
    · rw [loadChildren_cons_iff (a := none) hl, ih]
      constructor
      · rintro ⟨hc, hrest⟩
        refine ⟨hfits, fun e he => ?_, fun h => absurd h ha, fun _ => hrest⟩
        obtain ⟨info, hi, -⟩ := hc e he
        cases hi
      · rintro ⟨-, hlive, -, hrest⟩
        exact ⟨fun e he => absurd (hloss e he) (hlive e he).1, hrest ha⟩
    · rw [loadChildren_cons_iff (a := some info) hl, ih]
      constructor
      · rintro ⟨hc, hrest⟩
        refine ⟨hfits, fun e he => ?_, fun h => absurd h ha, fun _ => hrest⟩
        obtain ⟨info', hi, hdesc⟩ := hc e he
        cases hi
        obtain ⟨hnl, hiff⟩ := hpush e he
        exact ⟨hnl, hiff.mp hdesc⟩
      · rintro ⟨-, hlive, -, hrest⟩
        exact ⟨fun e he => ⟨info, rfl, (hpush e he).2.mpr (hlive e he).2⟩, hrest ha⟩

end

/-- For every set of children and all replies: the user is told about every live server, and the
watch is armed, exactly when a callback is set, the path has a slash, the children could be listed,
and the condition holds. -/
theorem server_list_iff (colonyNum : Nat) (serverCb : Bool) (path : Bytes) (service : Service) :
    SeesAll service (serverInfoChangeCallBack colonyNum serverCb path service) ↔
      serverCb = true ∧ 47 ∈ cstr path ∧ retry colonyNum service.getChildren = .ok () ∧
        Undisturbed colonyNum path service.children := by
  rw [← loadChildren_iff]
  unfold serverInfoChangeCallBack
  cases serverCb with
  | false => simp [SeesAll]
  | true =>
    by_cases hs : 47 ∈ cstr path
    · obtain ⟨svrType, ht⟩ : ∃ svrType, utilLastConstchar path 47 = some svrType :=
        ⟨_, if_pos hs⟩
      simp only [ht, LoadTcpServerListInfo, hs, true_and, not_true_eq_false, if_false]
      cases hr : retry colonyNum service.getChildren with
      | loss => simp [SeesAll]
      | error code => simp [SeesAll]
      | ok u =>
        cases hl : loadChildren colonyNum path service.children with
        | none => simp [SeesAll]
        | some r =>
          obtain ⟨h1, h2⟩ := infoList_eq hl
          simp [SeesAll, h1, h2]
    · have ht : utilLastConstchar path 47 = none := if_neg hs
      simp [ht, SeesAll, hs]

/-- The child `1` with the value `x`, and the child `2` with the value `h:1`. -/
def twoChildren : Service where
  children := [⟨[49], fun _ => .ok [120]⟩, ⟨[50], fun _ => .ok [104, 58, 49]⟩]
  getChildren _ := .ok ()

theorem live_second : Live ⟨[50], fun _ => .ok [104, 58, 49]⟩ ⟨[104], 1, none⟩ where
  wellFormed := ⟨by decide, by decide, by decide⟩
  replies _ := .inl rfl

/-- A child without a colon in its value hides the ones behind it. -/
theorem malformed_child_hides : ¬ ∀ path service, 1 < zookeeperPathCheck path →
    (∀ n, service.getChildren n = .ok ()) →
    SeesAll service (serverInfoChangeCallBack 1 true path service) := by
  intro h
  obtain ⟨r, infoList, svrType, hr, -, -, -, -, hall⟩ :=
    h [47, 115] twoChildren (by decide) fun _ => rfl
  cases hr
  obtain ⟨info, hinfo, -⟩ := hall 1 _ _ rfl live_second
  cases hinfo

/-- Without the first child the user is told about the second one. -/
example : serverInfoChangeCallBack 1 true [47, 115]
    ⟨twoChildren.children.tail, twoChildren.getChildren⟩ =
    some ⟨some ([⟨2, 1, [104], []⟩], [115]), [some ⟨2, 1, [104], []⟩], true⟩ := by decide

end Zookconfig
end CmakeFrame
