import CmakeFrame.RedisCluster.RedisClient

/-!
# The replies of `RedisClient`

`rediscluster/RedisClient.cpp`: what the command functions read of a reply, and what they give.

* `RedisReply`: a reply tree. A member is there for the types that define it (`str`, `integer`,
  `elements`), and reading one that is not there has no defined value.
* `commandInteger` .. `commandArgvArray`: the functions behind the answer of hiredis.
* `decoded_iff`: the replies that a function reads safely. `commandArgvStatus_decoded`: the one that
  looks at the type first reads them all.
* `hgetall_iff`, `hmget_iff`: the map after a well-formed reply.
-/

namespace CmakeFrame
namespace RedisCluster

open Lib
open RedisAsyn (ReplyType)

/-- A `redisReply`, its members by its type. -/
inductive RedisReply where
  | string (str : Bytes)
  | array (element : List RedisReply)
  | integer (integer : Int64)
  | nil
  | status (str : Bytes)
  | error (str : Bytes)

/-- The two members of a client that `setLastError` writes. -/
structure ClientError where
  connStatus_ : Bool
  lastError_ : Bytes
  deriving DecidableEq, Repr

/-- `系统错误`. -/
def systemError : Bytes := [231, 179, 187, 231, 187, 159, 233, 148, 153, 232, 175, 175]

/-- `setLastError(buffer, len)`. The buffer can be null. -/
def setLastError (_ : ClientError) (buffer : Option Bytes) : ClientError :=
  ⟨false, buffer.getD systemError⟩

structure DataItem where
  type : ReplyType
  value : Bytes
  deriving DecidableEq, Repr

/-- A `std::map<std::string, DataItem>`. -/
abbrev HashMapDataItem := Bytes → Option DataItem

/-- `insert`: nothing happens if the key is there. -/
def HashMapDataItem.insert (m : HashMapDataItem) (key : Bytes) (item : DataItem) :
    HashMapDataItem :=
  fun k => match m k with
    | some old => some old
    | none => if k = key then some item else none

namespace RedisReply

def type : RedisReply → ReplyType
  | string _ => .string
  | array _ => .array
  | integer _ => .integer
  | nil => .nil
  | status _ => .status
  | error _ => .error

/-- `str` and `len`. -/
def str : RedisReply → Option Bytes
  | string s | status s | error s => some s
  | array _ | integer _ | nil => none

/-- `integer`. -/
def int : RedisReply → Option Int64
  | integer n => some n
  | _ => none

/-- `elements` and `element`. -/
def elements : RedisReply → Option (List RedisReply)
  | array es => some es
  | _ => none

/-- The type and the text of an element, as an item. -/
def item (e : RedisReply) : Option DataItem := e.str.map fun s => ⟨e.type, s⟩

end RedisReply

def checkReply : Option RedisReply → Bool
  | none => false
  | some reply =>
    match reply.type with
    | .string | .array | .integer | .status => true
    | .nil | .error | .other => false

/-! ## The functions -/

/-- What a function leaves: its return value, its output and the error state of the client. -/
structure Returned (α : Type) where
  bRet : Bool
  out : α
  client : ClientError

/-- What the functions have in common. They differ in what they read of a reply that `checkReply`
accepts; `none` is a read without a defined value. -/
def received {α : Type} (read : RedisReply → α → Option (Bool × α)) (reply : Option RedisReply)
    (out : α) (client : ClientError) : Option (Returned α) :=
  match reply with
  | none => some ⟨false, out, setLastError client (some systemError)⟩
  | some r =>
    if checkReply (some r) then (read r out).map fun x => ⟨x.1, x.2, client⟩
    else if r.type = .nil then some ⟨false, out, client⟩
    else r.str.map fun s => ⟨false, out, setLastError client (some s)⟩

def commandInteger : Option RedisReply → Int64 → ClientError → Option (Returned Int64) :=
  received fun r _ => r.int.map fun n => (true, n)

def commandArgvInteger : Option RedisReply → Int64 → ClientError → Option (Returned Int64) :=
  received fun r _ => r.int.map fun n => (true, n)

def commandString : Option RedisReply → Bytes → ClientError → Option (Returned Bytes) :=
  received fun r _ => r.str.map fun s => (true, s)

/-- The loop of `commandList`. -/
def listLoop : List RedisReply → List Bytes → Option (List Bytes)
  | [], vValue => some vValue
  | e :: es, vValue => e.str.bind fun s => listLoop es (vValue ++ [s])

def commandList : Option RedisReply → List Bytes → ClientError → Option (Returned (List Bytes)) :=
  received fun r vValue => r.elements.bind fun es => (listLoop es vValue).map fun v => (true, v)

/-- The loop of `commandArray`, two elements at a time. The second one may not be there. -/
def arrayLoop : List RedisReply → HashMapDataItem → Option HashMapDataItem
  | [], m => some m
  | [_], _ => none
  | e :: e' :: es, m =>
    e.str.bind fun key => e'.item.bind fun item => arrayLoop es (m.insert key item)

def commandArray :
    Option RedisReply → HashMapDataItem → ClientError → Option (Returned HashMapDataItem) :=
  received fun r m => r.elements.bind fun es => (arrayLoop es m).map fun m => (true, m)

/-- `vData.size() - 2`, a `size_t`. -/
def fieldCount (vData : List Bytes) : Nat :=
  if vData.length < 2 then 2 ^ 64 + vData.length - 2 else vData.length - 2

/-- The loop of `commandArgvArray` from index `j` on. -/
def argvArrayLoop (vData : List Bytes) :
    Nat → List RedisReply → HashMapDataItem → Option HashMapDataItem
  | _, [], m => some m
  | j, e :: es, m =>
    if j < fieldCount vData then
      e.item.bind fun item =>
        vData[j + 2]?.bind fun key => argvArrayLoop vData (j + 1) es (m.insert key item)
    else some m

def commandArgvArray (vData : List Bytes) :
    Option RedisReply → HashMapDataItem → ClientError → Option (Returned HashMapDataItem) :=
  received fun r m =>
    r.elements.bind fun es => (argvArrayLoop vData 0 es m).map fun m => (true, m)

/-- The output is the return value. -/
def commandBool (reply : Option RedisReply) : ClientError → Option (Returned Unit) :=
  received (fun r _ =>
    if r.type = .status then some (true, ()) else r.int.map fun n => (n = 1, ())) reply ()

/-- `strcasecmp(s, "OK") == 0`. -/
def isOk (s : Bytes) : Bool :=
  match cstr s with
  | [o, k] => (o = 79 ∨ o = 111) ∧ (k = 75 ∨ k = 107)
  | _ => false

def commandArgvStatus (reply : Option RedisReply) : ClientError → Option (Returned Unit) :=
  received (fun r _ =>
    if r.type = .string then r.str.map fun s => (decide (s ≠ []) && isOk s, ())
    else some (true, ())) reply ()

/-- `hgetall`, with the reply to its command. -/
def hgetallReply (key : Bytes) (reply : Option RedisReply) (m : HashMapDataItem)
    (client : ClientError) : Option (Returned HashMapDataItem) :=
  if key = [] then some ⟨false, m, client⟩ else commandArray reply m client

/-- `hmget`, with the reply to its command. -/
def hmgetReply (key : Bytes) (fieldList : List Bytes) (reply : Option RedisReply)
    (m : HashMapDataItem) (client : ClientError) : Option (Returned HashMapDataItem) :=
  if key = [] ∨ fieldList = [] then some ⟨false, m, client⟩
  else commandArgvArray (RedisClient.addParam [ascii "HMGET", key] fieldList) reply m client

/-! ## Safe reading -/

/-- The call reads nothing that is not there, and returns true only after its output was set. -/
def Decoded {α : Type} (run : Option (Returned α)) (isSet : α → Prop) : Prop :=
  ∃ r, run = some r ∧ (r.bRet = true → isSet r.out)

/-- There is no reply, it is a nil or an error, or it is one of these. -/
def NothingOr (ok : RedisReply → Prop) (reply : Option RedisReply) : Prop :=
  ∀ r, reply = some r → r ≠ .nil → (∀ s, r ≠ .error s) → ok r

/-- A text that can be read. -/
def RedisReply.HasStr (e : RedisReply) : Prop := ∃ s, e.str = some s

/-- The elements come in pairs of a key and an item. -/
def ReadPairs (es : List RedisReply) (l : List (Bytes × DataItem)) : Prop :=
  es.length = 2 * l.length ∧
    ∀ (i : Nat) (x : Bytes × DataItem), l[i]? = some x →
      es[2 * i]?.bind RedisReply.str = some x.1 ∧ es[2 * i + 1]?.bind RedisReply.item = some x.2

/-- Each field with the element at its place. -/
def ReadFields (fields : List Bytes) (es : List RedisReply) (l : List (Bytes × DataItem)) : Prop :=
  l.length = min fields.length es.length ∧
    ∀ (i : Nat) (x : Bytes × DataItem), l[i]? = some x →
      fields[i]? = some x.1 ∧ es[i]?.bind RedisReply.item = some x.2

def insertAll (m : HashMapDataItem) (l : List (Bytes × DataItem)) : HashMapDataItem :=
  l.foldl (fun m x => m.insert x.1 x.2) m

theorem map_decoded {α : Type} {x : Option (Bool × α)} {client : ClientError} {isSet : α → Prop} :
    Decoded (x.map fun x => ⟨x.1, x.2, client⟩) isSet ↔
      ∃ y, x = some y ∧ (y.1 = true → isSet y.2) := by
  cases x <;> simp [Decoded]

/-- A reply that `checkReply` accepts has to be read; nothing is read of another one. -/
theorem received_decoded {α : Type} {read : RedisReply → α → Option (Bool × α)}
    {reply : Option RedisReply} {out : α} {client : ClientError} {isSet : α → Prop} :
    Decoded (received read reply out client) isSet ↔
      NothingOr (fun r => ∃ x, read r out = some x ∧ (x.1 = true → isSet x.2)) reply := by
  rcases reply with _ | r
  · simp [Decoded, NothingOr, received]
  rcases r with s | es | n | _ | s | s
  case nil => simp [Decoded, NothingOr, received, checkReply, RedisReply.type]
  case error => simp [Decoded, NothingOr, received, checkReply, RedisReply.type, RedisReply.str]
  all_goals
    simp only [received, checkReply, RedisReply.type, if_true, map_decoded, NothingOr]
    simp

theorem listLoop_eq_some {es : List RedisReply} {vValue out : List Bytes} :
    listLoop es vValue = some out ↔
      ∃ ss : List Bytes, es.map RedisReply.str = ss.map some ∧ out = vValue ++ ss := by
  induction es generalizing vValue with
  | nil =>
    simp only [listLoop, Option.some.injEq, List.map_nil]
    constructor
    · rintro rfl
      exact ⟨[], rfl, by simp⟩
    · rintro ⟨ss, hss, rfl⟩
      have : ss = [] := by simpa using hss.symm
      simp [this]
  | cons e es ih =>
    simp only [listLoop, Option.bind_eq_some_iff, ih, List.map_cons]
    constructor
    · rintro ⟨s, hs, ss, hss, rfl⟩
      exact ⟨s :: ss, by rw [List.map_cons, hs, hss], by simp⟩
    · rintro ⟨ss, hss, rfl⟩
      cases ss with
      | nil => simp at hss
      | cons s ss =>
        simp only [List.map_cons, List.cons.injEq] at hss
        exact ⟨s, hss.1, ss, hss.2, by simp⟩

theorem exists_strs_iff {es : List RedisReply} :
    (∃ ss : List Bytes, es.map RedisReply.str = ss.map some) ↔ ∀ e ∈ es, e.HasStr := by
  induction es with
  | nil => exact ⟨fun _ => by simp, fun _ => ⟨[], rfl⟩⟩
  | cons e es ih =>
    rw [List.forall_mem_cons, ← ih]
    constructor
    · rintro ⟨ss, hss⟩
      cases ss with
      | nil => simp at hss
      | cons s ss =>
        simp only [List.map_cons, List.cons.injEq] at hss
        exact ⟨⟨s, hss.1⟩, ss, hss.2⟩
    · rintro ⟨⟨s, hs⟩, ss, hss⟩
      exact ⟨s :: ss, by simp [hs, hss]⟩

theorem item_eq_some {e : RedisReply} {i : DataItem} :
    e.item = some i ↔ e.str = some i.value ∧ i.type = e.type := by
  cases i
  simp only [RedisReply.item, Option.map_eq_some_iff, DataItem.mk.injEq]
  constructor
  · rintro ⟨s, hs, ht, rfl⟩
    exact ⟨hs, ht.symm⟩
  · rintro ⟨hs, ht⟩
    exact ⟨_, hs, ht.symm, rfl⟩

theorem exists_item_iff {e : RedisReply} : (∃ i, e.item = some i) ↔ e.HasStr := by
  constructor
  · rintro ⟨i, hi⟩
    exact ⟨i.value, (item_eq_some.mp hi).1⟩
  · rintro ⟨s, hs⟩
    exact ⟨⟨e.type, s⟩, item_eq_some.mpr ⟨hs, rfl⟩⟩

theorem readPairs_nil {es : List RedisReply} : ReadPairs es [] ↔ es = [] := by
  simp [ReadPairs]

theorem readPairs_cons {e e' : RedisReply} {es : List RedisReply} {x : Bytes × DataItem}
    {l : List (Bytes × DataItem)} :
    ReadPairs (e :: e' :: es) (x :: l) ↔
      e.str = some x.1 ∧ e'.item = some x.2 ∧ ReadPairs es l := by
  unfold ReadPairs
  constructor
  · rintro ⟨hlen, h⟩
    have h0 := h 0 x rfl
    refine ⟨by simpa using h0.1, by simpa using h0.2, by simp at hlen; omega, ?_⟩
    intro i y hy
    have := h (i + 1) y (by simpa using hy)
    simpa [Nat.mul_add] using this
  · rintro ⟨h1, h2, hlen, h⟩
    refine ⟨by simp; omega, ?_⟩
    intro i y hy
    cases i with
    | zero =>
      have : x = y := by simpa using hy
      subst this
      exact ⟨by simpa using h1, by simpa using h2⟩
    | succ i =>
      have := h i y (by simpa using hy)
      simpa [Nat.mul_add] using this

/-- The loop reads the pairs, and an odd element is not read as one. -/
theorem arrayLoop_eq_some {es : List RedisReply} {m out : HashMapDataItem} :
    arrayLoop es m = some out ↔ ∃ l, ReadPairs es l ∧ out = insertAll m l := by
  induction es, m using arrayLoop.induct with
  | case1 m =>
    simp only [arrayLoop, Option.some.injEq]
    constructor
    · rintro rfl
      exact ⟨[], readPairs_nil.mpr rfl, rfl⟩
    · rintro ⟨l, ⟨hl, -⟩, rfl⟩
      have : l = [] := List.eq_nil_of_length_eq_zero (by simpa using hl.symm)
      simp [this, insertAll]
  | case2 m e =>
    simp only [arrayLoop, reduceCtorEq, false_iff]
    rintro ⟨l, ⟨hl, -⟩, -⟩
    simp only [List.length_cons, List.length_nil] at hl
    omega
  | case3 m e e' es ih =>
    simp only [arrayLoop, Option.bind_eq_some_iff]
    constructor
    · rintro ⟨key, hkey, item, hitem, h⟩
      obtain ⟨l, hl, rfl⟩ := (ih key item).mp h
      exact ⟨(key, item) :: l, readPairs_cons.mpr ⟨hkey, hitem, hl⟩, rfl⟩
    · rintro ⟨l, hl, rfl⟩
      cases l with
      | nil => simp [readPairs_nil] at hl
      | cons x l =>
        obtain ⟨hkey, hitem, hl⟩ := readPairs_cons.mp hl
        exact ⟨x.1, hkey, x.2, hitem, (ih x.1 x.2).mpr ⟨l, hl, rfl⟩⟩

/-- Every second element is the key of the one behind it. -/
theorem exists_readPairs_iff {es : List RedisReply} :
    (∃ l, ReadPairs es l) ↔ es.length % 2 = 0 ∧ ∀ e ∈ es, e.HasStr := by
  induction es, (fun _ => none : HashMapDataItem) using arrayLoop.induct with
  | case1 => exact ⟨fun _ => ⟨rfl, by simp⟩, fun _ => ⟨[], readPairs_nil.mpr rfl⟩⟩
  | case2 m e =>
    simp only [List.length_cons, List.length_nil]
    constructor
    · rintro ⟨l, hl, -⟩
      simp only [List.length_cons, List.length_nil] at hl
      omega
    · rintro ⟨h, -⟩
      omega
  | case3 m e e' es ih =>
    have ih := ih [] ⟨.nil, []⟩
    simp only [List.length_cons, List.forall_mem_cons]
    constructor
    · rintro ⟨l, hl⟩
      cases l with
      | nil => simp [readPairs_nil] at hl
      | cons x l =>
        obtain ⟨hkey, hitem, hl⟩ := readPairs_cons.mp hl
        obtain ⟨heven, hes⟩ := ih.mp ⟨l, hl⟩
        exact ⟨by omega, ⟨_, hkey⟩, exists_item_iff.mp ⟨_, hitem⟩, hes⟩
    · rintro ⟨heven, ⟨key, hkey⟩, he', hes⟩
      obtain ⟨item, hitem⟩ := exists_item_iff.mpr he'
      obtain ⟨l, hl⟩ := ih.mpr ⟨by omega, hes⟩
      exact ⟨(key, item) :: l, readPairs_cons.mpr ⟨hkey, hitem, hl⟩⟩

theorem readFields_nil_left {es : List RedisReply} {l : List (Bytes × DataItem)} :
    ReadFields [] es l ↔ l = [] := by
  constructor
  · rintro ⟨h, -⟩
    exact List.eq_nil_of_length_eq_zero (by simpa using h)
  · rintro rfl
    simp [ReadFields]

theorem readFields_nil_right {fields : List Bytes} {l : List (Bytes × DataItem)} :
    ReadFields fields [] l ↔ l = [] := by
  constructor
  · rintro ⟨h, -⟩
    exact List.eq_nil_of_length_eq_zero (by simpa using h)
  · rintro rfl
    simp [ReadFields]

theorem readFields_cons {f : Bytes} {fields : List Bytes} {e : RedisReply} {es : List RedisReply}
    {l : List (Bytes × DataItem)} :
    ReadFields (f :: fields) (e :: es) l ↔
      ∃ item l', l = (f, item) :: l' ∧ e.item = some item ∧ ReadFields fields es l' := by
  unfold ReadFields
  constructor
  · rintro ⟨hlen, h⟩
    cases l with
    | nil => simp at hlen
    | cons x l' =>
      have h0 := h 0 x rfl
      simp only [List.getElem?_cons_zero, Option.some.injEq, Option.bind_some] at h0
      refine ⟨x.2, l', by rw [h0.1], h0.2, ?_, ?_⟩
      · simp only [List.length_cons] at hlen
        omega
      · intro i y hy
        simpa using h (i + 1) y (by simpa using hy)
  · rintro ⟨item, l', rfl, hitem, hlen, h⟩
    refine ⟨by simp only [List.length_cons]; omega, ?_⟩
    intro i y hy
    cases i with
    | zero =>
      have : (f, item) = y := by simpa using hy
      subst this
      exact ⟨rfl, hitem⟩
    | succ i => simpa using h i y (by simpa using hy)

/-- The loop over the elements, with the fields that are left. -/
theorem argvArrayLoop_eq_some {vData : List Bytes} (h2 : 2 ≤ vData.length) {j : Nat}
    {es : List RedisReply} {m out : HashMapDataItem} :
    argvArrayLoop vData j es m = some out ↔
      ∃ l, ReadFields (vData.drop (j + 2)) es l ∧ out = insertAll m l := by
  have hcount : fieldCount vData = vData.length - 2 := by
    rw [fieldCount, if_neg (by omega)]
  induction es generalizing j m with
  | nil =>
    simp only [argvArrayLoop, Option.some.injEq, readFields_nil_right, exists_eq_left, insertAll,
      List.foldl_nil]
    exact eq_comm
  | cons e es ih =>
    rw [argvArrayLoop, hcount]
    by_cases hj : j < vData.length - 2
    · have hlt : j + 2 < vData.length := by omega
      rw [if_pos hj, List.drop_eq_getElem_cons hlt, List.getElem?_eq_getElem hlt]
      simp only [Option.bind_some, Option.bind_eq_some_iff, readFields_cons]
      constructor
      · rintro ⟨item, hitem, h⟩
        obtain ⟨l, hl, rfl⟩ := ih.mp h
        exact ⟨_, ⟨item, l, rfl, hitem, hl⟩, rfl⟩
      · rintro ⟨_, ⟨item, l, rfl, hitem, hl⟩, rfl⟩
        exact ⟨item, hitem, ih.mpr ⟨l, hl, rfl⟩⟩
    · rw [if_neg hj, List.drop_eq_nil_of_le (by omega)]
      simp only [Option.some.injEq, readFields_nil_left, exists_eq_left, insertAll, List.foldl_nil]
      exact eq_comm

theorem exists_readFields_iff {fields : List Bytes} {es : List RedisReply} :
    (∃ l, ReadFields fields es l) ↔ ∀ e ∈ es.take fields.length, e.HasStr := by
  induction fields generalizing es with
  | nil => simp [readFields_nil_left]
  | cons f fields ih =>
    cases es with
    | nil => simp [readFields_nil_right]
    | cons e es =>
      rw [List.length_cons, List.take_succ_cons, List.forall_mem_cons, ← ih, ← exists_item_iff]
      simp only [readFields_cons]
      constructor
      · rintro ⟨_, item, l, -, hitem, hl⟩
        exact ⟨⟨item, hitem⟩, l, hl⟩
      · rintro ⟨⟨item, hitem⟩, l, hl⟩
        exact ⟨_, item, l, rfl, hitem, hl⟩

/-- Without room for a command and a key the field of an element is not there. -/
theorem argvArrayLoop_short {vData : List Bytes} (h2 : vData.length < 2) {es : List RedisReply}
    {m : HashMapDataItem} : (∃ out, argvArrayLoop vData 0 es m = some out) ↔ es = [] := by
  cases es with
  | nil => simp [argvArrayLoop]
  | cons e es =>
    rw [argvArrayLoop, fieldCount, if_pos h2, if_pos (by omega),
      List.getElem?_eq_none (by omega)]
    simp

/-! ## What is read safely -/

theorem NothingOr.congr {p q : RedisReply → Prop} {reply : Option RedisReply}
    (h : ∀ r, reply = some r → (p r ↔ q r)) : NothingOr p reply ↔ NothingOr q reply := by
  unfold NothingOr
  constructor
  · intro hp r hr h1 h2
    exact (h r hr).mp (hp r hr h1 h2)
  · intro hq r hr h1 h2
    exact (h r hr).mpr (hq r hr h1 h2)

theorem int_eq_some {r : RedisReply} {n : Int64} : r.int = some n ↔ r = .integer n := by
  cases r <;> simp [RedisReply.int]

theorem elements_eq_some {r : RedisReply} {es : List RedisReply} :
    r.elements = some es ↔ r = .array es := by
  cases r <;> simp [RedisReply.elements]

section Decoders

variable (reply : Option RedisReply) (client : ClientError)

theorem commandInteger_decoded (retval : Int64) :
    Decoded (commandInteger reply retval client) (fun out => reply = some (.integer out)) ↔
      NothingOr (fun r => ∃ n, r = .integer n) reply := by
  rw [commandInteger, received_decoded]
  apply NothingOr.congr
  rintro r rfl
  simp [int_eq_some]

theorem commandString_decoded (value : Bytes) :
    Decoded (commandString reply value client) (fun out => reply.bind RedisReply.str = some out) ↔
      NothingOr RedisReply.HasStr reply := by
  rw [commandString, received_decoded]
  apply NothingOr.congr
  rintro r rfl
  simp [RedisReply.HasStr]

theorem commandList_decoded (vValue : List Bytes) :
    Decoded (commandList reply vValue client)
        (fun out => ∃ es ss, reply = some (.array es) ∧
          es.map RedisReply.str = ss.map some ∧ out = vValue ++ ss) ↔
      NothingOr (fun r => ∃ es, r = .array es ∧ ∀ e ∈ es, e.HasStr) reply := by
  rw [commandList, received_decoded]
  apply NothingOr.congr
  rintro r rfl
  simp only [Option.bind_eq_some_iff, Option.map_eq_some_iff, elements_eq_some, listLoop_eq_some]
  constructor
  · rintro ⟨_, ⟨es, rfl, _, ⟨ss, hss, rfl⟩, rfl⟩, -⟩
    exact ⟨es, rfl, exists_strs_iff.mp ⟨ss, hss⟩⟩
  · rintro ⟨es, rfl, hes⟩
    obtain ⟨ss, hss⟩ := exists_strs_iff.mpr hes
    exact ⟨_, ⟨es, rfl, _, ⟨ss, hss, rfl⟩, rfl⟩, fun _ => ⟨es, ss, rfl, hss, rfl⟩⟩

theorem commandArray_decoded (m : HashMapDataItem) :
    Decoded (commandArray reply m client)
        (fun out => ∃ es l, reply = some (.array es) ∧ ReadPairs es l ∧ out = insertAll m l) ↔
      NothingOr (fun r => ∃ es, r = .array es ∧ es.length % 2 = 0 ∧ ∀ e ∈ es, e.HasStr) reply := by
  rw [commandArray, received_decoded]
  apply NothingOr.congr
  rintro r rfl
  simp only [Option.bind_eq_some_iff, Option.map_eq_some_iff, elements_eq_some, arrayLoop_eq_some]
  constructor
  · rintro ⟨_, ⟨es, rfl, _, ⟨l, hl, rfl⟩, rfl⟩, -⟩
    exact ⟨es, rfl, exists_readPairs_iff.mp ⟨l, hl⟩⟩
  · rintro ⟨es, rfl, hes⟩
    obtain ⟨l, hl⟩ := exists_readPairs_iff.mpr hes
    exact ⟨_, ⟨es, rfl, _, ⟨l, hl, rfl⟩, rfl⟩, fun _ => ⟨es, l, rfl, hl, rfl⟩⟩

theorem commandArgvArray_decoded (vData : List Bytes) (m : HashMapDataItem) :
    Decoded (commandArgvArray vData reply m client)
        (fun out => ∃ es l, reply = some (.array es) ∧
          ReadFields (vData.drop 2) es l ∧ out = insertAll m l) ↔
      NothingOr (fun r => ∃ es, r = .array es ∧ (es = [] ∨ 2 ≤ vData.length) ∧
        ∀ e ∈ es.take (vData.length - 2), e.HasStr) reply := by
  rw [commandArgvArray, received_decoded]
  apply NothingOr.congr
  rintro r rfl
  simp only [Option.bind_eq_some_iff, Option.map_eq_some_iff, elements_eq_some]
  rw [← List.length_drop]
  constructor
  · rintro ⟨_, ⟨es, rfl, out, hout, rfl⟩, -⟩
    refine ⟨es, rfl, ?_⟩
    rcases Nat.lt_or_ge vData.length 2 with h2 | h2
    · have hes : es = [] := (argvArrayLoop_short h2).mp ⟨out, hout⟩
      subst hes
      exact ⟨.inl rfl, by simp⟩
    · obtain ⟨l, hl, -⟩ := (argvArrayLoop_eq_some h2).mp hout
      exact ⟨.inr h2, exists_readFields_iff.mp ⟨l, hl⟩⟩
  · rintro ⟨es, rfl, hes, htake⟩
    rcases hes with rfl | h2
    · exact ⟨_, ⟨[], rfl, m, rfl, rfl⟩,
        fun _ => ⟨[], [], rfl, readFields_nil_right.mpr rfl, rfl⟩⟩
    · obtain ⟨l, hl⟩ := exists_readFields_iff.mpr htake
      exact ⟨_, ⟨es, rfl, _, (argvArrayLoop_eq_some h2).mpr ⟨l, hl, rfl⟩, rfl⟩,
        fun _ => ⟨es, l, rfl, hl, rfl⟩⟩

theorem commandBool_decoded :
    Decoded (commandBool reply client)
        (fun _ => (∃ s, reply = some (.status s)) ∨ reply = some (.integer 1)) ↔
      NothingOr (fun r => (∃ s, r = .status s) ∨ ∃ n, r = .integer n) reply := by
  rw [commandBool, received_decoded]
  apply NothingOr.congr
  rintro r rfl
  cases r <;> simp [RedisReply.type, RedisReply.int]

/-- The function that looks at the type before it reads. -/
theorem commandArgvStatus_decoded :
    Decoded (commandArgvStatus reply client)
      (fun _ => ∃ r, reply = some r ∧ checkReply (some r)) := by
  rw [commandArgvStatus, received_decoded]
  intro r hr hnil herror
  subst hr
  cases r with
  | nil => exact absurd rfl hnil
  | error s => exact absurd rfl (herror s)
  | _ => simp [RedisReply.type, RedisReply.str, checkReply]

end Decoders

/-! ## The maps -/

/-- A map that starts empty holds the items that are inserted, when equal keys have equal items. -/
theorem insertAll_eq_some {m : HashMapDataItem} {l : List (Bytes × DataItem)}
    (hl : ∀ x ∈ l, ∀ y ∈ l, x.1 = y.1 → x.2 = y.2) {k : Bytes} {i : DataItem} :
    insertAll m l k = some i ↔ m k = some i ∨ m k = none ∧ (k, i) ∈ l := by
  induction l generalizing m with
  | nil => simp [insertAll]
  | cons x l ih =>
    have hx : insertAll m (x :: l) = insertAll (m.insert x.1 x.2) l := rfl
    rw [hx, ih fun y hy z hz => hl y (.tail _ hy) z (.tail _ hz)]
    unfold HashMapDataItem.insert
    rcases hm : m k with _ | old
    · by_cases hk : k = x.1
      · subst hk
        simp only [reduceIte, Option.some.injEq, reduceCtorEq, false_and, or_false, true_and,
          false_or, List.mem_cons]
        constructor
        · rintro rfl
          exact .inl rfl
        · rintro (h | h)
          · exact (congrArg Prod.snd h).symm
          · exact hl x (.head _) _ (.tail _ h) rfl
      · have : (k, i) ≠ x := fun h => hk (congrArg Prod.fst h)
        simp [hk, this]
    · simp

/-- What a server answers to `hgetall`: fields and values in turn. -/
def hashReply (pairs : List (Bytes × Bytes)) : RedisReply :=
  .array (pairs.flatMap fun x => [.string x.1, .string x.2])

/-- What a server answers to `hmget`: for each field its value or a nil, and the same for the same
field. -/
structure FieldsReply (fieldList : List Bytes) (es : List RedisReply) : Prop where
  length : es.length = fieldList.length
  values : ∀ e ∈ es, (∃ s, e = .string s) ∨ e = .nil
  same : ∀ (i j : Nat) (f : Bytes),
    fieldList[i]? = some f → fieldList[j]? = some f → es[i]? = es[j]?

theorem readPairs_hashReply (pairs : List (Bytes × Bytes)) :
    ReadPairs (pairs.flatMap fun x => [.string x.1, .string x.2])
      (pairs.map fun x => (x.1, ⟨.string, x.2⟩)) := by
  induction pairs with
  | nil => exact readPairs_nil.mpr rfl
  | cons x pairs ih => exact readPairs_cons.mpr ⟨rfl, rfl, ih⟩

/-- The map of `hgetall` holds the fields with their values. -/
theorem hgetallReply_eq {key : Bytes} (hkey : key ≠ []) {pairs : List (Bytes × Bytes)}
    (hnodup : (pairs.map Prod.fst).Nodup) (client : ClientError) :
    ∃ out, hgetallReply key (some (hashReply pairs)) (fun _ => none) client =
        some ⟨true, out, client⟩ ∧
      ∀ k i, out k = some i ↔ ∃ v, (k, v) ∈ pairs ∧ i = ⟨.string, v⟩ := by
  let out := insertAll (fun _ => none) (pairs.map fun x => (x.1, ⟨.string, x.2⟩))
  have hrun : arrayLoop (pairs.flatMap fun x => [.string x.1, .string x.2]) (fun _ => none) =
      some out := arrayLoop_eq_some.mpr ⟨_, readPairs_hashReply pairs, rfl⟩
  refine ⟨out, ?_, ?_⟩
  · rw [hgetallReply, if_neg hkey]
    simp [commandArray, received, hashReply, checkReply, RedisReply.type, RedisReply.elements, hrun]
  · intro k i
    have hsame : ∀ x ∈ pairs.map (fun x => (x.1, (⟨.string, x.2⟩ : DataItem))),
        ∀ y ∈ pairs.map (fun x => (x.1, (⟨.string, x.2⟩ : DataItem))), x.1 = y.1 → x.2 = y.2 := by
      simp only [List.mem_map]
      rintro _ ⟨x, hx, rfl⟩ _ ⟨y, hy, rfl⟩ hxy
      rw [List.inj_on_of_nodup_map hnodup hx hy hxy]
    rw [insertAll_eq_some hsame]
    simp [eq_comm]

theorem FieldsReply.nil_notMem_iff {fieldList : List Bytes} {es : List RedisReply}
    (h : FieldsReply fieldList es) : RedisReply.nil ∉ es ↔ ∀ e ∈ es, e.HasStr := by
  constructor
  · intro hn e he
    obtain ⟨s, rfl⟩ | rfl := h.values e he
    · exact ⟨s, rfl⟩
    · exact absurd he hn
  · intro hs hn
    obtain ⟨s, hs⟩ := hs _ hn
    cases hs

theorem ReadFields.mem_iff {fields : List Bytes} {es : List RedisReply}
    {l : List (Bytes × DataItem)} (h : ReadFields fields es l)
    (hlen : es.length = fields.length) (x : Bytes × DataItem) :
    x ∈ l ↔ ∃ j : Nat, fields[j]? = some x.1 ∧ es[j]?.bind RedisReply.item = some x.2 := by
  rw [List.mem_iff_getElem?]
  constructor
  · rintro ⟨j, hj⟩
    exact ⟨j, h.2 j x hj⟩
  · rintro ⟨j, hf, he⟩
    have hlt : j < l.length := by
      have hj := (List.getElem?_eq_some_iff.mp hf).1
      have hl := h.1
      omega
    have hlj := List.getElem?_eq_getElem hlt
    obtain ⟨hf', he'⟩ := h.2 j _ hlj
    have h1 : x.1 = l[j].1 := Option.some_inj.mp (hf.symm.trans hf')
    have h2 : x.2 = l[j].2 := Option.some_inj.mp (he.symm.trans he')
    exact ⟨j, by rw [hlj, Prod.ext h1 h2]⟩

/-- The map of `hmget` is right unless a nil is among the elements. -/
theorem hmgetReply_iff {key : Bytes} (hkey : key ≠ []) {fieldList : List Bytes}
    (hfields : fieldList ≠ []) {es : List RedisReply} (h : FieldsReply fieldList es)
    (client : ClientError) :
    (∃ out, hmgetReply key fieldList (some (.array es)) (fun _ => none) client =
        some ⟨true, out, client⟩ ∧
      ∀ k i, out k = some i ↔
        ∃ j : Nat, fieldList[j]? = some k ∧ es[j]?.bind RedisReply.item = some i) ↔
      RedisReply.nil ∉ es := by
  have hsize : 2 ≤ (RedisClient.addParam [ascii "HMGET", key] fieldList).length := by
    simp [RedisClient.addParam]
  have hrun : hmgetReply key fieldList (some (.array es)) (fun _ => none) client =
      (argvArrayLoop (RedisClient.addParam [ascii "HMGET", key] fieldList) 0 es
        (fun _ => none)).map fun m => ⟨true, m, client⟩ := by
    rw [hmgetReply, if_neg (by simp [hkey, hfields])]
    simp [commandArgvArray, received, checkReply, RedisReply.type, RedisReply.elements,
      Function.comp_def]
  have hread : ∀ {out}, argvArrayLoop (RedisClient.addParam [ascii "HMGET", key] fieldList) 0 es
      (fun _ => none) = some out ↔ ∃ l, ReadFields fieldList es l ∧
        out = insertAll (fun _ => none) l := argvArrayLoop_eq_some hsize
  rw [h.nil_notMem_iff, hrun]
  constructor
  · rintro ⟨out, hout, -⟩
    obtain ⟨m, hm, -⟩ := Option.map_eq_some_iff.mp hout
    obtain ⟨l, hl, -⟩ := hread.mp hm
    have := exists_readFields_iff.mp ⟨l, hl⟩
    rwa [← h.length, List.take_length] at this
  · intro hs
    obtain ⟨l, hl⟩ : ∃ l, ReadFields fieldList es l :=
      exists_readFields_iff.mpr fun e he => hs e (List.mem_of_mem_take he)
    refine ⟨insertAll (fun _ => none) l, ?_, ?_⟩
    · rw [hread.mpr ⟨l, hl, rfl⟩]
      rfl
    · intro k i
      have hmem := hl.mem_iff h.length
      rw [insertAll_eq_some]
      · simp [hmem]
      · intro x hx y hy hxy
        obtain ⟨a, hfa, hea⟩ := (hmem x).mp hx
        obtain ⟨b, hfb, heb⟩ := (hmem y).mp hy
        rw [h.same a b x.1 hfa (by rw [hfb, hxy])] at hea
        exact Option.some_inj.mp (hea.symm.trans heb)

/-- **The replies that are decoded safely.** Each function reads only members that are there, and
returns true only with an output from the reply, for a null, a nil, an error and the replies of the
form it is written for. `hgetall` fills the map right, `hmget` does when no element is nil. -/
theorem replies_decoded_iff (client : ClientError) :
    (∀ reply retval, Decoded (commandInteger reply retval client)
        (fun out => reply = some (.integer out)) ↔
      NothingOr (fun r => ∃ n, r = .integer n) reply) ∧
    (∀ reply value, Decoded (commandString reply value client)
        (fun out => reply.bind RedisReply.str = some out) ↔
      NothingOr RedisReply.HasStr reply) ∧
    (∀ reply vValue, Decoded (commandList reply vValue client)
        (fun out => ∃ es ss, reply = some (.array es) ∧
          es.map RedisReply.str = ss.map some ∧ out = vValue ++ ss) ↔
      NothingOr (fun r => ∃ es, r = .array es ∧ ∀ e ∈ es, e.HasStr) reply) ∧
    (∀ reply m, Decoded (commandArray reply m client)
        (fun out => ∃ es l, reply = some (.array es) ∧ ReadPairs es l ∧ out = insertAll m l) ↔
      NothingOr (fun r => ∃ es, r = .array es ∧ es.length % 2 = 0 ∧ ∀ e ∈ es, e.HasStr) reply) ∧
    (∀ vData reply m, Decoded (commandArgvArray vData reply m client)
        (fun out => ∃ es l, reply = some (.array es) ∧
          ReadFields (vData.drop 2) es l ∧ out = insertAll m l) ↔
      NothingOr (fun r => ∃ es, r = .array es ∧ (es = [] ∨ 2 ≤ vData.length) ∧
        ∀ e ∈ es.take (vData.length - 2), e.HasStr) reply) ∧
    (∀ reply, Decoded (commandBool reply client)
        (fun _ => (∃ s, reply = some (.status s)) ∨ reply = some (.integer 1)) ↔
      NothingOr (fun r => (∃ s, r = .status s) ∨ ∃ n, r = .integer n) reply) ∧
    (∀ key pairs, key ≠ [] → (pairs.map Prod.fst).Nodup →
      ∃ out, hgetallReply key (some (hashReply pairs)) (fun _ => none) client =
          some ⟨true, out, client⟩ ∧
        ∀ k i, out k = some i ↔ ∃ v, (k, v) ∈ pairs ∧ i = ⟨.string, v⟩) ∧
    ∀ key fieldList es, key ≠ [] → fieldList ≠ [] → FieldsReply fieldList es →
      ((∃ out, hmgetReply key fieldList (some (.array es)) (fun _ => none) client =
          some ⟨true, out, client⟩ ∧
        ∀ k i, out k = some i ↔
          ∃ j : Nat, fieldList[j]? = some k ∧ es[j]?.bind RedisReply.item = some i) ↔
        RedisReply.nil ∉ es) :=
  ⟨fun reply => commandInteger_decoded reply client,
    fun reply => commandString_decoded reply client,
    fun reply => commandList_decoded reply client, fun reply => commandArray_decoded reply client,
    fun vData reply m => commandArgvArray_decoded reply client vData m,
    fun reply => commandBool_decoded reply client,
    fun _ _ hkey hnodup => hgetallReply_eq hkey hnodup client,
    fun _ _ _ hkey hfields h => hmgetReply_iff hkey hfields h client⟩

/-- An integer is decoded as one and not as a text, a hash with two fields is filled in, and a field that
is not there is not. -/
theorem replies_decoded_sample :
    Decoded (commandInteger (some (.integer 7)) 0 ⟨true, []⟩)
      (fun out => some (.integer 7) = some (RedisReply.integer out)) ∧
    ¬ Decoded (commandString (some (.integer 7)) [] ⟨true, []⟩)
      (fun out => (some (RedisReply.integer 7)).bind RedisReply.str = some out) ∧
    (∃ out, hgetallReply [107] (some (hashReply [([102], [118]), ([103], [119])])) (fun _ => none)
        ⟨true, []⟩ = some ⟨true, out, ⟨true, []⟩⟩ ∧
      ∀ k i, out k = some i ↔
        ∃ v, (k, v) ∈ [(([102] : Bytes), ([118] : Bytes)), ([103], [119])] ∧ i = ⟨.string, v⟩) ∧
    ¬ ∃ out, hmgetReply [107] [[102]] (some (.array [.nil])) (fun _ => none) ⟨true, []⟩ =
        some ⟨true, out, ⟨true, []⟩⟩ ∧
      ∀ k i, out k = some i ↔ ∃ j : Nat, ([[102]] : List Bytes)[j]? = some k ∧
        [RedisReply.nil][j]?.bind RedisReply.item = some i := by
  obtain ⟨hinteger, hstring, -, -, -, -, hgetall, hmget⟩ := replies_decoded_iff ⟨true, []⟩
  have hnil : FieldsReply [[102]] [.nil] := by
    refine ⟨rfl, by simp, fun i j f hi hj => ?_⟩
    cases i <;> cases j <;> simp_all
  refine ⟨(hinteger _ _).mpr ?_, fun h => ?_, ?_, fun h => ?_⟩
  · rintro r ⟨⟩ - -
    exact ⟨7, rfl⟩
  · obtain ⟨s, hs⟩ := (hstring _ _).mp h _ rfl (by simp) (by simp)
    cases hs
  · exact hgetall [107] [([102], [118]), ([103], [119])] (by simp) (by simp)
  · exact (hmget [107] [[102]] [.nil] (by simp) (by simp) hnil).mp h (by simp)

/-- A field without a value: `hgetall` reads the element behind the last one. A field that is not in
the hash: `hmget` reads the text of a nil. -/
theorem replies_read_outside :
    ¬ (∀ (reply : Option RedisReply) (m : HashMapDataItem) (client : ClientError),
      Decoded (commandArray reply m client)
        (fun out => ∃ es l, reply = some (.array es) ∧ ReadPairs es l ∧ out = insertAll m l)) ∧
    ¬ ∀ (vData : List Bytes) (reply : Option RedisReply) (m : HashMapDataItem)
        (client : ClientError),
      Decoded (commandArgvArray vData reply m client)
        (fun out => ∃ es l, reply = some (.array es) ∧
          ReadFields (vData.drop 2) es l ∧ out = insertAll m l) := by
  constructor
  · intro h
    obtain ⟨r, hr, -⟩ := h (some (.array [.string [102]])) (fun _ => none) ⟨true, []⟩
    cases hr
  · intro h
    obtain ⟨r, hr, -⟩ := h [ascii "HMGET", [107], [102]] (some (.array [.nil])) (fun _ => none)
      ⟨true, []⟩
    cases hr

end RedisCluster
end CmakeFrame
