import CmakeFrame.Zookconfig.ZookConfig
import Mathlib.Data.List.ReduceOption

/-!
# The brokers of zookeeper as one text

`set_brokerlist_from_zookeeper` stands in three files. Each reads the children of `/brokers/ids`, and
writes `host:port` of those with the right content into `char brokers[1024]`, with commas between
them. The consumer and the producer read the content with jansson, `ZooKafBrokers` with RapidJSON.

* `Json`, `JsonValue`: what the libraries parse. They need not agree on a text: of two members with
  one name jansson keeps the last, and `FindMember` takes the first. `none` of a result is a write
  behind a buffer.
* `brokerLoop`: the loop over the children; `brokerLoop_eq_some_iff`.
* `brokersOf`, `joined`: the text that should be written.
* `ListFits`, `NamedExactly`, `CodeExactly`, `SameBrokers`: the conditions; `broker_list_iff`.
* `broker_list_wrong`: a comma at the end, a child that cannot be read, `code` for `port`, and a host
  that is named twice.
-/

namespace CmakeFrame
namespace Zookafka

open Lib
open Zookconfig (Reply retry ZOK ZCONNECTIONLOSS ValueFits)

/-! ## The content of a child -/

/-- A member of an object. -/
inductive JsonValue where
  | string (value : Bytes)
  | integer (value : Int64)
  | other
  deriving DecidableEq, Repr

/-- A document, with the member of an object that the library gives for a name. -/
inductive Json where
  | object (members : Bytes → Option JsonValue)
  | other

/-- `"host"` -/
def hostKey : Bytes := [104, 111, 115, 116]
/-- `"port"` -/
def portKey : Bytes := [112, 111, 114, 116]
/-- `"code"` -/
def codeKey : Bytes := [99, 111, 100, 101]

/-- A broker in the list. -/
structure Broker where
  host : Bytes
  port : Int
  deriving DecidableEq, Repr

/-- `sprintf(brokerptr, "%s:%d", …)` -/
def Broker.text (b : Broker) : Bytes := b.host ++ 58 :: intDec b.port

/-- `json_string_value`, as `%s` prints it: a null pointer for a value that is no string. -/
def json_string_value : JsonValue → Bytes
  | .string value => cstr value
  | .integer _ | .other => [40, 110, 117, 108, 108, 41]

def json_integer_value : JsonValue → Int64
  | .integer value => value
  | .string _ | .other => 0

/-- What the consumer and the producer take from a document: the port is an `int`. -/
def janssonBroker : Option Json → Option Broker
  | some (.object members) =>
    match members hostKey, members portKey with
    | some jhost, some jport =>
      some ⟨json_string_value jhost, (json_integer_value jport).toInt32.toInt⟩
    | _, _ => none
  | some .other | none => none

/-- `IsInt` -/
def JsonValue.isInt : JsonValue → Bool
  | .integer value => -2 ^ 31 ≤ value.toInt ∧ value.toInt < 2 ^ 31
  | .string _ | .other => false

/-- `GetInt` of `doc[name]`, without the assertions: a name that is missing gives a null value, and
`word` is what stands where a value that is no integer has its number. -/
def getInt (word : JsonValue → Int32) : Option JsonValue → Int32
  | none => 0
  | some (.integer value) => value.toInt32
  | some value => word value

/-- `jHost`, of the member `host`. -/
def jHost : Option JsonValue → Bytes
  | some (.string host) => cstr host
  | some (.integer _) | some .other | none => []

/-- `jPort`, of the members `port` and `code`. -/
def jPort (word : JsonValue → Int32) (port code : Option JsonValue) : Int32 :=
  match port with
  | some port => if port.isInt then getInt word code else 0
  | none => 0

/-- What `ZooKafBrokers` takes from a document. -/
def rapidBroker (word : JsonValue → Int32) : Option Json → Option Broker
  | some (.object members) =>
    if jHost (members hostKey) ≠ [] ∧ jPort word (members portKey) (members codeKey) ≠ 0 then
      some ⟨jHost (members hostKey), (jPort word (members portKey) (members codeKey)).toInt⟩
    else none
  | some .other | none => none

/-! ## The loop -/

/-- A child of `/brokers/ids`; the content is `none` when `zoo_get` fails. -/
structure BrokerChild where
  name : Bytes
  content : Option Bytes
  deriving DecidableEq, Repr

/-- The loop over the children: what is in `brokers` so far, and `ret`. -/
def brokerLoop (take : Bytes → Option Broker) : List BrokerChild → Bytes → Int → Option (Bytes × Int)
  | [], brokers, ret => some (brokers, ret)
  | c :: rest, brokers, ret =>
    -- `char path[255]` with `/brokers/ids/` and the name
    if ¬ 13 + (cstr c.name).length < 255 then none
    else match c.content with
      -- `len` is still 1024
      | none => none
      | some value =>
        if value = [] then brokerLoop take rest brokers ret
        else if ¬ ValueFits value then none
        else match take (cstr value) with
          | none => brokerLoop take rest brokers ret
          | some b =>
            if ¬ brokers.length + b.text.length < 1024 then none
            else brokerLoop take rest (brokers ++ b.text ++ if rest = [] then [] else [44]) (ret + 1)

/-- The handle, and what zookeeper answers. -/
structure BrokerService where
  zzh : Bool
  zookeeperColonyNum : Nat
  getChildren : Nat → Reply Unit
  brokerlist : List BrokerChild

def setBrokerlist (take : Bytes → Option Broker) (w : BrokerService) : Option (Bytes × Int) :=
  if w.zzh then
    match retry w.zookeeperColonyNum w.getChildren with
    | .error code => some ([], code)
    | .loss => some ([], ZCONNECTIONLOSS)
    | .ok () => brokerLoop take w.brokerlist [] ZOK
  else some ([], 0)

/-- `parse` is what jansson makes of a text, with `json_object_get` for the members. -/
def ZooKfkTopicsPop.set_brokerlist_from_zookeeper (parse : Bytes → Option Json) (w : BrokerService) :
    Option (Bytes × Int) :=
  setBrokerlist (fun cfg => janssonBroker (parse cfg)) w

def ZooKfkTopicsPush.set_brokerlist_from_zookeeper (parse : Bytes → Option Json)
    (w : BrokerService) : Option (Bytes × Int) :=
  setBrokerlist (fun cfg => janssonBroker (parse cfg)) w

/-- `parse` is what RapidJSON makes of a text, with `FindMember` for the members. -/
def ZooKafBrokers.set_brokerlist_from_zookeeper (word : JsonValue → Int32)
    (parse : Bytes → Option Json) (w : BrokerService) : Option (Bytes × Int) :=
  setBrokerlist (fun cfg => rapidBroker word (parse cfg)) w

/-! ## The text that should be written -/

/-- The broker of a document with a string for the host and an integer for the port. -/
def wellFormed : Option Json → Option Broker
  | some (.object members) =>
    match members hostKey, members portKey with
    | some (.string host), some (.integer port) => some ⟨host, port.toInt⟩
    | _, _ => none
  | some .other | none => none

/-- The broker of a child that can be read. -/
def BrokerChild.broker (take : Option Json → Option Broker) (parse : Bytes → Option Json)
    (c : BrokerChild) : Option Broker :=
  c.content.bind fun value => take (parse (cstr value))

/-- The brokers of the children, in order. -/
def brokersOf (take : Option Json → Option Broker) (parse : Bytes → Option Json)
    (children : List BrokerChild) : List Broker :=
  (children.map (·.broker take parse)).reduceOption

/-- With commas between them. -/
def joined (brokers : List Broker) : Bytes := ([44] : Bytes).intercalate (brokers.map Broker.text)

/-- The text and the number that should come out. -/
def rightList (parse : Bytes → Option Json) (w : BrokerService) : Option (Bytes × Int) :=
  some (joined (brokersOf wellFormed parse w.brokerlist),
    (brokersOf wellFormed parse w.brokerlist).length)

/-- All three write one list, and it is the right one in the documents of both libraries. -/
def OneList (jansson rapid : Bytes → Option Json) (word : JsonValue → Int32) (w : BrokerService) :
    Prop :=
  ∃ out, rightList jansson w = out ∧ rightList rapid w = out ∧
    ZooKfkTopicsPop.set_brokerlist_from_zookeeper jansson w = out ∧
    ZooKfkTopicsPush.set_brokerlist_from_zookeeper jansson w = out ∧
    ZooKafBrokers.set_brokerlist_from_zookeeper word rapid w = out

/-! ## The conditions -/

/-- The child can be read, and its name and its content fit. -/
def BrokerChild.Fits (c : BrokerChild) : Prop :=
  13 + (cstr c.name).length < 255 ∧ ∃ value, c.content = some value ∧ ValueFits value

/-- All children fit, the text fits, and the last child has a broker if one has. -/
structure ListFits (parse : Bytes → Option Json) (children : List BrokerChild) : Prop where
  fits : ∀ c ∈ children, c.Fits
  room : (joined (brokersOf wellFormed parse children)).length < 1024
  last : brokersOf wellFormed parse children = [] ∨
    ∀ c ∈ children.getLast?, c.broker wellFormed parse ≠ none

/-- An object with both members has a string without a 0 for the host, and an integer of 32 bits for
the port. -/
def NamedExactly : Option Json → Prop
  | some (.object members) => ∀ jhost jport, members hostKey = some jhost →
      members portKey = some jport → ∃ host port, jhost = .string host ∧ jport = .integer port ∧
        0 ∉ host ∧ -2 ^ 31 ≤ port.toInt ∧ port.toInt < 2 ^ 31
  | some .other | none => True

/-- An object with a string for the host and an integer for the port has the port in `code` too; it is
not 0, and the string is not empty and has no 0. -/
def CodeExactly (word : JsonValue → Int32) : Option Json → Prop
  | some (.object members) => ∀ host port, members hostKey = some (.string host) →
      members portKey = some (.integer port) →
        host ≠ [] ∧ 0 ∉ host ∧ port ≠ 0 ∧ (getInt word (members codeKey)).toInt = port.toInt
  | some .other | none => True

/-- The brokers that jansson reads and those that RapidJSON reads have one text and one number. -/
def SameBrokers (jansson rapid : Bytes → Option Json) (children : List BrokerChild) : Prop :=
  joined (brokersOf wellFormed jansson children) = joined (brokersOf wellFormed rapid children) ∧
    (brokersOf wellFormed jansson children).length = (brokersOf wellFormed rapid children).length

/-- The content of every child that can be read meets a condition. -/
def AllContents (cond : Option Json → Prop) (parse : Bytes → Option Json)
    (children : List BrokerChild) : Prop :=
  ∀ c ∈ children, ∀ value, c.content = some value → cond (parse (cstr value))

/-! ## What is written -/

section

variable {take : Option Json → Option Broker} {parse : Bytes → Option Json} {c : BrokerChild}
  {children : List BrokerChild} {b b' : Broker}

@[simp] theorem joined_nil : joined [] = [] := List.intercalate_nil

@[simp] theorem joined_singleton (b : Broker) : joined [b] = b.text := List.intercalate_singleton

theorem joined_cons {bs : List Broker} (b : Broker) (h : bs ≠ []) :
    joined (b :: bs) = b.text ++ 44 :: joined bs := by
  cases bs with
  | nil => exact absurd rfl h
  | cons b' bs =>
    unfold joined
    simp only [List.map_cons]
    rw [List.intercalate_cons_cons, List.append_assoc]
    rfl

/-- What the loop writes, when the children have these brokers: a comma behind each but the one of
the last child. -/
def written : List (Option Broker) → Bytes
  | [] => []
  | none :: es => written es
  | some b :: es => b.text ++ (if es = [] then [] else [44]) ++ written es

/-- There is a comma at the end if the last child has no broker. -/
theorem written_eq (es : List (Option Broker)) : written es = joined es.reduceOption ++
    if es.reduceOption ≠ [] ∧ es.getLast? = some none then [44] else [] := by
  induction es with
  | nil => simp [written]
  | cons e es ih =>
    cases e with
    | none =>
      rw [written, ih, List.reduceOption_cons_of_none]
      cases es with
      | nil => simp
      | cons e' es => simp
    | some b =>
      rw [written, ih, List.reduceOption_cons_of_some]
      cases es with
      | nil => simp
      | cons e' es =>
        rw [List.getLast?_cons_cons]
        by_cases hnil : (e' :: es).reduceOption = []
        · have hlast : (e' :: es).getLast? = some none := by
            obtain ⟨n, hn⟩ := (List.reduceOption_eq_nil_iff _).mp hnil
            rw [hn, List.getLast?_replicate, if_neg]
            rintro rfl
            cases hn
          simp [hnil, hlast]
        · rw [joined_cons b hnil]
          simp [hnil]

theorem brokersOf_cons (c : BrokerChild) (children : List BrokerChild) :
    brokersOf take parse (c :: children) =
      (c.broker take parse).toList ++ brokersOf take parse children := by
  unfold brokersOf
  cases h : c.broker take parse <;> simp [h, List.reduceOption_cons_of_some]

theorem brokerLoop_of_not_fits {f : Bytes → Option Broker} (h : ¬ c.Fits) (brokers : Bytes)
    (ret : Int) : brokerLoop f (c :: children) brokers ret = none := by
  rw [brokerLoop]
  by_cases hname : 13 + (cstr c.name).length < 255
  · rw [if_neg (not_not.mpr hname)]
    cases hcontent : c.content with
    | none => rfl
    | some value =>
      have hvalue : ¬ ValueFits value := fun hfits => h ⟨hname, value, hcontent, hfits⟩
      have hne : value ≠ [] := by
        rintro rfl
        exact hvalue (show 0 < 1024 by decide)
      simp only [if_neg hne, if_pos hvalue]
  · rw [if_pos hname]

theorem brokerLoop_of_fits (hnone : take (parse []) = none) (h : c.Fits) (brokers : Bytes)
    (ret : Int) : brokerLoop (fun cfg => take (parse cfg)) (c :: children) brokers ret =
      match c.broker take parse with
      | none => brokerLoop (fun cfg => take (parse cfg)) children brokers ret
      | some b =>
        if brokers.length + b.text.length < 1024 then
          brokerLoop (fun cfg => take (parse cfg)) children
            (brokers ++ b.text ++ if children = [] then [] else [44]) (ret + 1)
        else none := by
  obtain ⟨hname, value, hcontent, hvalue⟩ := h
  rw [brokerLoop, if_neg (not_not.mpr hname), BrokerChild.broker, hcontent]
  simp only [Option.bind_some]
  by_cases hnil : value = []
  · have hcstr : cstr value = [] := by
      rw [hnil]
      rfl
    rw [if_pos hnil, hcstr, hnone]
  · rw [if_neg hnil, if_neg (not_not.mpr hvalue)]
    cases take (parse (cstr value)) with
    | none => rfl
    | some b => simp only [ite_not]

/-- What the loop does. -/
theorem brokerLoop_eq_some_iff (hnone : take (parse []) = none) {brokers : Bytes} {ret : Int}
    {r : Bytes × Int} :
    brokerLoop (fun cfg => take (parse cfg)) children brokers ret = some r ↔
      (∀ c ∈ children, c.Fits) ∧
      (brokersOf take parse children = [] ∨
        brokers.length + (joined (brokersOf take parse children)).length < 1024) ∧
      r = (brokers ++ written (children.map (·.broker take parse)),
        ret + (brokersOf take parse children).length) := by
  induction children generalizing brokers ret with
  | nil => simp [brokerLoop, brokersOf, written, eq_comm]
  | cons c children ih =>
    by_cases hfits : c.Fits
    · rw [brokerLoop_of_fits hnone hfits, List.forall_mem_cons, and_iff_right hfits, brokersOf_cons,
        List.map_cons]
      cases hb : c.broker take parse with
      | none => simpa [written] using ih
      | some b =>
        have hroom : (brokers.length + b.text.length < 1024 ∧
            (brokersOf take parse children = [] ∨
              (brokers ++ b.text ++ if children = [] then [] else [44]).length +
                (joined (brokersOf take parse children)).length < 1024)) ↔
            brokers.length + (joined (b :: brokersOf take parse children)).length < 1024 := by
          by_cases hrest : brokersOf take parse children = []
          · simp [hrest]
          · have hne : children ≠ [] := by
              rintro rfl
              exact hrest rfl
            rw [joined_cons b hrest]
            simp only [hrest, hne, if_false, false_or, List.length_append, List.length_cons,
              List.length_nil]
            omega
        simp only [Option.toList_some, List.singleton_append, List.cons_ne_nil, false_or, ← hroom]
        by_cases hlt : brokers.length + b.text.length < 1024
        · have hret : ret + ((b :: brokersOf take parse children).length : Int) =
              ret + 1 + (brokersOf take parse children).length := by
            rw [List.length_cons]
            omega
          rw [if_pos hlt, ih, hret]
          simp [hlt, written]
        · simp [hlt]
    · rw [brokerLoop_of_not_fits hfits]
      simp [hfits]

/-! ## Texts that are equal -/

/-- What stands behind a number is no part of it. -/
theorem intDec_append_inj {m n : Int} {s t : Bytes} (hs : EndsNumber s) (ht : EndsNumber t)
    (h : intDec m ++ s = intDec n ++ t) : m = n ∧ s = t := by
  have hnum : m = n := by rw [← scanInt_intDec m hs, h, scanInt_intDec n ht]
  subst hnum
  exact ⟨rfl, List.append_cancel_left h⟩

/-- Two brokers with the same text, when the first one has the other's host up to a 0. -/
theorem text_append_inj {s t : Bytes} (hhost : b.host = cstr b'.host) (hs : EndsNumber s)
    (ht : EndsNumber t) (h : b.text ++ s = b'.text ++ t) : b = b' ∧ s = t := by
  have hzero : 0 ∉ b'.host := by
    intro hmem
    obtain ⟨before, after, hsplit, hbefore⟩ := List.eq_append_cons_of_mem hmem
    have hcut : b.host = before := by
      rw [hhost, hsplit, cstr_append hbefore]
      simp [cstr]
    -- a colon would stand where the 0 is
    rw [Broker.text, Broker.text, hcut, hsplit, List.append_assoc, List.append_assoc,
      List.append_assoc] at h
    have hhead := (List.cons.inj (List.append_cancel_left h)).1
    exact absurd hhead (by decide)
  rw [cstr_eq_self hzero] at hhost
  rw [Broker.text, Broker.text, hhost, List.append_assoc, List.append_assoc] at h
  have hrest := (List.cons.inj (List.append_cancel_left h)).2
  obtain ⟨hport, heq⟩ := intDec_append_inj hs ht hrest
  refine ⟨?_, heq⟩
  cases b
  cases b'
  cases hhost
  cases hport
  rfl

theorem endsNumber_comma (s : Bytes) : EndsNumber (44 :: s) := endsNumber_cons (by decide)

/-- Two lists with the same text, but for a comma at the end of the first one. -/
theorem joined_inj {bs bs' : List Broker}
    (hhosts : List.Forall₂ (fun b b' => b.host = cstr b'.host) bs bs') {t : Bytes}
    (ht : t = [] ∨ t = [44]) (h : joined bs ++ t = joined bs') : bs = bs' ∧ t = [] := by
  have hends : EndsNumber t := by
    rcases ht with rfl | rfl
    · simp [EndsNumber]
    · exact endsNumber_comma []
  induction hhosts with
  | nil => exact ⟨rfl, h⟩
  | @cons b b' bs bs' hhost hrest ih =>
    cases hrest with
    | nil =>
      rw [joined_singleton, joined_singleton, ← List.append_nil b'.text] at h
      obtain ⟨rfl, rfl⟩ := text_append_inj hhost hends (by simp [EndsNumber]) h
      exact ⟨rfl, rfl⟩
    | cons _ _ =>
      rw [joined_cons b (by simp), joined_cons b' (by simp), List.append_assoc,
        List.cons_append] at h
      obtain ⟨rfl, htail⟩ := text_append_inj hhost (endsNumber_comma _) (endsNumber_comma _) h
      obtain ⟨hbs, rfl⟩ := ih (List.cons.inj htail).2
      exact ⟨by rw [hbs], rfl⟩

/-! ## Brokers that are taken -/

theorem length_brokersOf : (brokersOf take parse children).length =
    (children.filter fun c => (c.broker take parse).isSome).length := by
  induction children with
  | nil => rfl
  | cons c children ih =>
    rw [brokersOf_cons, List.filter_cons]
    cases h : c.broker take parse <;> simp [ih]

theorem broker_isSome_of {take' : Option Json → Option Broker}
    (h : ∀ doc, (take doc).isSome → (take' doc).isSome) (hc : (c.broker take parse).isSome) :
    (c.broker take' parse).isSome := by
  unfold BrokerChild.broker at hc ⊢
  cases hcontent : c.content with
  | none => simp [hcontent] at hc
  | some value =>
    rw [hcontent] at hc
    exact h _ hc

/-- When no more brokers are taken than there are, or no fewer, and the number is the same, the same
children have one. -/
theorem broker_isSome_iff {take' : Option Json → Option Broker}
    (h : ∀ c ∈ children, (c.broker take parse).isSome → (c.broker take' parse).isSome)
    (hlen : (brokersOf take parse children).length = (brokersOf take' parse children).length) :
    ∀ c ∈ children, (c.broker take parse).isSome = (c.broker take' parse).isSome := by
  rw [length_brokersOf, length_brokersOf] at hlen
  have hsub : (children.filter fun c => (c.broker take parse).isSome).Sublist
      (children.filter fun c => (c.broker take' parse).isSome) := by
    have hboth : (children.filter fun c => (c.broker take parse).isSome) =
        (children.filter fun c => (c.broker take' parse).isSome).filter
          fun c => (c.broker take parse).isSome := by
      rw [List.filter_filter]
      refine List.filter_congr fun c hc => ?_
      have := h c hc
      grind
    rw [hboth]
    exact List.filter_sublist
  have heq := hsub.eq_of_length hlen
  intro c hc
  have hmem := congrArg (c ∈ ·) heq
  simp only [List.mem_filter, hc, true_and, eq_iff_iff] at hmem
  exact Bool.eq_iff_iff.mpr hmem

theorem forall₂_brokersOf {take' : Option Json → Option Broker} {R : Broker → Broker → Prop}
    (hsome : ∀ c ∈ children, (c.broker take parse).isSome = (c.broker take' parse).isSome)
    (hR : ∀ c ∈ children, ∀ b b', c.broker take parse = some b → c.broker take' parse = some b' →
      R b b') : List.Forall₂ R (brokersOf take parse children) (brokersOf take' parse children) := by
  induction children with
  | nil => exact .nil
  | cons c children ih =>
    have ih := ih (fun d hd => hsome d (.tail _ hd)) fun d hd => hR d (.tail _ hd)
    have hc := hsome c (.head _)
    rw [brokersOf_cons, brokersOf_cons]
    cases h : c.broker take parse with
    | none =>
      rw [h] at hc
      rw [Option.isSome_eq_false_iff.mp hc.symm |> Option.isNone_iff_eq_none.mp]
      exact ih
    | some b =>
      rw [h] at hc
      obtain ⟨b', hb'⟩ := Option.isSome_iff_exists.mp hc.symm
      rw [hb']
      exact .cons (hR c (.head _) b b' h hb') ih

/-- Equal lists, taken from the same children. -/
theorem broker_eq_of_brokersOf_eq {take' : Option Json → Option Broker}
    (hsome : ∀ c ∈ children, (c.broker take parse).isSome = (c.broker take' parse).isSome)
    (h : brokersOf take parse children = brokersOf take' parse children) :
    ∀ c ∈ children, c.broker take parse = c.broker take' parse := by
  induction children with
  | nil => simp
  | cons c children ih =>
    have hc := hsome c (.head _)
    rw [brokersOf_cons, brokersOf_cons] at h
    have hhead : c.broker take parse = c.broker take' parse ∧
        brokersOf take parse children = brokersOf take' parse children := by
      cases hb : c.broker take parse <;> cases hb' : c.broker take' parse <;> simp_all
    intro d hd
    rcases List.mem_cons.mp hd with rfl | hd
    · exact hhead.1
    · exact ih (fun e he => hsome e (.tail _ he)) hhead.2 d hd

/-! ## The list -/

theorem broker_eq_of_contents {take' : Option Json → Option Broker}
    (h : AllContents (fun doc => take doc = take' doc) parse children) :
    ∀ c ∈ children, c.broker take parse = c.broker take' parse := by
  intro c hc
  unfold BrokerChild.broker
  cases hcontent : c.content with
  | none => rfl
  | some value => exact h c hc value hcontent

theorem contents_of_broker_eq {take' : Option Json → Option Broker}
    (h : ∀ c ∈ children, c.broker take parse = c.broker take' parse) :
    AllContents (fun doc => take doc = take' doc) parse children := by
  intro c hc value hcontent
  have heq := h c hc
  unfold BrokerChild.broker at heq
  rwa [hcontent] at heq

theorem written_children : written (children.map (·.broker take parse)) =
    joined (brokersOf take parse children) ++
      if brokersOf take parse children ≠ [] ∧
        (children.map (·.broker take parse)).getLast? = some none then [44] else [] :=
  written_eq _

/-- There is a comma at the end if some child has a broker, and the last one has none. -/
theorem noComma_iff : (if brokersOf take parse children ≠ [] ∧
      (children.map (·.broker take parse)).getLast? = some none then ([44] : Bytes) else []) = [] ↔
    brokersOf take parse children = [] ∨ ∀ c ∈ children.getLast?, c.broker take parse ≠ none := by
  rw [List.getLast?_map]
  cases children.getLast? <;> grind

/-- The loop writes the right text exactly when it takes the right brokers. -/
theorem setBrokerlist_iff {w : BrokerService} (hnone : take none = none) (hparse : parse [] = none)
    (hzzh : w.zzh = true) (hget : retry w.zookeeperColonyNum w.getChildren = .ok ())
    (hsome : (∀ doc, (take doc).isSome → (wellFormed doc).isSome) ∨
      ∀ doc, (wellFormed doc).isSome → (take doc).isSome)
    (hhost : ∀ doc b b', take doc = some b → wellFormed doc = some b' → b.host = cstr b'.host) :
    setBrokerlist (fun cfg => take (parse cfg)) w = rightList parse w ↔
      ListFits parse w.brokerlist ∧
        AllContents (fun doc => take doc = wellFormed doc) parse w.brokerlist := by
  rw [setBrokerlist, if_pos hzzh, hget, rightList]
  simp only
  rw [brokerLoop_eq_some_iff (by rw [hparse, hnone]), written_children, Prod.mk.injEq]
  constructor
  · rintro ⟨hfits, hroom, htext, hlen⟩
    have hlen : (brokersOf take parse w.brokerlist).length =
        (brokersOf wellFormed parse w.brokerlist).length := by
      have : ZOK = 0 := rfl
      omega
    have hsome : ∀ c ∈ w.brokerlist,
        (c.broker take parse).isSome = (c.broker wellFormed parse).isSome := by
      rcases hsome with hsome | hsome
      · exact broker_isSome_iff (fun _ _ => broker_isSome_of hsome) hlen
      · intro c hc
        exact (broker_isSome_iff (fun _ _ => broker_isSome_of hsome) hlen.symm c hc).symm
    have hhosts := forall₂_brokersOf (R := fun b b' => b.host = cstr b'.host) hsome
      fun c _ b b' hb hb' => by
        unfold BrokerChild.broker at hb hb'
        obtain ⟨value, hcontent, hb⟩ := Option.bind_eq_some_iff.mp hb
        rw [hcontent] at hb'
        exact hhost _ b b' hb hb'
    rw [List.nil_append] at htext
    obtain ⟨heq, hcomma⟩ := joined_inj hhosts (by split <;> simp) htext.symm
    have heach := broker_eq_of_brokersOf_eq hsome heq
    rw [heq, List.length_nil, Nat.zero_add] at hroom
    refine ⟨⟨hfits, ?_, ?_⟩, contents_of_broker_eq heach⟩
    · rcases hroom with hnil | hroom
      · rw [hnil]
        decide
      · exact hroom
    · refine (noComma_iff.mp hcomma).imp (fun h => heq ▸ h) fun h c hc => ?_
      rw [← heach c (List.mem_of_mem_getLast? hc)]
      exact h c hc
  · rintro ⟨⟨hfits, hroom, hlast⟩, hcontents⟩
    have heach := broker_eq_of_contents hcontents
    have heq : brokersOf take parse w.brokerlist = brokersOf wellFormed parse w.brokerlist := by
      unfold brokersOf
      rw [List.map_congr_left heach]
    have hcomma := noComma_iff.mpr (hlast.imp (fun h => heq.trans h) fun h c hc => by
      rw [heach c (List.mem_of_mem_getLast? hc)]
      exact h c hc)
    refine ⟨hfits, .inr ?_, ?_, ?_⟩
    · rw [heq, List.length_nil, Nat.zero_add]
      exact hroom
    · rw [hcomma, heq, List.nil_append, List.append_nil]
    · rw [heq]
      exact (Int.zero_add _).symm

end

/-! ## The two libraries -/

section

variable {word : JsonValue → Int32} {doc : Option Json} {members : Bytes → Option JsonValue}
  {b b' : Broker}

theorem wellFormed_eq_some_iff : wellFormed doc = some b ↔ ∃ members host port,
    doc = some (.object members) ∧ members hostKey = some (.string host) ∧
      members portKey = some (.integer port) ∧ b = ⟨host, port.toInt⟩ := by
  unfold wellFormed
  constructor
  · intro h
    grind
  · rintro ⟨members, host, port, rfl, hhost, hport, rfl⟩
    simp only [hhost, hport]

theorem janssonBroker_object {jhost jport : JsonValue} (hhost : members hostKey = some jhost)
    (hport : members portKey = some jport) : janssonBroker (some (.object members)) =
      some ⟨json_string_value jhost, (json_integer_value jport).toInt32.toInt⟩ := by
  simp only [janssonBroker, hhost, hport]

theorem janssonBroker_isSome (h : (wellFormed doc).isSome) : (janssonBroker doc).isSome := by
  obtain ⟨b, hb⟩ := Option.isSome_iff_exists.mp h
  obtain ⟨members, host, port, rfl, hhost, hport, -⟩ := wellFormed_eq_some_iff.mp hb
  rw [janssonBroker_object hhost hport]
  rfl

theorem janssonBroker_host (h : janssonBroker doc = some b) (h' : wellFormed doc = some b') :
    b.host = cstr b'.host := by
  obtain ⟨members, host, port, rfl, hhost, hport, rfl⟩ := wellFormed_eq_some_iff.mp h'
  rw [janssonBroker_object hhost hport] at h
  cases h
  rfl

theorem toInt_toInt32_iff (port : Int64) :
    port.toInt32.toInt = port.toInt ↔ -2 ^ 31 ≤ port.toInt ∧ port.toInt < 2 ^ 31 := by
  rw [Int64.toInt_toInt32, Int.bmod]
  omega

theorem cstr_eq_self_iff {s : Bytes} : cstr s = s ↔ 0 ∉ s :=
  ⟨fun h => h ▸ zero_notMem_cstr s, cstr_eq_self⟩

theorem janssonBroker_eq_iff (doc : Option Json) :
    janssonBroker doc = wellFormed doc ↔ NamedExactly doc := by
  cases doc with
  | none => exact iff_of_true rfl trivial
  | some json =>
    cases json with
    | other => exact iff_of_true rfl trivial
    | object members =>
      simp only [NamedExactly]
      constructor
      · intro h jhost jport hhost hport
        rw [janssonBroker_object hhost hport] at h
        obtain ⟨members', host, port, hdoc, hhost', hport', heq⟩ := wellFormed_eq_some_iff.mp h.symm
        cases hdoc
        rw [hhost] at hhost'
        rw [hport] at hport'
        cases hhost'
        cases hport'
        have heq := Broker.mk.inj heq
        exact ⟨host, port, rfl, rfl, cstr_eq_self_iff.mp heq.1, (toInt_toInt32_iff port).mp heq.2⟩
      · intro h
        cases hhost : members hostKey with
        | none => simp [janssonBroker, wellFormed, hhost]
        | some jhost =>
          cases hport : members portKey with
          | none => simp [janssonBroker, wellFormed, hhost, hport]
          | some jport =>
            obtain ⟨host, port, rfl, rfl, hzero, hrange⟩ := h jhost jport hhost hport
            rw [janssonBroker_object hhost hport]
            simp only [wellFormed, hhost, hport, json_string_value, json_integer_value,
              cstr_eq_self hzero, (toInt_toInt32_iff port).mpr hrange]

theorem jHost_ne_nil {v : Option JsonValue} (h : jHost v ≠ []) :
    ∃ host, v = some (.string host) ∧ jHost v = cstr host := by
  unfold jHost at h ⊢
  split at h
  · exact ⟨_, rfl, rfl⟩
  · exact absurd rfl h
  · exact absurd rfl h
  · exact absurd rfl h

theorem jPort_ne_zero {v code : Option JsonValue} (h : jPort word v code ≠ 0) :
    ∃ port, v = some (.integer port) ∧ (JsonValue.integer port).isInt = true ∧
      jPort word v code = getInt word code := by
  unfold jPort at h ⊢
  split at h
  · rename_i port
    split at h
    · rename_i hint
      cases port with
      | integer value => exact ⟨value, rfl, hint, if_pos hint⟩
      | string value => cases hint
      | other => cases hint
    · exact absurd rfl h
  · exact absurd rfl h

theorem rapidBroker_eq_some_iff : rapidBroker word doc = some b ↔ ∃ members host port,
    doc = some (.object members) ∧ members hostKey = some (.string host) ∧
      members portKey = some (.integer port) ∧ (JsonValue.integer port).isInt = true ∧
      cstr host ≠ [] ∧ getInt word (members codeKey) ≠ 0 ∧
      b = ⟨cstr host, (getInt word (members codeKey)).toInt⟩ := by
  unfold rapidBroker
  constructor
  · intro h
    split at h
    · rename_i members
      split at h
      · rename_i hcond
        obtain ⟨host, hhost, hj⟩ := jHost_ne_nil hcond.1
        obtain ⟨port, hport, hint, hp⟩ := jPort_ne_zero hcond.2
        rw [hj, hp] at h hcond
        exact ⟨members, host, port, rfl, hhost, hport, hint, hcond.1, hcond.2, (Option.some.inj h).symm⟩
      · cases h
    · cases h
    · cases h
  · rintro ⟨members, host, port, rfl, hhost, hport, hint, hne, hcode, rfl⟩
    simp [hhost, hport, hint, hne, hcode, jHost, jPort]

theorem rapidBroker_isSome (h : (rapidBroker word doc).isSome) : (wellFormed doc).isSome := by
  obtain ⟨b, hb⟩ := Option.isSome_iff_exists.mp h
  obtain ⟨members, host, port, rfl, hhost, hport, -⟩ := rapidBroker_eq_some_iff.mp hb
  exact Option.isSome_iff_exists.mpr
    ⟨_, wellFormed_eq_some_iff.mpr ⟨members, host, port, rfl, hhost, hport, rfl⟩⟩

theorem rapidBroker_host (h : rapidBroker word doc = some b) (h' : wellFormed doc = some b') :
    b.host = cstr b'.host := by
  obtain ⟨members, host, port, rfl, hhost, -, rfl⟩ := wellFormed_eq_some_iff.mp h'
  obtain ⟨members', host', port', hdoc, hhost', -, -, -, -, rfl⟩ := rapidBroker_eq_some_iff.mp h
  cases hdoc
  rw [hhost] at hhost'
  cases hhost'
  rfl

theorem rapidBroker_eq_iff (word : JsonValue → Int32) (doc : Option Json) :
    rapidBroker word doc = wellFormed doc ↔ CodeExactly word doc := by
  cases doc with
  | none => exact iff_of_true rfl trivial
  | some json =>
    cases json with
    | other => exact iff_of_true rfl trivial
    | object members =>
      simp only [CodeExactly]
      constructor
      · intro h host port hhost hport
        have hwf := wellFormed_eq_some_iff.mpr ⟨members, host, port, rfl, hhost, hport, rfl⟩
        rw [hwf] at h
        obtain ⟨members', host', port', hdoc, hhost', hport', hint, hne, hcode, heq⟩ :=
          rapidBroker_eq_some_iff.mp h
        cases hdoc
        rw [hhost] at hhost'
        rw [hport] at hport'
        cases hhost'
        cases hport'
        have heq := Broker.mk.inj heq
        refine ⟨fun hnil => hne (by rw [hnil]; rfl), cstr_eq_self_iff.mp heq.1.symm, ?_, heq.2.symm⟩
        rintro rfl
        exact hcode (Int32.toInt_inj.mp heq.2.symm)
      · intro h
        cases hwf : wellFormed (some (.object members)) with
        | none =>
          rw [Option.eq_none_iff_forall_ne_some]
          intro b hb
          have hsome := rapidBroker_isSome (Option.isSome_iff_exists.mpr ⟨b, hb⟩)
          rw [hwf] at hsome
          cases hsome
        | some b =>
          obtain ⟨members', host, port, hdoc, hhost, hport, rfl⟩ := wellFormed_eq_some_iff.mp hwf
          cases hdoc
          obtain ⟨hne, hzero, hport0, hcode⟩ := h host port hhost hport
          have hrange := (getInt word (members codeKey)).le_toInt
          have hrange' := (getInt word (members codeKey)).toInt_lt
          refine rapidBroker_eq_some_iff.mpr ⟨members, host, port, rfl, hhost, hport, ?_, ?_, ?_, ?_⟩
          · simp only [JsonValue.isInt, decide_eq_true_eq]
            omega
          · rwa [cstr_eq_self hzero]
          · intro h0
            rw [h0] at hcode
            exact hport0 (Int64.toInt_inj.mp hcode.symm)
          · rw [cstr_eq_self hzero, hcode]

end

theorem rightList_eq_iff {jansson rapid : Bytes → Option Json} {w : BrokerService} :
    rightList jansson w = rightList rapid w ↔ SameBrokers jansson rapid w.brokerlist := by
  unfold rightList SameBrokers
  rw [Option.some_inj, Prod.mk.injEq, Nat.cast_inj]

/-- **The list of the brokers.** For every list of children and every content, each version writes the
brokers of its library's documents with commas between them and returns their number exactly under its
condition: all children can be read and fit, the last one has a broker if one has, and every content
is one from which the version takes what it should. The three write one list exactly when all these
conditions hold and both libraries read the same brokers. -/
theorem broker_list_iff (jansson rapid : Bytes → Option Json) (word : JsonValue → Int32)
    (w : BrokerService) (hjansson : jansson [] = none) (hrapid : rapid [] = none)
    (hzzh : w.zzh = true) (hget : retry w.zookeeperColonyNum w.getChildren = .ok ()) :
    (ZooKfkTopicsPop.set_brokerlist_from_zookeeper jansson w = rightList jansson w ↔
      ListFits jansson w.brokerlist ∧ AllContents NamedExactly jansson w.brokerlist) ∧
    (ZooKfkTopicsPush.set_brokerlist_from_zookeeper jansson w = rightList jansson w ↔
      ListFits jansson w.brokerlist ∧ AllContents NamedExactly jansson w.brokerlist) ∧
    (ZooKafBrokers.set_brokerlist_from_zookeeper word rapid w = rightList rapid w ↔
      ListFits rapid w.brokerlist ∧ AllContents (CodeExactly word) rapid w.brokerlist) ∧
    (OneList jansson rapid word w ↔
      (ListFits jansson w.brokerlist ∧ AllContents NamedExactly jansson w.brokerlist) ∧
      (ListFits rapid w.brokerlist ∧ AllContents (CodeExactly word) rapid w.brokerlist) ∧
      SameBrokers jansson rapid w.brokerlist) := by
  have hnamed := setBrokerlist_iff (show janssonBroker none = none from rfl) hjansson hzzh hget
    (.inr fun _ => janssonBroker_isSome) fun _ _ _ => janssonBroker_host
  have hcode := setBrokerlist_iff (show rapidBroker word none = none from rfl) hrapid hzzh hget
    (.inl fun _ => rapidBroker_isSome) fun _ _ _ => rapidBroker_host
  simp only [janssonBroker_eq_iff] at hnamed
  simp only [rapidBroker_eq_iff] at hcode
  refine ⟨hnamed, hnamed, hcode, ?_⟩
  rw [← hnamed, ← hcode, ← rightList_eq_iff]
  constructor
  · rintro ⟨out, hright, hright', hpop, -, hbrokers⟩
    exact ⟨hpop.trans hright.symm, hbrokers.trans hright'.symm, hright.trans hright'.symm⟩
  · rintro ⟨hpop, hbrokers, hsame⟩
    exact ⟨rightList jansson w, rfl, hsame.symm, hpop, hpop, hbrokers.trans hsame.symm⟩

/-- `{"host":"a","port":9}` -/
def contentA : Bytes :=
  [123, 34, 104, 111, 115, 116, 34, 58, 34, 97, 34, 44, 34, 112, 111, 114, 116, 34, 58, 57, 125]

/-- `{"host":"a","port":9,"code":9}` -/
def contentCode : Bytes :=
  [123, 34, 104, 111, 115, 116, 34, 58, 34, 97, 34, 44, 34, 112, 111, 114, 116, 34, 58, 57, 44, 34, 99,
    111, 100, 101, 34, 58, 57, 125]

/-- `{"host":"a","host":"b","port":9,"code":9}` -/
def contentTwice : Bytes :=
  [123, 34, 104, 111, 115, 116, 34, 58, 34, 97, 34, 44, 34, 104, 111, 115, 116, 34, 58, 34, 98, 34, 44,
    34, 112, 111, 114, 116, 34, 58, 57, 44, 34, 99, 111, 100, 101, 34, 58, 57, 125]

/-- The members of an object with this host, with the port 9, and with 9 for `code` if it is there. -/
def members9 (host : Bytes) (code : Option JsonValue) (name : Bytes) : Option JsonValue :=
  if name = hostKey then some (.string host)
  else if name = portKey then some (.integer 9)
  else if name = codeKey then code
  else none

/-- What these contents and `{}` are as documents, when `twice` is the host that is taken of the two in
`contentTwice`. -/
def fourTexts (twice text : Bytes) : Option Json :=
  if text = contentA then some (.object (members9 [97] none))
  else if text = contentCode then some (.object (members9 [97] (some (.integer 9))))
  else if text = contentTwice then some (.object (members9 twice (some (.integer 9))))
  else if text = [123, 125] then some (.object fun _ => none)
  else none

/-- jansson takes the last one. -/
def janssonTexts : Bytes → Option Json := fourTexts [98]

/-- RapidJSON takes the first one. -/
def rapidTexts : Bytes → Option Json := fourTexts [97]

/-- Children with these contents. -/
def withContents (contents : List (Option Bytes)) : BrokerService :=
  ⟨true, 1, fun _ => .ok (), contents.map fun content => ⟨[49], content⟩⟩

theorem listFits_contentCode (twice : Bytes) :
    ListFits (fourTexts twice) (withContents [some contentCode]).brokerlist := by
  refine ⟨fun c hc => ?_, ?_, .inr fun c hc => ?_⟩
  · obtain rfl := List.mem_singleton.mp hc
    exact ⟨by decide, contentCode, rfl, by decide⟩
  · change (joined [⟨[97], 9⟩]).length < 1024
    decide
  · cases hc
    exact Option.some_ne_none (⟨[97], 9⟩ : Broker)

/-- One broker is listed by all three. -/
theorem broker_list_one : OneList janssonTexts rapidTexts (fun _ => 0)
    (withContents [some contentCode]) := by
  refine ((broker_list_iff janssonTexts rapidTexts (fun _ => 0) (withContents [some contentCode])
    rfl rfl rfl rfl).2.2.2).mpr ⟨⟨listFits_contentCode _, fun c hc value hvalue => ?_⟩,
      ⟨listFits_contentCode _, fun c hc value hvalue => ?_⟩, rfl, rfl⟩
  · obtain rfl := List.mem_singleton.mp hc
    cases hvalue
    intro jhost jport hhost hport
    cases hhost
    cases hport
    exact ⟨[97], 9, rfl, rfl, by decide, by decide, by decide⟩
  · obtain rfl := List.mem_singleton.mp hc
    cases hvalue
    intro host port hhost hport
    cases hhost
    cases hport
    decide

/-- A last child without a broker leaves a comma; behind one that cannot be read, the 0 goes behind
`cfg`; RapidJSON is asked for `code`; and of two hosts jansson takes the last, RapidJSON the first. -/
theorem broker_list_wrong :
    (¬ ∀ contents, ZooKfkTopicsPop.set_brokerlist_from_zookeeper janssonTexts
      (withContents contents) = rightList janssonTexts (withContents contents)) ∧
    (¬ ∀ contents, ZooKfkTopicsPush.set_brokerlist_from_zookeeper janssonTexts
      (withContents contents) = rightList janssonTexts (withContents contents)) ∧
    (¬ ∀ contents, ZooKafBrokers.set_brokerlist_from_zookeeper (fun _ => 0) rapidTexts
      (withContents contents) = rightList rapidTexts (withContents contents)) ∧
    ZooKfkTopicsPop.set_brokerlist_from_zookeeper janssonTexts (withContents [some contentTwice]) ≠
      ZooKafBrokers.set_brokerlist_from_zookeeper (fun _ => 0) rapidTexts
        (withContents [some contentTwice]) := by
  refine ⟨fun h => ?_, fun h => ?_, fun h => ?_, by decide⟩
  · exact absurd (h [some contentA, some [123, 125]]) (by decide)
  · exact absurd (h [none]) (by decide)
  · exact absurd (h [some contentA]) (by decide)

end Zookafka
end CmakeFrame
