import CmakeFrame.Lib.Search
import CmakeFrame.Lib.Sys
import CmakeFrame.Lib.Threads
import Mathlib.Data.List.Range

/-!
# `zookafka/src/ZooKfkProducer.cpp`: sending while the brokers change

A watcher of zookeeper replaces all producers by new ones while other threads are in `send`. The flag
`isBroChang` keeps calls of `send` out, and `pushNow` counts those that are in; both are `volatile int`,
so that `pushNow++` is a load and a store.

* `kfkInit`, `SendPc`, `sendStep`, `ChangePc`, `changeStep`: the functions; `producerSystem`: any number of
  calls of `send`, and one change after the other.
* `Counts`: `pushNow` counts the calls that are in and those that returned an error.
* `failed_send_blocks`: behind a call that returned an error no change ends, and no call gets in any more
  once a change has begun.
* `Covered`: the condition on a step; `Safe`: the invariant; `send_safe`: each message goes to a producer
  of the brokers that are current, and no producer is used behind its `delete`.
-/

namespace CmakeFrame
namespace Zookafka
namespace Producer

open Lib

/-! ## The producer -/

/-- An object of librdkafka, with the brokers that it was made for; `id` tells the objects apart. -/
structure Handle where
  id : Nat
  brokers : Bytes
  deriving DecidableEq, Repr

/-- `none` in a vector is a null pointer. -/
structure ZooKfkProducer where
  kfkProducerVect : List (Option Handle)
  kfkTopicVevt : List (Option Handle)
  kfkBrokers : Bytes
  topic_ : Bytes
  producerSize : Int32
  lastIndex : UInt32
  isBroChang : Bool
  pushNow : Int32
  deriving DecidableEq, Repr

/-- What librdkafka gives to `kfkInit`: the configurations, and each producer and topic. -/
structure InitEnv where
  conf : Bool
  producer : Nat → Bool
  topic : Nat → Bool

namespace ZooKfkProducer

/-- How many of `n` objects are created before one fails. -/
def firstOk (create : Nat → Bool) (n : Nat) : Nat := ((List.range n).takeWhile create).length

/-- `n` objects, of which the first one has the number `id`. -/
def handles (id n : Nat) (brokers : Bytes) : List (Option Handle) :=
  (List.range n).map fun i => some ⟨id + i, brokers⟩

/-- The number of elements that the loops go through. -/
def count (pNum : Int32) : Nat := pNum.toInt.toNat

/-- `kfkInit(brokers, topic, pNum)` without the callbacks: the producer, how many objects were created so
far, and the result. -/
def kfkInit (p : ZooKfkProducer) (brokers topic : Bytes) (pNum : Int32) (env : InitEnv)
    (created : Nat) : ZooKfkProducer × Nat × Int :=
  if env.conf = false then (p, created, -5)
  else if topic = [] ∧ p.topic_ = [] then (p, created, -4)
  else if brokers = [] ∧ p.kfkBrokers = [] then (p, created, -3)
  else
    let p := if brokers = [] then p else { p with kfkBrokers := brokers }
    let producers := firstOk env.producer (count pNum)
    let p := { p with
      kfkProducerVect := p.kfkProducerVect ++ handles created producers p.kfkBrokers }
    let created := created + producers
    if producers < count pNum then (p, created, -6)
    else
      let topics := firstOk env.topic (count pNum)
      let p := { p with kfkTopicVevt := p.kfkTopicVevt ++ handles created topics p.kfkBrokers }
      let created := created + topics
      if topics < count pNum then (p, created, -7)
      else
        ({ p with
          topic_ := if topic = [] then p.topic_ else topic
          producerSize := pNum }, created, 0)

end ZooKfkProducer

/-! ## The threads -/

/-- Where a call of `send` is. -/
inductive SendPc where
  /-- At `while(isBroChang)`, with `send_timeout_times`. -/
  | test (times : Int)
  /-- `pushNow++`: the load, then the store. -/
  | inc (times : Int)
  | incStore (times : Int) (v : Int32)
  | pick (times : Int)
  | produce (times : Int) (index : Nat)
  /-- The loop that waits for a shorter queue. -/
  | wait (cnt : Int) (index : Nat)
  | check (index : Nat)
  /-- `pushNow--`: the load, then the store. -/
  | dec
  | decStore (v : Int32)
  | returned (ret : Int)
  deriving DecidableEq, Repr

/-- Where `changeKafkaBrokers` is. -/
inductive ChangePc where
  | idle
  /-- At `while(pushNow)`. -/
  | wait (brokers : Bytes)
  | deleteProducers (brokers : Bytes)
  | deleteTopics (brokers : Bytes)
  | init (brokers : Bytes)
  /-- `isBroChang = 0` -/
  | clear
  deriving DecidableEq, Repr

/-- `deleted` are the objects that were deleted. `created`, `entered` (how many calls of `send` have seen
the flag clear), `sent` (the producer that took a message, with the brokers of that moment) and `fault`
(an access outside of a vector or to a deleted object, or a division by 0) are history. -/
structure ProducerState where
  p : ZooKfkProducer
  sends : List SendPc
  change : ChangePc
  deleted : List Nat
  created : Nat
  entered : Nat
  sent : List (Handle × Bytes)
  fault : Bool

/-- What librdkafka answers in one step of `send`: whether `produce` takes the message, and whether the
queue is longer than `send_wnd_size`. -/
structure SendIo where
  accepts : Bool
  long : Bool
  deriving DecidableEq, Repr

inductive ProducerAct where
  | send (times : Int)
  | sendStep (i : Nat) (io : SendIo)
  | change (brokers : Bytes)
  | changeStep (env : InitEnv)

namespace ProducerState

/-- A use of `vec[index]`. -/
def handleAt (s : ProducerState) (vec : List (Option Handle)) (index : Nat) : Option Handle :=
  match vec[index]? with
  | some (some h) => if s.deleted.contains h.id then none else some h
  | _ => none

/-- `lastIndex.incrementAndGet() % producerSize`; `producerSize` is converted to an unsigned number. -/
def pickIndex (p : ZooKfkProducer) : Option Nat :=
  let size := (p.producerSize.toInt % 4294967296).toNat
  if size = 0 then none else some ((p.lastIndex + 1).toNat % size)

/-- One step of `send`. A step that goes wrong ends the call. -/
def sendStep (s : ProducerState) (io : SendIo) : SendPc → ProducerState × SendPc
  | .test times =>
    if s.p.isBroChang then (s, .test times) else ({ s with entered := s.entered + 1 }, .inc times)
  | .inc times => (s, .incStore times s.p.pushNow)
  | .incStore times v => ({ s with p := { s.p with pushNow := v + 1 } }, .pick times)
  | .pick times =>
    match pickIndex s.p with
    | none => ({ s with fault := true }, .returned (-5))
    | some index =>
      let s := { s with p := { s.p with lastIndex := s.p.lastIndex + 1 } }
      match s.p.kfkProducerVect[index]? with
      | none => ({ s with fault := true }, .returned (-5))
      | some none => (s, .returned (-5))
      | some (some _) =>
        match s.p.kfkTopicVevt[index]? with
        | none => ({ s with fault := true }, .returned (-5))
        | some none => (s, .returned (-5))
        | some (some _) => (s, .produce times index)
  | .produce times index =>
    match s.handleAt s.p.kfkProducerVect index, s.handleAt s.p.kfkTopicVevt index with
    | some h, some _ =>
      if io.accepts then ({ s with sent := s.sent ++ [(h, s.p.kfkBrokers)] }, .wait times index)
      else (s, .returned (-10))
    | _, _ => ({ s with fault := true }, .returned (-10))
  | .wait cnt index =>
    if cnt = 0 then (s, .check index)
    else
      match s.handleAt s.p.kfkProducerVect index with
      | some _ => if io.long then (s, .wait (cnt - 1) index) else (s, .check index)
      | none => ({ s with fault := true }, .returned (-100))
  | .check index =>
    match s.handleAt s.p.kfkProducerVect index with
    | some _ => if io.long then (s, .returned (-100)) else (s, .dec)
    | none => ({ s with fault := true }, .returned (-100))
  | .dec => (s, .decStore s.p.pushNow)
  | .decStore v => ({ s with p := { s.p with pushNow := v - 1 } }, .returned 0)
  | .returned ret => (s, .returned ret)

/-- The loop over the first `n` elements: `delete`, and a null pointer in its place. -/
def deleteFirst (s : ProducerState) (vec : List (Option Handle)) (n : Nat) : ProducerState :=
  { s with
    deleted := s.deleted ++ (vec.take n).filterMap fun h => h.map Handle.id
    fault := s.fault || decide (vec.length < n) }

def changeStep (s : ProducerState) (env : InitEnv) : ProducerState :=
  match s.change with
  | .idle => s
  | .wait brokers => if s.p.pushNow ≠ 0 then s else { s with change := .deleteProducers brokers }
  | .deleteProducers brokers =>
    let n := ZooKfkProducer.count s.p.producerSize
    { s.deleteFirst s.p.kfkProducerVect n with
      p := { s.p with kfkProducerVect := List.replicate n none ++ s.p.kfkProducerVect.drop n }
      change := .deleteTopics brokers }
  | .deleteTopics brokers =>
    -- with the `swap`s
    { s.deleteFirst s.p.kfkTopicVevt (ZooKfkProducer.count s.p.producerSize) with
      p := { s.p with kfkProducerVect := [], kfkTopicVevt := [] }
      change := .init brokers }
  | .init brokers =>
    let r := s.p.kfkInit brokers s.p.topic_ s.p.producerSize env s.created
    { s with p := r.1, created := r.2.1, change := .clear }
  | .clear => { s with p := { s.p with isBroChang := false }, change := .idle }

def next (s : ProducerState) : ProducerAct → Option ProducerState
  | .send times => some { s with sends := s.sends ++ [.test times] }
  | .sendStep i io =>
    (s.sends[i]?).map fun pc =>
      let r := s.sendStep io pc
      { r.1 with sends := s.sends.set i r.2 }
  | .change brokers =>
    if s.change = .idle then
      some { s with p := { s.p with isBroChang := true }, change := .wait brokers }
    else none
  | .changeStep env => some (s.changeStep env)

end ProducerState

/-- The state behind `kfkInit` of a new object. -/
def started (brokers topic : Bytes) (pNum : Int32) (env : InitEnv) : ProducerState × Int :=
  let r := (ZooKfkProducer.mk [] [] [] [] 0 0 false 0).kfkInit brokers topic pNum env 0
  (⟨r.1, [], .idle, [], r.2.1, 0, [], false⟩, r.2.2)

def producerSystem (s : ProducerState) : Sys ProducerState ProducerAct where
  init := s
  next := ProducerState.next

/-! ## What `pushNow` counts -/

namespace SendPc

/-- A call counts while it is in, and ever after if it returned an error. -/
def weight : SendPc → Nat
  | .test _ | .inc _ | .incStore _ _ => 0
  | .pick _ | .produce _ _ | .wait _ _ | .check _ | .dec | .decStore _ => 1
  | .returned ret => if ret = 0 then 0 else 1

theorem weight_le (pc : SendPc) : pc.weight ≤ 1 := by
  cases pc <;> simp only [weight] <;> (try split) <;> omega

/-- Behind the test of the flag, and not counted yet. -/
def entering : SendPc → Bool
  | .inc _ | .incStore _ _ => true
  | _ => false

theorem weight_of_entering {pc : SendPc} (h : pc.entering = true) : pc.weight = 0 := by
  cases pc with
  | inc times => rfl
  | incStore times v => rfl
  | _ => cases h

/-- The producer that the call uses. -/
def index : SendPc → Option Nat
  | .produce _ index | .wait _ index | .check index => some index
  | _ => none

end SendPc

/-- The change deletes, or is behind that. -/
def ChangePc.alone : ChangePc → Bool
  | .idle | .wait _ => false
  | _ => true

/-- The calls that count. -/
def total (sends : List SendPc) : Nat := (sends.map SendPc.weight).sum

theorem total_le (sends : List SendPc) : total sends ≤ sends.length := by
  refine (List.sum_le_card_nsmul _ 1 fun w hw => ?_).trans (by simp)
  obtain ⟨pc, -, rfl⟩ := List.mem_map.mp hw
  exact pc.weight_le

theorem total_set {sends : List SendPc} {i : Nat} {pc : SendPc} (h : sends[i]? = some pc)
    (pc' : SendPc) : total (sends.set i pc') + pc.weight = total sends + pc'.weight :=
  sum_map_set SendPc.weight h pc'

theorem weight_le_total {sends : List SendPc} {pc : SendPc} (h : pc ∈ sends) :
    pc.weight ≤ total sends :=
  List.single_le_sum (fun _ _ => Nat.zero_le _) _ (List.mem_map_of_mem h)

namespace ProducerState

/-- A store puts back what the load gave, and nothing has come in between. -/
def storesNow (s : ProducerState) : SendPc → Bool
  | .incStore _ v | .decStore v => v = s.p.pushNow
  | _ => true

/-- No store of `pushNow` overwrites another one, and `pushNow` does not overflow. -/
def Whole (s : ProducerState) : ProducerAct → Prop
  | .send _ => s.sends.length + 1 < 2147483648
  | .sendStep i _ => ∀ pc ∈ s.sends[i]?, s.storesNow pc
  | .change _ | .changeStep _ => True

instance (s : ProducerState) (a : ProducerAct) : Decidable (s.Whole a) := by
  cases a <;> unfold Whole <;> infer_instance

/-- `pushNow` counts the calls that are in and those that returned an error. -/
structure Counts (s : ProducerState) : Prop where
  length : s.sends.length < 2147483648
  pushNow : s.p.pushNow.toInt = total s.sends

/-- What a step of `send` does to the counter. -/
theorem sendStep_pushNow {s : ProducerState} {pc : SendPc} (io : SendIo) (hs : s.storesNow pc = true) :
    let r := s.sendStep io pc
    (r.1.p.pushNow = s.p.pushNow ∧ r.2.weight = pc.weight) ∨
    (r.1.p.pushNow = s.p.pushNow + 1 ∧ pc.entering = true ∧ r.2.weight = 1) ∨
    (r.1.p.pushNow = s.p.pushNow - 1 ∧ pc.weight = 1 ∧ r.2.weight = 0) := by
  cases pc with
  | test times =>
    left
    simp only [sendStep]
    split <;> exact ⟨rfl, rfl⟩
  | inc times => exact .inl ⟨rfl, rfl⟩
  | incStore times v =>
    obtain rfl : v = s.p.pushNow := by simpa [storesNow] using hs
    exact .inr (.inl ⟨rfl, rfl, rfl⟩)
  | pick times =>
    left
    simp only [sendStep]
    split
    · exact ⟨rfl, rfl⟩
    · split
      · exact ⟨rfl, rfl⟩
      · exact ⟨rfl, rfl⟩
      · split <;> exact ⟨rfl, rfl⟩
  | produce times index =>
    left
    simp only [sendStep]
    split
    · split <;> exact ⟨rfl, rfl⟩
    · exact ⟨rfl, rfl⟩
  | wait cnt index =>
    left
    simp only [sendStep]
    split
    · exact ⟨rfl, rfl⟩
    · split
      · split <;> exact ⟨rfl, rfl⟩
      · exact ⟨rfl, rfl⟩
  | check index =>
    left
    simp only [sendStep]
    split
    · split <;> exact ⟨rfl, rfl⟩
    · exact ⟨rfl, rfl⟩
  | dec => exact .inl ⟨rfl, rfl⟩
  | decStore v =>
    obtain rfl : v = s.p.pushNow := by simpa [storesNow] using hs
    exact .inr (.inr ⟨rfl, rfl, rfl⟩)
  | returned ret => exact .inl ⟨rfl, rfl⟩

/-- What a step of `send` does not touch. -/
theorem sendStep_frame (s : ProducerState) (io : SendIo) (pc : SendPc) :
    let r := s.sendStep io pc
    r.1.sends = s.sends ∧ r.1.change = s.change ∧ r.1.deleted = s.deleted ∧ r.1.created = s.created ∧
      ∃ lastIndex pushNow, r.1.p = { s.p with lastIndex, pushNow } := by
  cases pc with
  | test times =>
    simp only [sendStep]
    split <;> exact ⟨rfl, rfl, rfl, rfl, _, _, rfl⟩
  | pick times =>
    simp only [sendStep]
    split
    · exact ⟨rfl, rfl, rfl, rfl, _, _, rfl⟩
    · split
      · exact ⟨rfl, rfl, rfl, rfl, _, _, rfl⟩
      · exact ⟨rfl, rfl, rfl, rfl, _, _, rfl⟩
      · split <;> exact ⟨rfl, rfl, rfl, rfl, _, _, rfl⟩
  | produce times index =>
    simp only [sendStep]
    split
    · split <;> exact ⟨rfl, rfl, rfl, rfl, _, _, rfl⟩
    · exact ⟨rfl, rfl, rfl, rfl, _, _, rfl⟩
  | wait cnt index =>
    simp only [sendStep]
    split
    · exact ⟨rfl, rfl, rfl, rfl, _, _, rfl⟩
    · split
      · split <;> exact ⟨rfl, rfl, rfl, rfl, _, _, rfl⟩
      · exact ⟨rfl, rfl, rfl, rfl, _, _, rfl⟩
  | check index =>
    simp only [sendStep]
    split
    · split <;> exact ⟨rfl, rfl, rfl, rfl, _, _, rfl⟩
    · exact ⟨rfl, rfl, rfl, rfl, _, _, rfl⟩
  | inc times => exact ⟨rfl, rfl, rfl, rfl, _, _, rfl⟩
  | incStore times v => exact ⟨rfl, rfl, rfl, rfl, _, _, rfl⟩
  | dec => exact ⟨rfl, rfl, rfl, rfl, _, _, rfl⟩
  | decStore v => exact ⟨rfl, rfl, rfl, rfl, _, _, rfl⟩
  | returned ret => exact ⟨rfl, rfl, rfl, rfl, _, _, rfl⟩

/-- The initialisation leaves the flag and the counter. -/
theorem kfkInit_counters (p : ZooKfkProducer) (brokers topic : Bytes) (pNum : Int32) (env : InitEnv)
    (created : Nat) : let r := p.kfkInit brokers topic pNum env created
    r.1.pushNow = p.pushNow ∧ r.1.isBroChang = p.isBroChang := by
  simp only [ZooKfkProducer.kfkInit]
  split_ifs <;> exact ⟨rfl, rfl⟩

/-- A step of the change leaves the calls and the counter. -/
theorem changeStep_sends (s : ProducerState) (env : InitEnv) :
    (s.changeStep env).sends = s.sends ∧ (s.changeStep env).p.pushNow = s.p.pushNow ∧
      (s.changeStep env).entered = s.entered ∧ (s.changeStep env).sent = s.sent := by
  unfold changeStep
  split
  · exact ⟨rfl, rfl, rfl, rfl⟩
  · split <;> exact ⟨rfl, rfl, rfl, rfl⟩
  · exact ⟨rfl, rfl, rfl, rfl⟩
  · exact ⟨rfl, rfl, rfl, rfl⟩
  · exact ⟨rfl, (kfkInit_counters ..).1, rfl, rfl⟩
  · exact ⟨rfl, rfl, rfl, rfl⟩

variable {s s' : ProducerState}

theorem toInt_add_one {x : Int32} (h : x.toInt + 1 < 2147483648) : (x + 1).toInt = x.toInt + 1 := by
  have hx := x.le_toInt
  rw [Int32.toInt_add]
  exact Int.bmod_eq_of_le (by simp at hx ⊢; omega) (by simpa using h)

theorem toInt_sub_one {x : Int32} (h : 0 < x.toInt) : (x - 1).toInt = x.toInt - 1 := by
  have hx := x.toInt_lt
  rw [Int32.toInt_sub]
  exact Int.bmod_eq_of_le (by simp; omega) (by simp at hx ⊢; omega)

/-- No step that meets `Whole` makes the counter wrong. -/
theorem Counts.next {a : ProducerAct} (hc : Counts s) (hw : s.Whole a) (h : s.next a = some s') :
    Counts s' := by
  cases a with
  | send times =>
    cases h
    refine ⟨by rw [List.length_append]; exact hw, ?_⟩
    simp [total, SendPc.weight, hc.pushNow]
  | sendStep i io =>
    obtain ⟨pc, hpc, rfl⟩ := Option.map_eq_some_iff.mp h
    have hlen : (s.sends.set i (s.sendStep io pc).2).length < 2147483648 := by
      simpa using hc.length
    have hle := total_le (s.sends.set i (s.sendStep io pc).2)
    have hset := total_set hpc (s.sendStep io pc).2
    have hin := weight_le_total (List.mem_of_getElem? hpc)
    have hnow := hc.pushNow
    refine ⟨hlen, ?_⟩
    rcases sendStep_pushNow io (hw pc hpc) with ⟨hp, hweight⟩ | ⟨hp, hent, h1⟩ | ⟨hp, h1, h0⟩
    · simp only [hp]
      omega
    · have h0 := SendPc.weight_of_entering hent
      simp only [hp]
      rw [toInt_add_one (by omega)]
      omega
    · simp only [hp]
      rw [toInt_sub_one (by omega)]
      omega
  | change brokers =>
    simp only [ProducerState.next] at h
    split at h
    · cases h
      exact ⟨hc.length, hc.pushNow⟩
    · cases h
  | changeStep env =>
    cases h
    obtain ⟨hsends, hp, -, -⟩ := changeStep_sends s env
    exact ⟨by rw [hsends]; exact hc.length, by rw [hp, hsends]; exact hc.pushNow⟩

/-! ## The flag -/

/-- The flag is set for as long as a change goes on. -/
def Flagged (s : ProducerState) : Prop := s.change ≠ .idle → s.p.isBroChang = true

theorem changeStep_flagged (env : InitEnv) (hf : Flagged s) : Flagged (s.changeStep env) := by
  unfold changeStep
  split
  · exact hf
  · rename_i hw
    split
    · exact hf
    · exact fun _ => hf (by simp [hw])
  · rename_i hw
    exact fun _ => hf (by simp [hw])
  · rename_i hw
    exact fun _ => hf (by simp [hw])
  · rename_i hw
    intro _
    exact (kfkInit_counters ..).2.trans (hf (by simp [hw]))
  · exact fun h => absurd rfl h

theorem Flagged.next {a : ProducerAct} (hf : Flagged s) (h : s.next a = some s') : Flagged s' := by
  cases a with
  | send times =>
    cases h
    exact hf
  | sendStep i io =>
    obtain ⟨pc, -, rfl⟩ := Option.map_eq_some_iff.mp h
    obtain ⟨-, hchange, -, -, _, _, hp⟩ := sendStep_frame s io pc
    intro hne
    simp only [hp]
    exact hf (by simpa only [hchange] using hne)
  | change brokers =>
    simp only [ProducerState.next] at h
    split at h
    · cases h
      exact fun _ => rfl
    · cases h
  | changeStep env =>
    cases h
    exact changeStep_flagged env hf

/-- Behind a set flag no call gets in. -/
theorem sendStep_entered (io : SendIo) (pc : SendPc) (hf : s.p.isBroChang = true) :
    (s.sendStep io pc).1.entered = s.entered := by
  cases pc with
  | test times => simp [sendStep, hf]
  | pick times =>
    simp only [sendStep]
    split
    · rfl
    · split
      · rfl
      · rfl
      · split <;> rfl
  | produce times index =>
    simp only [sendStep]
    split
    · split <;> rfl
    · rfl
  | wait cnt index =>
    simp only [sendStep]
    split
    · rfl
    · split
      · split <;> rfl
      · rfl
  | check index =>
    simp only [sendStep]
    split
    · split <;> rfl
    · rfl
  | inc times => rfl
  | incStore times v => rfl
  | dec => rfl
  | decStore v => rfl
  | returned ret => rfl

/-- A change waits, and call `i` has returned an error. -/
structure Blocked (brokers : Bytes) (i : Nat) (ret : Int) (entered : Nat) (s : ProducerState) :
    Prop where
  counts : Counts s
  flagged : Flagged s
  failed : s.sends[i]? = some (.returned ret)
  change : s.change = .wait brokers
  entered : s.entered = entered

theorem Blocked.next {brokers : Bytes} {i : Nat} {ret : Int} {n : Nat} (hret : ret ≠ 0)
    {a : ProducerAct} (hb : Blocked brokers i ret n s) (hw : s.Whole a) (h : s.next a = some s') :
    Blocked brokers i ret n s' := by
  have hcounts := hb.counts.next hw h
  have hflagged := hb.flagged.next h
  have hset : s.p.isBroChang = true := hb.flagged (by simp [hb.change])
  cases a with
  | send times =>
    cases h
    refine ⟨hcounts, hflagged, ?_, hb.change, hb.entered⟩
    rw [List.getElem?_append_left (List.getElem?_eq_some_iff.mp hb.failed).1]
    exact hb.failed
  | sendStep j io =>
    obtain ⟨pc, hpc, rfl⟩ := Option.map_eq_some_iff.mp h
    obtain ⟨-, hchange, -⟩ := sendStep_frame s io pc
    refine ⟨hcounts, hflagged, ?_, hchange.trans hb.change,
      (sendStep_entered io pc hset).trans hb.entered⟩
    by_cases hj : j = i
    · subst hj
      -- the call that failed stays where it is
      obtain rfl : pc = .returned ret := by simpa [hpc] using hb.failed
      simp [sendStep, (List.getElem?_eq_some_iff.mp hpc).1]
    · rw [List.getElem?_set_ne hj]
      exact hb.failed
  | change brokers' =>
    simp [ProducerState.next, hb.change] at h
  | changeStep env =>
    cases h
    have hin := weight_le_total (List.mem_of_getElem? hb.failed)
    have hnow : s.p.pushNow ≠ 0 := by
      intro h0
      have := hb.counts.pushNow
      simp only [h0, SendPc.weight, if_neg hret] at this hin
      simp at this
      omega
    have hstay : s.changeStep env = s := by simp [changeStep, hb.change, hnow]
    rw [hstay]
    exact hb

/-! ## The objects -/

/-- The objects that a vector holds. -/
def ids (vec : List (Option Handle)) : List Nat := vec.filterMap fun h => h.map Handle.id

theorem ids_handles (id n : Nat) (brokers : Bytes) :
    ids (ZooKfkProducer.handles id n brokers) = (List.range n).map (id + ·) := by
  simp only [ids, ZooKfkProducer.handles, List.filterMap_map]
  rw [← List.filterMap_eq_map]
  rfl

/-- `vec` holds one object of `brokers` for each number below `producerSize`. -/
def Holds (p : ZooKfkProducer) (vec : List (Option Handle)) : Prop :=
  vec.length = ZooKfkProducer.count p.producerSize ∧ ∀ h ∈ vec, ∃ o, h = some ⟨o, p.kfkBrokers⟩

/-- What the vectors are while the change goes on. -/
def Phase (s : ProducerState) : Prop :=
  match s.change with
  | .deleteTopics _ =>
    ids s.p.kfkProducerVect = [] ∧ s.p.kfkTopicVevt.length = ZooKfkProducer.count s.p.producerSize
  | .init _ => s.p.kfkProducerVect = [] ∧ s.p.kfkTopicVevt = []
  | _ => Holds s.p s.p.kfkProducerVect ∧ Holds s.p s.p.kfkTopicVevt

/-- A change begins while no call is between its test of the flag and its `pushNow++`, and `kfkInit`
succeeds. -/
def Covered (s : ProducerState) (a : ProducerAct) : Prop :=
  s.Whole a ∧
  match a with
  | .change _ => ∀ pc ∈ s.sends, pc.entering = false
  | .changeStep env =>
    match s.change with
    | .init brokers => (s.p.kfkInit brokers s.p.topic_ s.p.producerSize env s.created).2.2 = 0
    | _ => True
  | _ => True

instance (s : ProducerState) (a : ProducerAct) : Decidable (s.Covered a) := by
  cases a with
  | send times => unfold Covered; infer_instance
  | sendStep i io => unfold Covered; infer_instance
  | change brokers => unfold Covered; infer_instance
  | changeStep env =>
    unfold Covered
    refine @instDecidableAnd _ _ inferInstance ?_
    cases s.change <;> dsimp only <;> infer_instance

/-- Every object is in one of the vectors or was deleted, once. -/
structure Safe (s : ProducerState) : Prop where
  counts : Counts s
  flagged : Flagged s
  noFault : s.fault = false
  size : 0 < s.p.producerSize.toInt
  quiet : s.change ≠ .idle → ∀ pc ∈ s.sends, pc.entering = false
  alone : s.change.alone = true → total s.sends = 0
  phase : s.Phase
  owned : (ids s.p.kfkProducerVect ++ (ids s.p.kfkTopicVevt ++ s.deleted)).Perm
    (List.range s.created)
  index : ∀ pc ∈ s.sends, ∀ i ∈ pc.index, i < ZooKfkProducer.count s.p.producerSize
  sent : ∀ e ∈ s.sent, e.1.brokers = e.2

/-! ## The steps of the change -/

theorem firstOk_le (create : Nat → Bool) (n : Nat) : ZooKfkProducer.firstOk create n ≤ n := by
  simpa [ZooKfkProducer.firstOk] using (List.takeWhile_sublist create (l := List.range n)).length_le

/-- What a successful initialisation adds. -/
theorem kfkInit_zero {p : ZooKfkProducer} {brokers topic : Bytes} {pNum : Int32} {env : InitEnv}
    {created : Nat} (h : (p.kfkInit brokers topic pNum env created).2.2 = 0) :
    let n := ZooKfkProducer.count pNum
    let r := p.kfkInit brokers topic pNum env created
    r.2.1 = created + n + n ∧ ∃ kfkBrokers topic_, r.1 =
      { p with
        kfkBrokers, topic_
        kfkProducerVect := p.kfkProducerVect ++ ZooKfkProducer.handles created n kfkBrokers
        kfkTopicVevt := p.kfkTopicVevt ++ ZooKfkProducer.handles (created + n) n kfkBrokers
        producerSize := pNum } := by
  have hp := firstOk_le env.producer (ZooKfkProducer.count pNum)
  have ht := firstOk_le env.topic (ZooKfkProducer.count pNum)
  simp only [ZooKfkProducer.kfkInit] at h ⊢
  split_ifs at h ⊢ with h1 h2 h3 h4 h5 h6 h7
  all_goals try (exfalso; simp only at h; omega)
  all_goals
    rw [Nat.le_antisymm hp (by omega), Nat.le_antisymm ht (by omega)]
    exact ⟨rfl, _, _, rfl⟩

theorem holds_handles {p : ZooKfkProducer} (id : Nat) {n : Nat}
    (hn : n = ZooKfkProducer.count p.producerSize) :
    Holds p (ZooKfkProducer.handles id n p.kfkBrokers) := by
  subst hn
  refine ⟨by simp [ZooKfkProducer.handles], fun h hh => ?_⟩
  obtain ⟨i, -, rfl⟩ := List.mem_map.mp hh
  exact ⟨_, rfl⟩

theorem ids_take_of_le {vec : List (Option Handle)} {n : Nat} (h : vec.length = n) :
    (vec.take n).filterMap (fun h => h.map Handle.id) = ids vec := by
  rw [List.take_of_length_le h.le, ids]

theorem changeStep_safe (env : InitEnv) (hs : Safe s) (hc : s.Covered (.changeStep env)) :
    Safe (s.changeStep env) := by
  have hcounts := hs.counts.next hc.1 rfl
  have hflagged := changeStep_flagged env hs.flagged
  obtain ⟨hsends, -, -, hsent⟩ := changeStep_sends s env
  have hphase := hs.phase
  unfold Phase at hphase
  cases hch : s.change with
  | idle =>
    have h : s.changeStep env = s := by simp [changeStep, hch]
    rw [h]
    exact hs
  | wait brokers =>
    by_cases hp : s.p.pushNow = 0
    · have h : s.changeStep env = { s with change := .deleteProducers brokers } := by
        simp [changeStep, hch, hp]
      simp only [hch] at hphase
      rw [h] at hcounts hflagged ⊢
      refine ⟨hcounts, hflagged, hs.noFault, hs.size, fun _ => hs.quiet (by simp [hch]), fun _ => ?_,
        hphase, hs.owned, hs.index, hs.sent⟩
      have hnow := hs.counts.pushNow
      rw [hp, Int32.toInt_zero] at hnow
      exact_mod_cast hnow.symm
    · have h : s.changeStep env = s := by simp [changeStep, hch, hp]
      rw [h]
      exact hs
  | deleteProducers brokers =>
    simp only [hch] at hphase
    obtain ⟨⟨hlen, -⟩, hlen', -⟩ := hphase
    have htake := ids_take_of_le hlen
    simp only [changeStep, hch, deleteFirst, htake, hlen] at hcounts hflagged ⊢
    have hnone : ids (List.replicate (ZooKfkProducer.count s.p.producerSize) none ++
        s.p.kfkProducerVect.drop (ZooKfkProducer.count s.p.producerSize)) = [] := by
      rw [List.drop_of_length_le hlen.le]
      simp [ids]
    refine ⟨hcounts, hflagged, by simp [hs.noFault], hs.size, fun _ => hs.quiet (by simp [hch]),
      fun _ => hs.alone (by simp [hch, ChangePc.alone]), ⟨hnone, hlen'⟩, ?_, hs.index, hs.sent⟩
    simp only [hnone, List.nil_append]
    refine List.Perm.trans ?_ hs.owned
    rw [← List.append_assoc]
    exact List.perm_append_comm
  | deleteTopics brokers =>
    simp only [hch] at hphase
    obtain ⟨hnone, hlen⟩ := hphase
    have htake := ids_take_of_le hlen
    simp only [changeStep, hch, deleteFirst, htake, hlen] at hcounts hflagged ⊢
    refine ⟨hcounts, hflagged, by simp [hs.noFault], hs.size, fun _ => hs.quiet (by simp [hch]),
      fun _ => hs.alone (by simp [hch, ChangePc.alone]), ⟨rfl, rfl⟩, ?_, hs.index, hs.sent⟩
    have howned := hs.owned
    rw [hnone, List.nil_append] at howned
    exact (@List.perm_append_comm _ s.deleted _).trans howned
  | init brokers =>
    simp only [hch] at hphase
    obtain ⟨hproducers, htopics⟩ := hphase
    have hok := hc.2
    simp only [hch] at hok
    obtain ⟨hcreated, kfkBrokers, topic_, hp⟩ := kfkInit_zero hok
    simp only [changeStep, hch, hp, hcreated, hproducers, htopics, List.nil_append]
      at hcounts hflagged ⊢
    have howned := hs.owned
    simp only [hproducers, htopics, ids, List.filterMap_nil, List.nil_append] at howned
    refine ⟨hcounts, hflagged, hs.noFault, hs.size, fun _ => hs.quiet (by simp [hch]),
      fun _ => hs.alone (by simp [hch, ChangePc.alone]), ⟨holds_handles _ rfl, holds_handles _ rfl⟩,
      ?_, hs.index, hs.sent⟩
    simp only [ids_handles]
    rw [List.range_add, List.range_add, ← List.append_assoc]
    exact List.perm_append_comm.trans ((howned.append_right _).trans
      (by rw [List.append_assoc]))
  | clear =>
    simp only [changeStep, hch] at hcounts hflagged ⊢
    simp only [hch] at hphase
    exact ⟨hcounts, hflagged, hs.noFault, hs.size, fun h => absurd rfl h, nofun,
      hphase, hs.owned, hs.index, hs.sent⟩

/-! ## The steps of `send` -/

/-- A call that counts finds the vectors whole. -/
theorem Safe.holds (hs : Safe s) {pc : SendPc} (hpc : pc ∈ s.sends) (hw : pc.weight = 1) :
    Holds s.p s.p.kfkProducerVect ∧ Holds s.p s.p.kfkTopicVevt := by
  have hin := weight_le_total hpc
  have halone : s.change.alone ≠ true := fun h => by
    have := hs.alone h
    omega
  have hphase := hs.phase
  unfold Phase at hphase
  cases hch : s.change with
  | idle => simpa only [hch] using hphase
  | wait brokers => simpa only [hch] using hphase
  | deleteProducers brokers => simp [hch, ChangePc.alone] at halone
  | deleteTopics brokers => simp [hch, ChangePc.alone] at halone
  | init brokers => simp [hch, ChangePc.alone] at halone
  | clear => simp [hch, ChangePc.alone] at halone

theorem handleAt_of_holds {vec : List (Option Handle)} {index : Nat} (hv : Holds s.p vec)
    (hi : index < ZooKfkProducer.count s.p.producerSize) (hd : ∀ id ∈ ids vec, id ∉ s.deleted) :
    ∃ h, s.handleAt vec index = some h ∧ h.brokers = s.p.kfkBrokers := by
  have hlt : index < vec.length := by rw [hv.1]; exact hi
  obtain ⟨id, hid⟩ := hv.2 vec[index] (List.getElem_mem hlt)
  have hmem : id ∈ ids vec :=
    List.mem_filterMap.mpr ⟨vec[index], List.getElem_mem hlt, by simp [hid]⟩
  refine ⟨⟨id, s.p.kfkBrokers⟩, ?_, rfl⟩
  simp [handleAt, List.getElem?_eq_getElem hlt, hid, hd id hmem]

/-- The objects in the vectors were not deleted. -/
theorem Safe.not_deleted (hs : Safe s) : (∀ id ∈ ids s.p.kfkProducerVect, id ∉ s.deleted) ∧
    ∀ id ∈ ids s.p.kfkTopicVevt, id ∉ s.deleted := by
  have hnodup := hs.owned.nodup_iff.mpr List.nodup_range
  obtain ⟨-, hrest, hdisj⟩ := List.nodup_append'.mp hnodup
  obtain ⟨-, -, hdisj'⟩ := List.nodup_append'.mp hrest
  exact ⟨fun id hid hdel => hdisj hid (List.mem_append_right _ hdel), fun id hid hdel => hdisj' hid hdel⟩

theorem pickIndex_lt {p : ZooKfkProducer} (hp : 0 < p.producerSize.toInt) :
    ∃ index, pickIndex p = some index ∧ index < ZooKfkProducer.count p.producerSize := by
  have hlt := p.producerSize.toInt_lt
  have hmod : p.producerSize.toInt % 4294967296 = p.producerSize.toInt :=
    Int.emod_eq_of_lt hp.le (by simp at hlt; omega)
  have hpos : 0 < p.producerSize.toInt.toNat := by omega
  refine ⟨(p.lastIndex + 1).toNat % p.producerSize.toInt.toNat, ?_, Nat.mod_lt _ hpos⟩
  simp only [pickIndex, hmod]
  rw [if_neg hpos.ne']

/-- What one step of `send` keeps. -/
structure Sent (s s' : ProducerState) (pc pc' : SendPc) : Prop where
  noFault : s'.fault = false
  sent : ∀ e ∈ s'.sent, e.1.brokers = e.2
  index : ∀ i ∈ pc'.index, i < ZooKfkProducer.count s.p.producerSize
  entering : pc'.entering = true → s.p.isBroChang = false ∨ pc.entering = true

theorem sendStep_sent (io : SendIo) (hs : Safe s) {pc : SendPc} (hpc : pc ∈ s.sends) :
    Sent s (s.sendStep io pc).1 pc (s.sendStep io pc).2 := by
  -- a step that only goes on
  have hgo : ∀ pc', pc'.index = none ∨ pc'.index = pc.index → pc'.entering = false →
      Sent s s pc pc' := by
    intro pc' hi he
    refine ⟨hs.noFault, hs.sent, fun i hmem => ?_, by simp [he]⟩
    rcases hi with hi | hi
    · simp [hi] at hmem
    · exact hs.index pc hpc i (hi ▸ hmem)
  cases pc with
  | test times =>
    simp only [sendStep]
    split
    · exact hgo _ (.inl rfl) rfl
    · rename_i hflag
      exact ⟨hs.noFault, hs.sent, nofun, fun _ => .inl (by simpa using hflag)⟩
  | inc times => exact ⟨hs.noFault, hs.sent, nofun, fun _ => .inr rfl⟩
  | incStore times v => exact ⟨hs.noFault, hs.sent, nofun, nofun⟩
  | pick times =>
    obtain ⟨⟨hlen, hsome⟩, hlen', hsome'⟩ := hs.holds hpc rfl
    obtain ⟨index, hpick, hlt⟩ := pickIndex_lt hs.size
    have hin : index < s.p.kfkProducerVect.length := by omega
    have hin' : index < s.p.kfkTopicVevt.length := by omega
    obtain ⟨o, ho⟩ := hsome _ (List.getElem_mem hin)
    obtain ⟨o', ho'⟩ := hsome' _ (List.getElem_mem hin')
    simp only [sendStep, hpick, List.getElem?_eq_getElem hin, ho, List.getElem?_eq_getElem hin', ho']
    refine ⟨hs.noFault, hs.sent, fun i hmem => ?_, nofun⟩
    cases hmem
    exact hlt
  | produce times index =>
    obtain ⟨hproducers, htopics⟩ := hs.holds hpc rfl
    have hlt := hs.index _ hpc index rfl
    obtain ⟨h, hat, hbrokers⟩ := handleAt_of_holds hproducers hlt hs.not_deleted.1
    obtain ⟨h', hat', -⟩ := handleAt_of_holds htopics hlt hs.not_deleted.2
    simp only [sendStep, hat, hat']
    split
    · refine ⟨hs.noFault, fun e he => ?_, fun i hmem => ?_, nofun⟩
      · rcases List.mem_append.mp he with he | he
        · exact hs.sent e he
        · obtain rfl := List.mem_singleton.mp he
          exact hbrokers
      · cases hmem
        exact hlt
    · exact hgo _ (.inl rfl) rfl
  | wait cnt index =>
    obtain ⟨h, hat, -⟩ :=
      handleAt_of_holds (hs.holds hpc rfl).1 (hs.index _ hpc index rfl) hs.not_deleted.1
    simp only [sendStep, hat]
    split
    · exact hgo _ (.inr rfl) rfl
    · split
      · exact hgo _ (.inr rfl) rfl
      · exact hgo _ (.inr rfl) rfl
  | check index =>
    obtain ⟨h, hat, -⟩ :=
      handleAt_of_holds (hs.holds hpc rfl).1 (hs.index _ hpc index rfl) hs.not_deleted.1
    simp only [sendStep, hat]
    split
    · exact hgo _ (.inl rfl) rfl
    · exact hgo _ (.inl rfl) rfl
  | dec => exact hgo _ (.inl rfl) rfl
  | decStore v => exact ⟨hs.noFault, hs.sent, nofun, nofun⟩
  | returned ret => exact hgo _ (.inl rfl) rfl

theorem Safe.next {a : ProducerAct} (hs : Safe s) (hc : s.Covered a) (h : s.next a = some s') :
    Safe s' := by
  have hcounts := hs.counts.next hc.1 h
  have hflagged := hs.flagged.next h
  cases a with
  | send times =>
    cases h
    refine ⟨hcounts, hflagged, hs.noFault, hs.size, fun hne pc hpc => ?_, fun ha => ?_, hs.phase,
      hs.owned, fun pc hpc => ?_, hs.sent⟩
    · rcases List.mem_append.mp hpc with hpc | hpc
      · exact hs.quiet hne pc hpc
      · obtain rfl := List.mem_singleton.mp hpc
        rfl
    · simpa [total, SendPc.weight] using hs.alone ha
    · rcases List.mem_append.mp hpc with hpc | hpc
      · exact hs.index pc hpc
      · obtain rfl := List.mem_singleton.mp hpc
        exact nofun
  | sendStep i io =>
    obtain ⟨pc, hpc, rfl⟩ := Option.map_eq_some_iff.mp h
    have hmem := List.mem_of_getElem? hpc
    obtain ⟨hnoFault, hsent, hindex, hentering⟩ := sendStep_sent io hs hmem
    obtain ⟨-, hchange, hdeleted, hcreated, _, _, hp⟩ := sendStep_frame s io pc
    have hset := total_set hpc (s.sendStep io pc).2
    refine ⟨hcounts, hflagged, hnoFault, ?_, fun hne pc' hpc' => ?_, fun ha => ?_, ?_, ?_,
      fun pc' hpc' j hj => ?_, hsent⟩
    · simp only [hp]
      exact hs.size
    · replace hne : s.change ≠ .idle := by simpa only [hchange] using hne
      rcases List.mem_or_eq_of_mem_set hpc' with hpc' | rfl
      · exact hs.quiet hne pc' hpc'
      · refine Bool.eq_false_iff.mpr fun he => ?_
        rcases hentering he with hclear | hent
        · simp [hs.flagged hne] at hclear
        · simp [hs.quiet hne pc hmem] at hent
    · replace ha : s.change.alone = true := by simpa only [hchange] using ha
      have hne : s.change ≠ .idle := fun h => by simp [h, ChangePc.alone] at ha
      have hzero := hs.alone ha
      have hle := weight_le_total hmem
      change total (s.sends.set i (s.sendStep io pc).2) = 0
      rcases sendStep_pushNow io (hc.1 pc hpc) with ⟨-, hweight⟩ | ⟨-, hent, -⟩ | ⟨-, -, hweight⟩
      · omega
      · simp [hs.quiet hne pc hmem] at hent
      · omega
    · have hphase := hs.phase
      simp only [Phase, Holds, hchange, hp] at hphase ⊢
      exact hphase
    · simp only [hp, hdeleted, hcreated]
      exact hs.owned
    · simp only [hp]
      rcases List.mem_or_eq_of_mem_set hpc' with hpc' | rfl
      · exact hs.index pc' hpc' j hj
      · exact hindex j hj
  | change brokers =>
    simp only [ProducerState.next] at h
    split at h
    · rename_i hidle
      cases h
      have hphase := hs.phase
      simp only [Phase, hidle] at hphase
      exact ⟨hcounts, hflagged, hs.noFault, hs.size, fun _ => hc.2, nofun, hphase, hs.owned, hs.index,
        hs.sent⟩
    · cases h
  | changeStep env =>
    cases h
    exact changeStep_safe env hs hc

/-! ## Runs -/

section

variable {brokers topic : Bytes} {pNum : Int32} {env : InitEnv}

theorem started_counts : Counts (started brokers topic pNum env).1 := by
  refine ⟨by simp [started], ?_⟩
  rw [started]
  simp only [(kfkInit_counters ..).1]
  rfl

theorem started_safe (hok : (started brokers topic pNum env).2 = 0) (hpos : 0 < pNum.toInt) :
    Safe (started brokers topic pNum env).1 := by
  obtain ⟨hcreated, kfkBrokers, topic_, hp⟩ := kfkInit_zero hok
  have hcounts : Counts (started brokers topic pNum env).1 := started_counts
  simp only [started, hp, hcreated, List.nil_append, Nat.zero_add] at hcounts ⊢
  refine ⟨hcounts, fun h => absurd rfl h, rfl, hpos, fun h => absurd rfl h, nofun,
    ⟨holds_handles _ rfl, holds_handles _ rfl⟩, ?_, nofun, nofun⟩
  simp only [ids_handles, List.append_nil]
  rw [List.range_add]
  simp

end

end ProducerState

open ProducerState

/-- Behind a call that returned an error, a change that waits for the calls waits for ever, and no call
gets in any more. -/
theorem failed_send_blocks (brokers topic : Bytes) (pNum : Int32) (env : InitEnv)
    {s s' : ProducerState} (h : ((producerSystem (started brokers topic pNum env).1).only Whole).Reach s)
    {i : Nat} {ret : Int} (hfailed : s.sends[i]? = some (.returned ret)) (hret : ret ≠ 0)
    {next : Bytes} (hchange : s.change = .wait next)
    (h' : ((producerSystem s).only Whole).Reach s') :
    s'.change = .wait next ∧ s'.entered = s.entered := by
  obtain ⟨hcounts, hflagged⟩ : Counts s ∧ Flagged s :=
    Sys.Reach.inv_only (I := fun s => Counts s ∧ Flagged s)
      ⟨started_counts, fun hne => absurd rfl hne⟩
      (fun _ _ _ hi hw hs => ⟨hi.1.next hw hs, hi.2.next hs⟩) h
  have hb : Blocked next i ret s.entered s' :=
    Sys.Reach.inv_only (I := Blocked next i ret s.entered)
      ⟨hcounts, hflagged, hfailed, hchange, rfl⟩ (fun _ _ _ hi hw hs => hi.next hret hw hs) h'
  exact ⟨hb.change, hb.entered⟩

/-- librdkafka gives what it is asked for. -/
def gives : InitEnv := ⟨true, fun _ => true, fun _ => true⟩

/-- A message is refused; a change begins, and a second call. -/
theorem failed_send_blocks_refused :
    ∃ s s', s'.change = .wait [98] ∧ s'.entered = s.entered ∧ s'.sends[1]? = some (.test 5) ∧
      (started [97] [116] 1 gives).1.entered < s.entered ∧
      ((producerSystem s).only Whole).Reach s' := by
  have hrun : (((producerSystem (started [97] [116] 1 gives).1).only Whole).run
      (started [97] [116] 1 gives).1
      [.send 5, .sendStep 0 ⟨false, false⟩, .sendStep 0 ⟨false, false⟩, .sendStep 0 ⟨false, false⟩,
        .sendStep 0 ⟨false, false⟩, .sendStep 0 ⟨false, false⟩, .change [98]]).any (fun s =>
      decide (s.sends[0]? = some (.returned (-10))) && decide (s.change = .wait [98]) &&
        decide (0 < s.entered) &&
      (((producerSystem s).only Whole).run s
        [.send 5, .sendStep 1 ⟨false, false⟩, .changeStep gives]).any fun s' =>
        decide (s'.sends[1]? = some (.test 5))) = true := by decide +kernel
  obtain ⟨s, hs, hgood⟩ := (Option.any_eq_true _ _).mp hrun
  simp only [Bool.and_eq_true, decide_eq_true_eq] at hgood
  obtain ⟨⟨⟨hfailed, hchange⟩, hentered⟩, hlater⟩ := hgood
  obtain ⟨s', hs', htest⟩ := (Option.any_eq_true _ _).mp hlater
  have hreach' := (Sys.Reach.init (S := (producerSystem s).only Whole)).run _ hs'
  obtain ⟨h1, h2⟩ := failed_send_blocks [97] [116] 1 gives (Sys.Reach.init.run _ hs) hfailed (by decide)
    hchange hreach'
  exact ⟨s, s', h1, h2, of_decide_eq_true htest, hentered, hreach'⟩

/-- In every run whose steps meet the condition: no access goes wrong, each object is in one of the
vectors or was deleted, once, and each message went to a producer of the brokers of that moment. -/
theorem send_safe {brokers topic : Bytes} {pNum : Int32} {env : InitEnv}
    (hok : (started brokers topic pNum env).2 = 0) (hpos : 0 < pNum.toInt) {s : ProducerState}
    (h : ((producerSystem (started brokers topic pNum env).1).only Covered).Reach s) :
    s.fault = false ∧
      (ids s.p.kfkProducerVect ++ (ids s.p.kfkTopicVevt ++ s.deleted)).Perm (List.range s.created) ∧
      ∀ e ∈ s.sent, e.1.brokers = e.2 := by
  have hs : Safe s :=
    Sys.Reach.inv_only (I := Safe) (started_safe hok hpos) (fun _ _ _ hi hc hs => hi.next hc hs) h
  exact ⟨hs.noFault, hs.owned, hs.sent⟩

/-- A message, a change of the brokers, and a message. -/
theorem send_safe_change : ∃ s : ProducerState, s.fault = false ∧
    (ids s.p.kfkProducerVect ++ (ids s.p.kfkTopicVevt ++ s.deleted)).Perm (List.range s.created) ∧
    (∀ e ∈ s.sent, e.1.brokers = e.2) ∧ s.sent = [(⟨0, [97]⟩, [97]), (⟨2, [98]⟩, [98])] := by
  have hrun : (((producerSystem (started [97] [116] 1 gives).1).only Covered).run
      (started [97] [116] 1 gives).1
      ([.send 5] ++ List.replicate 9 (.sendStep 0 ⟨true, false⟩) ++ [.change [98]] ++
        List.replicate 5 (.changeStep gives) ++ [.send 5] ++
        List.replicate 9 (.sendStep 1 ⟨true, false⟩))).any (fun s =>
      decide (s.sent = [(⟨0, [97]⟩, [97]), (⟨2, [98]⟩, [98])])) = true := by decide +kernel
  obtain ⟨s, hs, hsent⟩ := (Option.any_eq_true _ _).mp hrun
  obtain ⟨h1, h2, h3⟩ := send_safe (show (started [97] [116] 1 gives).2 = 0 by decide) (by decide)
    (Sys.Reach.init.run _ hs)
  exact ⟨s, h1, h2, h3, of_decide_eq_true hsent⟩

end Producer
end Zookafka
end CmakeFrame
