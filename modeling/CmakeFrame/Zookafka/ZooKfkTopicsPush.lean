import CmakeFrame.Lib.Sys
import CmakeFrame.Zookafka.ZooKfkCommon

/-!
# `zookafka/src/ZooKfkTopicsPush.cpp`

A `ZooKfkTopicsPush` is one producer of librdkafka with its topics. `ZooKfkProducers` and
`ZooKfkGenerators` hold several of them and give each message to the next one. What librdkafka and
zookeeper answer is an argument.

* `ZooKfkTopicsPush.kfkInit`, `zookInit`, `producerAddTopic`, `push`, `kfkDestroy`.
* `ZooKfkProducers`: both wrappers, which differ in how they set up a producer only.
* `pushSystem`: any number of threads use one wrapper. A call of `psuhKfkMsg` is two steps: `push`
  runs under the lock of its producer, `getLastErrorMsg` does not.
* `Truthful`: a call returns 0 or more if and only if librdkafka took its message in;
  `Reported`: the condition; `push_truthful`: for each call of every run.
* `lastFailure_startPush`: what a call finds that reads the code before anybody else fails.
-/

namespace CmakeFrame
namespace Zookafka

open Lib

/-! ## A producer -/

/-- `kfkt`, `zookeeph`: there is a handle; of `topicPtrMap` the names. -/
structure ZooKfkTopicsPush where
  zookeeph : Bool
  kfkt : Bool
  topicPtrMap : List Bytes
  kfkErrorCode : Int
  kfkErrorMsg : Bytes
  destroy : Int32
  initFlag : Int32
  deriving DecidableEq, Repr

/-- What `rd_kafka_topic_conf_new` and `rd_kafka_topic_new` give for one topic. -/
inductive TopicNew where
  | ok
  | noConf
  | noTopic
  deriving DecidableEq, Repr

/-- What the outside gives to an init function: the handle of zookeeper, the result and the text of
`set_brokerlist_from_zookeeper`, the handle of the producer, the result of `rd_kafka_brokers_add`,
and the topics. -/
structure PushEnv where
  zookeeper : Bool
  found : Int
  brokers : Bytes
  rdKafkaNew : Bool
  brokersAdd : Nat
  topic : Bytes → TopicNew

/-- An outcome of `rd_kafka_produce`: it takes the message, or `rd_kafka_last_error` is `code`, and
`rd_kafka_err2str` gives `text` for it. -/
inductive Produce where
  | accepted
  | failed (code : Int) (text : Bytes)
  deriving DecidableEq, Repr

/-- The loop of `push`: a full queue is waited for. -/
def produceLoop : List Produce → Option Produce
  | [] => none
  | .accepted :: _ => some .accepted
  | .failed code text :: rest =>
    if code = RD_QUEUE_FULL then produceLoop rest else some (.failed code text)

namespace ZooKfkTopicsPush

/-- The constructor. -/
def new : ZooKfkTopicsPush := ⟨false, false, [], 0, [], 0, 0⟩

/-- `topicPtrMap.insert` -/
def insertTopic (p : ZooKfkTopicsPush) (topic : Bytes) : ZooKfkTopicsPush :=
  if p.topicPtrMap.contains topic then p else { p with topicPtrMap := p.topicPtrMap ++ [topic] }

def producerAddTopic (p : ZooKfkTopicsPush) (topic : Bytes) (env : TopicNew) :
    ZooKfkTopicsPush × Int :=
  match env with
  | .noConf => (p, KAFKA_TOPIC_CONF_NEW_ERROR)
  | .noTopic => (p, KAFKA_TOPIC_NEW_ERROR)
  | .ok => (p.insertTopic topic, 0)

/-- The loop of `kfkInit` over the topics. -/
def addTopics (env : Bytes → TopicNew) (p : ZooKfkTopicsPush) : List Bytes → ZooKfkTopicsPush × Int
  | [] => (p, 0)
  | topic :: rest =>
    match p.producerAddTopic topic (env topic) with
    | (p, ret) => if ret < 0 then (p, ret) else addTopics env p rest

def kfkInit (p : ZooKfkTopicsPush) (brokers topics : Bytes) (env : PushEnv) :
    ZooKfkTopicsPush × Int :=
  if brokers = [] then (p, NO_KAFKA_BROKERS_FOUND)
  else if p.initFlag ≠ 0 then (p, KAFKA_INIT_ALREADY)
  else if ¬ env.rdKafkaNew then
    ({ p with initFlag := 1, kfkt := false }, KAFKA_MODULE_NEW_ERROR)
  else if env.brokersAdd = 0 then
    ({ p with initFlag := 1, kfkt := true }, KAFKA_BROKERS_ADD_ERROR)
  else if topics = [] then ({ p with initFlag := 1, kfkt := true }, 0)
  else if (str2Vec topics 44).length < 1 then
    ({ p with initFlag := 1, kfkt := true }, KAFKA_NO_TOPIC_NAME_INIT)
  else addTopics env.topic { p with initFlag := 1, kfkt := true } (str2Vec topics 44)

def zookInit (p : ZooKfkTopicsPush) (topics : Bytes) (env : PushEnv) : ZooKfkTopicsPush × Int :=
  if p.zookeeph then (p, KAFKA_INIT_ALREADY)
  else if ¬ env.zookeeper then (p, KAFKA_MODULE_NEW_ERROR)
  else if env.found ≤ 0 then ({ p with zookeeph := true }, NO_KAFKA_BROKERS_FOUND)
  else kfkInit { p with zookeeph := true } env.brokers topics env

/-- The checks of `push`, before and under the lock. -/
def pushCheck (p : ZooKfkTopicsPush) (topic data : Bytes) : Option Int :=
  if data = [] ∨ topic = [] ∨ p.topicPtrMap = [] then some TRANSMIT_PARAMTER_ERROR
  else if p.destroy ≠ 0 then some MODULE_RECV_EXIT_COMMND
  else if ¬ p.topicPtrMap.contains topic then some PUSH_TOPIC_NAME_NOINIT
  else none

def setKfkErrorMessage (p : ZooKfkTopicsPush) (code : Int) (msg : Bytes) : ZooKfkTopicsPush :=
  { p with kfkErrorCode := code, kfkErrorMsg := msg }

/-- `outqLen` is what `rd_kafka_outq_len` gives behind the loop. `none`: the queue stays full for as
long as `outcomes` last, and the call has not returned. -/
def push (p : ZooKfkTopicsPush) (topic data : Bytes) (outcomes : List Produce) (outqLen : Nat) :
    Option (ZooKfkTopicsPush × Int) :=
  match p.pushCheck topic data with
  | some code => some (p, code)
  | none =>
    match produceLoop outcomes with
    | none => none
    | some .accepted => some (p, outqLen)
    | some (.failed code text) => some (p.setKfkErrorMessage code text, -1)

/-- `kfkDestroy`: the flag, which is set before the lock is taken. -/
def kfkDestroyFlag (p : ZooKfkTopicsPush) : ZooKfkTopicsPush := { p with destroy := 1 }

/-- `kfkDestroy`: what it does under the lock. -/
def kfkDestroy (p : ZooKfkTopicsPush) : ZooKfkTopicsPush :=
  if 2 < p.destroy + 1 then { p with destroy := p.destroy + 1 }
  else { p with destroy := p.destroy + 1, topicPtrMap := [], kfkt := false, zookeeph := false }

end ZooKfkTopicsPush

/-! ## The wrappers -/

inductive PushWrapper where
  | ZooKfkProducers
  | ZooKfkGenerators
  deriving DecidableEq, Repr

namespace ZooKfkProducers

def zooKfkProducersInit (w : Wrapper ZooKfkTopicsPush) (produceNum : Int32) (topicStr : Bytes)
    (env : Nat → PushEnv) : Wrapper ZooKfkTopicsPush × Int :=
  w.init produceNum fun i => ZooKfkTopicsPush.new.zookInit topicStr (env i)

end ZooKfkProducers

namespace ZooKfkGenerators

def zooKfkProducersInit (w : Wrapper ZooKfkTopicsPush) (produceNum : Int32)
    (brokerStr topicStr : Bytes) (env : Nat → PushEnv) : Wrapper ZooKfkTopicsPush × Int :=
  w.init produceNum fun i => ZooKfkTopicsPush.new.kfkInit brokerStr topicStr (env i)

end ZooKfkGenerators

/-- The init function of either wrapper; `str` is `zookStr` or `brokerStr`. -/
def zooKfkProducersInit (kind : PushWrapper) (w : Wrapper ZooKfkTopicsPush) (produceNum : Int32)
    (str topicStr : Bytes) (env : Nat → PushEnv) : Wrapper ZooKfkTopicsPush :=
  match kind with
  | .ZooKfkProducers => (ZooKfkProducers.zooKfkProducersInit w produceNum topicStr env).1
  | .ZooKfkGenerators => (ZooKfkGenerators.zooKfkProducersInit w produceNum str topicStr env).1

/-- `psuhKfkMsg` up to the producer that it picks, and the next `lastIndex`. -/
def psuhSlot (w : Wrapper ZooKfkTopicsPush) (lastIndex : UInt32) : Slot × UInt32 :=
  if w.num = 0 then (.refused KAFKA_NO_INIT_ALREADY, lastIndex)
  else if w.vec = [] then (.refused KAFKA_UNHAPPEN_ERRPR, lastIndex + 1)
  else (w.slot (lastIndex % w.num.toUInt32).toNat, lastIndex + 1)

/-- `psuhKfkMsg` behind `push`: a negative result is replaced by the one of `getLastErrorMsg`, whose
text goes to `errorMsg`. -/
def psuhReturn (p : ZooKfkTopicsPush) (ret : Int) : Int × Option Bytes :=
  if ret < 0 then (p.kfkErrorCode, some p.kfkErrorMsg) else (ret, none)

/-! ## Calls from several threads -/

/-- A call of `psuhKfkMsg` that is behind `push`; `accepted` is whether `rd_kafka_produce` took the
message in. -/
structure PushCall where
  topic : Bytes
  msg : Bytes
  slot : Slot
  ret : Int
  accepted : Bool
  deriving DecidableEq, Repr

/-- A call that has returned `value`, if it returns at all; `lastFailure` is the last code that
`rd_kafka_produce` failed with on the producer of the call, a full queue apart, when the call read
`kfkErrorCode`. It is 0 if there was none. -/
structure PushReturn where
  call : PushCall
  value : Option Int
  errorMsg : Option Bytes
  lastFailure : Int
  deriving DecidableEq, Repr

/-- `destroying` are the producers in whose `kfkDestroy` a thread has set the flag and waits for the
lock, `pending` the calls between `push` and `getLastErrorMsg`. `returned` and `failures` are
history; the last failure comes first. -/
structure PushState where
  wrapper : Wrapper ZooKfkTopicsPush
  lastIndex : UInt32
  destroying : List Nat
  pending : List PushCall
  returned : List PushReturn
  failures : List (Nat × Int)
  deriving DecidableEq, Repr

inductive PushAct where
  | init (produceNum : Int32) (str topicStr : Bytes) (env : Nat → PushEnv)
  /-- `addProducerTopic` and `addGereratorsTopic` reach producer `i`. -/
  | addTopic (i : Nat) (topic : Bytes) (env : TopicNew)
  /-- `zooKfkProducersDestroy` reaches producer `i`, or the watcher of its brokers does. -/
  | destroyFlag (i : Nat)
  | destroy (i : Nat)
  | push (topic msg : Bytes) (outcomes : List Produce) (outqLen : Nat)
  /-- The rest of a call. -/
  | finish (c : PushCall)

/-- The code of the failure that `push` records. -/
def failure (outcomes : List Produce) : Option Int :=
  match produceLoop outcomes with
  | some (.failed code _) => some code
  | some .accepted | none => none

namespace PushState

def lastFailure (s : PushState) (i : Nat) : Int := Wrapper.lastCode s.failures i

/-- Producer `i` becomes `p`. -/
def set (s : PushState) (i : Nat) (p : ZooKfkTopicsPush) : PushState :=
  { s with wrapper := s.wrapper.set i p }

/-- A call of `psuhKfkMsg` up to `push`. -/
def startPush (s : PushState) (topic msg : Bytes) (outcomes : List Produce) (outqLen : Nat) :
    Option PushState :=
  match psuhSlot s.wrapper s.lastIndex with
  | (slot, lastIndex) =>
    match slot with
    | .refused _ | .outside =>
      some { s with lastIndex, pending := ⟨topic, msg, slot, 0, false⟩ :: s.pending }
    | .at i =>
      match s.wrapper.vec[i]? with
      | none => none
      | some p =>
        match p.push topic msg outcomes outqLen, p.pushCheck topic msg with
        | none, _ => none
        | some (p, ret), some _ =>
          some { s.set i p with
            lastIndex, pending := ⟨topic, msg, slot, ret, false⟩ :: s.pending }
        | some (p, ret), none =>
          some { s.set i p with
            lastIndex
            pending := ⟨topic, msg, slot, ret, produceLoop outcomes = some .accepted⟩ :: s.pending
            failures := ((failure outcomes).toList.map fun code => (i, code)) ++ s.failures }

/-- The return of a call. -/
def psuhReturn (s : PushState) (c : PushCall) : Option PushReturn :=
  match c.slot with
  | .refused code => some ⟨c, some code, none, 0⟩
  | .outside => some ⟨c, none, none, 0⟩
  | .at i =>
    match s.wrapper.vec[i]? with
    | none => none
    | some p =>
      match Zookafka.psuhReturn p c.ret with
      | (value, errorMsg) => some ⟨c, some value, errorMsg, s.lastFailure i⟩

def next (kind : PushWrapper) (s : PushState) : PushAct → Option PushState
  | .init produceNum str topicStr env =>
    some { s with wrapper := zooKfkProducersInit kind s.wrapper produceNum str topicStr env }
  | .addTopic i topic env =>
    match s.wrapper.vec[i]? with
    -- without `kfkt` librdkafka gets a null pointer
    | some p => if p.kfkt then some (s.set i (p.producerAddTopic topic env).1) else none
    | none => none
  | .destroyFlag i =>
    match s.wrapper.vec[i]? with
    | some p => some { s.set i p.kfkDestroyFlag with destroying := i :: s.destroying }
    | none => none
  | .destroy i =>
    match s.wrapper.vec[i]? with
    | some p =>
      if i ∈ s.destroying then
        some { s.set i p.kfkDestroy with destroying := s.destroying.erase i }
      else none
    | none => none
  | .push topic msg outcomes outqLen => s.startPush topic msg outcomes outqLen
  | .finish c =>
    if c ∈ s.pending then
      match s.psuhReturn c with
      | some r => some { s with pending := s.pending.erase c, returned := r :: s.returned }
      | none => none
    else none

end PushState

/-- A wrapper before its init function. -/
def pushSystem (kind : PushWrapper) : Sys PushState PushAct where
  init := ⟨Wrapper.empty, 0, [], [], [], []⟩
  next := PushState.next kind

/-! ## What a caller may conclude -/

/-- The call returns, and with 0 or more if and only if librdkafka took the message in. -/
def PushReturn.Truthful (r : PushReturn) : Prop :=
  ∃ value, r.value = some value ∧ (0 ≤ value ↔ r.call.accepted = true)

/-- There was no producer to ask, or the message was taken in, or the last failure that librdkafka
reported on this producer has a negative code. -/
def PushReturn.Reported (r : PushReturn) : Prop :=
  match r.call.slot with
  | .refused _ => True
  | .outside => False
  | .at _ => r.call.accepted = true ∨ r.lastFailure < 0

/-! ## What each part does to a producer -/

section

variable {p : ZooKfkTopicsPush}

namespace ZooKfkTopicsPush

theorem insertTopic_kfkErrorCode (topic : Bytes) :
    (p.insertTopic topic).kfkErrorCode = p.kfkErrorCode := by
  unfold insertTopic
  split <;> rfl

theorem producerAddTopic_kfkErrorCode (topic : Bytes) (env : TopicNew) :
    (p.producerAddTopic topic env).1.kfkErrorCode = p.kfkErrorCode := by
  cases env with
  | ok => exact insertTopic_kfkErrorCode topic
  | noConf => rfl
  | noTopic => rfl

theorem addTopics_kfkErrorCode (env : Bytes → TopicNew) (topics : List Bytes) :
    (addTopics env p topics).1.kfkErrorCode = p.kfkErrorCode := by
  induction topics generalizing p with
  | nil => rfl
  | cons topic rest ih =>
    have hp := producerAddTopic_kfkErrorCode (p := p) topic (env topic)
    simp only [addTopics]
    split
    · exact hp
    · rw [ih, hp]

theorem kfkInit_kfkErrorCode (brokers topics : Bytes) (env : PushEnv) :
    (p.kfkInit brokers topics env).1.kfkErrorCode = p.kfkErrorCode := by
  unfold kfkInit
  repeat' split
  all_goals first | rfl | exact addTopics_kfkErrorCode _ _

theorem zookInit_kfkErrorCode (topics : Bytes) (env : PushEnv) :
    (p.zookInit topics env).1.kfkErrorCode = p.kfkErrorCode := by
  unfold zookInit
  repeat' split
  all_goals first | rfl | exact kfkInit_kfkErrorCode _ _ _

theorem kfkDestroy_kfkErrorCode : p.kfkDestroy.kfkErrorCode = p.kfkErrorCode := by
  unfold kfkDestroy
  split <;> rfl

/-- A check refuses with a code below 0. -/
theorem pushCheck_neg {topic data : Bytes} {code : Int} (h : p.pushCheck topic data = some code) :
    code < 0 := by
  unfold pushCheck at h
  repeat' split at h
  all_goals cases h
  all_goals decide

/-- What `push` does: a check refuses and nothing changes, or the message is taken in and nothing
changes, or librdkafka fails and the code is recorded. -/
theorem push_cases {topic data : Bytes} {outcomes : List Produce} {outqLen : Nat}
    {p' : ZooKfkTopicsPush} {ret : Int} (h : p.push topic data outcomes outqLen = some (p', ret)) :
    (p.pushCheck topic data = some ret ∧ p' = p) ∨
    (p.pushCheck topic data = none ∧ produceLoop outcomes = some .accepted ∧ p' = p ∧
      ret = outqLen) ∨
    ∃ code text, p.pushCheck topic data = none ∧ produceLoop outcomes = some (.failed code text) ∧
      p' = p.setKfkErrorMessage code text ∧ ret = -1 := by
  unfold push at h
  cases hc : p.pushCheck topic data with
  | some code =>
    simp only [hc, Option.some.injEq, Prod.mk.injEq] at h
    exact .inl ⟨by rw [h.2], h.1.symm⟩
  | none =>
    simp only [hc] at h
    cases ho : produceLoop outcomes with
    | none => simp [ho] at h
    | some o =>
      cases o with
      | accepted =>
        simp only [ho, Option.some.injEq, Prod.mk.injEq] at h
        exact .inr (.inl ⟨rfl, rfl, h.1.symm, h.2.symm⟩)
      | failed code text =>
        simp only [ho, Option.some.injEq, Prod.mk.injEq] at h
        exact .inr (.inr ⟨code, text, rfl, rfl, h.1.symm, h.2.symm⟩)

end ZooKfkTopicsPush

end

/-! ## The invariant -/

section

variable {kind : PushWrapper} {s s' : PushState}

/-- What holds of a call between its two steps. -/
def PushCall.Ok (length : Nat) (c : PushCall) : Prop :=
  match c.slot with
  | .refused code => code < 0 ∧ c.accepted = false
  | .outside => True
  | .at i => i < length ∧ (0 ≤ c.ret ↔ c.accepted = true)

structure PushInv (s : PushState) : Prop where
  /-- `kfkErrorCode` is the last failure. -/
  records : s.wrapper.Records (·.kfkErrorCode) s.failures
  pending : ∀ c ∈ s.pending, c.Ok s.wrapper.vec.length
  returned : ∀ r ∈ s.returned, r.Truthful ↔ r.Reported

theorem init_pushInv : PushInv (pushSystem kind).init where
  records := Wrapper.records_empty
  pending := by simp [pushSystem]
  returned := by simp [pushSystem]

theorem PushCall.Ok.mono {c : PushCall} {n m : Nat} (h : c.Ok n) (hle : n ≤ m) : c.Ok m := by
  unfold PushCall.Ok at h ⊢
  cases hs : c.slot with
  | refused code => simpa [hs] using h
  | outside => trivial
  | «at» i =>
    simp only [hs] at h ⊢
    exact ⟨Nat.lt_of_lt_of_le h.1 hle, h.2⟩

/-- A producer changes that keeps its code. -/
theorem PushInv.set (hi : PushInv s) {i : Nat} {p q : ZooKfkTopicsPush}
    (hp : s.wrapper.vec[i]? = some p) (hc : q.kfkErrorCode = p.kfkErrorCode) :
    PushInv (s.set i q) where
  records := hi.records.set hp hc
  pending := by simpa [PushState.set] using hi.pending
  returned := hi.returned

theorem PushInv.init (hi : PushInv s) (produceNum : Int32) (str topicStr : Bytes)
    (env : Nat → PushEnv) :
    PushInv { s with
      wrapper := zooKfkProducersInit kind s.wrapper produceNum str topicStr env } := by
  refine ⟨?_, fun c hc => (hi.pending c hc).mono ?_, hi.returned⟩
  · cases kind with
    | ZooKfkProducers =>
      exact hi.records.init fun i => ZooKfkTopicsPush.zookInit_kfkErrorCode _ _
    | ZooKfkGenerators =>
      exact hi.records.init fun i => ZooKfkTopicsPush.kfkInit_kfkErrorCode _ _ _
  · cases kind <;> exact Wrapper.length_le_init

theorem psuhSlot_refused {w : Wrapper ZooKfkTopicsPush} {lastIndex lastIndex' : UInt32} {code : Int}
    (h : psuhSlot w lastIndex = (.refused code, lastIndex')) : code < 0 := by
  unfold psuhSlot at h
  split at h
  · cases h
    decide
  · split at h
    · cases h
      decide
    · unfold Wrapper.slot at h
      split at h <;> cases h

/-- A call that has asked no producer waits for its return. -/
theorem PushInv.refuse (hi : PushInv s) (lastIndex : UInt32) {c : PushCall}
    (hc : c.Ok s.wrapper.vec.length) : PushInv { s with lastIndex, pending := c :: s.pending } where
  records := hi.records
  pending := by
    rintro d (_ | ⟨_, hd⟩)
    · exact hc
    · exact hi.pending d hd
  returned := hi.returned

/-- Librdkafka fails on producer `i`, and the code is recorded. -/
theorem PushInv.fail (hi : PushInv s) {i : Nat} {p : ZooKfkTopicsPush} (code : Int) (text : Bytes)
    (hp : s.wrapper.vec[i]? = some p) :
    PushInv { s.set i (p.setKfkErrorMessage code text) with
      failures := (i, code) :: s.failures } where
  records := hi.records.record (q := p.setKfkErrorMessage code text) hp
  pending := by simpa [PushState.set] using hi.pending
  returned := hi.returned

theorem PushInv.startPush (hi : PushInv s) {topic msg : Bytes} {outcomes : List Produce}
    {outqLen : Nat} (h : s.startPush topic msg outcomes outqLen = some s') : PushInv s' := by
  unfold PushState.startPush at h
  cases hs : psuhSlot s.wrapper s.lastIndex with
  | mk slot lastIndex =>
    cases slot with
    | refused code =>
      simp only [hs, Option.some.injEq] at h
      rw [← h]
      exact hi.refuse lastIndex ⟨psuhSlot_refused hs, rfl⟩
    | outside =>
      simp only [hs, Option.some.injEq] at h
      rw [← h]
      exact hi.refuse lastIndex trivial
    | «at» i =>
      simp only [hs] at h
      cases hp : s.wrapper.vec[i]? with
      | none => simp [hp] at h
      | some p =>
        simp only [hp] at h
        have hlt : i < s.wrapper.vec.length := (List.getElem?_eq_some_iff.mp hp).1
        cases hpush : p.push topic msg outcomes outqLen with
        | none => simp [hpush] at h
        | some r =>
          obtain ⟨p', ret⟩ := r
          rcases ZooKfkTopicsPush.push_cases hpush with
            ⟨hcheck, rfl⟩ | ⟨hcheck, hloop, rfl, rfl⟩ | ⟨code, text, hcheck, hloop, rfl, rfl⟩
          · simp only [hpush, hcheck, Option.some.injEq] at h
            rw [← h]
            refine (hi.set hp rfl).refuse lastIndex ⟨by simpa [PushState.set] using hlt, ?_⟩
            have := ZooKfkTopicsPush.pushCheck_neg hcheck
            simp
            omega
          · simp only [hpush, hcheck, failure, hloop, Option.some.injEq, Option.toList_none,
              List.map_nil, List.nil_append] at h
            rw [← h]
            exact (hi.set hp rfl).refuse lastIndex ⟨by simpa [PushState.set] using hlt, by simp⟩
          · simp only [hpush, hcheck, failure, hloop, Option.some.injEq, Option.toList_some,
              List.map_cons, List.map_nil, List.singleton_append] at h
            rw [← h]
            exact (hi.fail code text hp).refuse lastIndex
              ⟨by simpa [PushState.set] using hlt, by simp⟩

/-- A call that reads `kfkErrorCode` at once reads the failure of its own `push`. -/
theorem lastFailure_startPush {topic msg text : Bytes} {outcomes : List Produce} {outqLen : Nat}
    {i : Nat} {p : ZooKfkTopicsPush} {lastIndex : UInt32} {code : Int}
    (hs : psuhSlot s.wrapper s.lastIndex = (.at i, lastIndex)) (hp : s.wrapper.vec[i]? = some p)
    (hcheck : p.pushCheck topic msg = none)
    (hloop : produceLoop outcomes = some (.failed code text))
    (h : s.startPush topic msg outcomes outqLen = some s') : s'.lastFailure i = code := by
  simp only [PushState.startPush, hs, hp, ZooKfkTopicsPush.push, hcheck, hloop, failure,
    Option.some.injEq] at h
  rw [← h]
  exact Wrapper.lastCode_self s.failures i code

/-- What a call returns is truthful exactly under the condition. -/
theorem PushInv.truthful (hi : PushInv s) {c : PushCall} {r : PushReturn}
    (hc : c.Ok s.wrapper.vec.length) (h : s.psuhReturn c = some r) : r.Truthful ↔ r.Reported := by
  unfold PushState.psuhReturn at h
  unfold PushCall.Ok at hc
  cases hs : c.slot with
  | refused code =>
    simp only [hs, Option.some.injEq] at h hc
    rw [← h]
    refine ⟨fun _ => by simp [PushReturn.Reported, hs], fun _ => ⟨code, rfl, ?_⟩⟩
    have := hc.1
    simp only [hc.2]
    simpa using this
  | outside =>
    simp only [hs, Option.some.injEq] at h
    rw [← h]
    simp [PushReturn.Truthful, PushReturn.Reported, hs]
  | «at» i =>
    simp only [hs] at h hc
    cases hp : s.wrapper.vec[i]? with
    | none => simp [hp] at h
    | some p =>
      have hcode : p.kfkErrorCode = s.lastFailure i := hi.records.codes i p hp
      simp only [hp, Zookafka.psuhReturn] at h
      by_cases hret : c.ret < 0
      · have hno : c.accepted = false := by
          cases ha : c.accepted with
          | false => rfl
          | true => exact absurd (hc.2.mpr ha) (by omega)
        simp only [hret, if_true, Option.some.injEq] at h
        rw [← h]
        simp [PushReturn.Truthful, PushReturn.Reported, hs, hno, hcode]
      · have hyes : c.accepted = true := hc.2.mp (by omega)
        simp only [hret, if_false, Option.some.injEq] at h
        rw [← h]
        simp [PushReturn.Truthful, PushReturn.Reported, hs, hyes]
        omega

/-- Every step keeps the invariant. -/
theorem PushInv.next (hi : PushInv s) {a : PushAct} (h : s.next kind a = some s') : PushInv s' := by
  cases a with
  | init produceNum str topicStr env =>
    simp only [PushState.next, Option.some.injEq] at h
    rw [← h]
    exact hi.init produceNum str topicStr env
  | addTopic i topic env =>
    simp only [PushState.next] at h
    split at h
    · rename_i p hp
      split at h
      · cases h
        exact hi.set hp (ZooKfkTopicsPush.producerAddTopic_kfkErrorCode topic env)
      · cases h
    · cases h
  | destroyFlag i =>
    simp only [PushState.next] at h
    split at h
    · rename_i p hp
      cases h
      have hs := hi.set hp (q := p.kfkDestroyFlag) rfl
      exact ⟨hs.records, hs.pending, hs.returned⟩
    · cases h
  | destroy i =>
    simp only [PushState.next] at h
    split at h
    · rename_i p hp
      split at h
      · cases h
        have hs := hi.set hp (q := p.kfkDestroy) ZooKfkTopicsPush.kfkDestroy_kfkErrorCode
        exact ⟨hs.records, hs.pending, hs.returned⟩
      · cases h
    · cases h
  | push topic msg outcomes outqLen => exact hi.startPush h
  | finish c =>
    simp only [PushState.next] at h
    split at h
    · rename_i hc
      split at h
      · rename_i r hr
        cases h
        refine ⟨hi.records, fun d hd => hi.pending d (List.mem_of_mem_erase hd), ?_⟩
        rintro d (_ | ⟨_, hd⟩)
        · exact hi.truthful (hi.pending c hc) hr
        · exact hi.returned d hd
      · cases h
    · cases h

end

/-- In every run and for every call: the result is truthful if and only if the call could not reach
a producer, the message was taken in, or the last failure of the producer has a negative code. -/
theorem push_truthful (kind : PushWrapper) (s : PushState) (h : (pushSystem kind).Reach s) :
    ∀ r ∈ s.returned, r.Truthful ↔ r.Reported :=
  (Sys.Reach.inv init_pushInv (fun _ _ _ hi hs => hi.next hs) h).returned

/-- One producer with the topic `t`. -/
def oneProducer : PushAct :=
  .init 1 [98] [116] fun _ => ⟨true, 1, [98], true, 1, fun _ => .ok⟩

/-- A call for the topic `t`, and its return. -/
def pushT (outcomes : List Produce) (ret : Int) (accepted : Bool) : List PushAct :=
  [.push [116] [109] outcomes 1, .finish ⟨[116], [109], .at 0, ret, accepted⟩]

/-- A full queue is waited for, and then the message is taken in. -/
def fullQueueRun : List PushAct :=
  oneProducer :: pushT [.failed RD_QUEUE_FULL [], .accepted] 1 true

theorem push_truthful_fullQueueRun : ∃ s, (pushSystem .ZooKfkProducers).run
    (pushSystem .ZooKfkProducers).init fullQueueRun = some s ∧ s.returned ≠ [] ∧
    ∀ r ∈ s.returned, r.Truthful ↔ r.Reported := by
  refine ⟨_, rfl, ?_, push_truthful .ZooKfkProducers _ (Sys.Reach.init.run fullQueueRun rfl)⟩
  decide

/-- `RD_KAFKA_RESP_ERR_MSG_SIZE_TOO_LARGE` is 10, and the caller takes it for a success. -/
theorem large_message_success : ¬ ∀ kind s, (pushSystem kind).Reach s →
    ∀ r ∈ s.returned, r.Truthful := by
  intro h
  obtain ⟨s, hrun⟩ : ∃ s, (pushSystem .ZooKfkProducers).run (pushSystem .ZooKfkProducers).init
      (oneProducer :: pushT [.failed 10 []] (-1) false) = some s := ⟨_, rfl⟩
  have hr := h .ZooKfkProducers s (Sys.Reach.init.run _ hrun)
  cases hrun
  obtain ⟨value, hv, hiff⟩ := hr _ (.head _)
  cases hv
  exact absurd (hiff.mp (by decide)) (by decide)

/-- A call for a topic that was not set up returns 0 as long as librdkafka has not failed. -/
example : ((pushSystem .ZooKfkGenerators).run (pushSystem .ZooKfkGenerators).init
    [oneProducer, .push [117] [109] [] 0,
      .finish ⟨[117], [109], .at 0, PUSH_TOPIC_NAME_NOINIT, false⟩]).map
    (fun s => s.returned.map (·.value)) = some [some 0] := rfl

end Zookafka
end CmakeFrame
