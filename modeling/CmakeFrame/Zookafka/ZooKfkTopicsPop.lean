import CmakeFrame.Lib.Sys
import CmakeFrame.Zookafka.ZooKfkCommon

/-!
# `zookafka/src/ZooKfkTopicsPop.cpp`

A `ZooKfkTopicsPop` is one consumer of librdkafka. `pop` waits for a message, `tryPop` asks once;
both write into strings of the caller. `ZooKfkConsumers` and `ZooKfkSubscribes` hold several
consumers and pick one by its index. What librdkafka and zookeeper answer is an argument.

* `ZooKfkTopicsPop.kfkInit`, `zookInit`, `kfkTopicConsumeStart`, `kfkTopicConsumeStop`,
  `kfkDestroy`: the last three set their flag before they take the lock.
* `popCheck`, `popLoop`, `popEnd`, `tryPopEnd`: the parts of `pop` and `tryPop`.
* `popSystem`: any number of threads use one wrapper. A call holds the lock of its consumer while it
  polls, and calls `getLastErrorMsg` behind it.
* `TryTruthful`, `ConsumeTruthful`: what the results should say; `TryReported`,
  `ConsumeReported`: the conditions; `consume_truthful`: for each call of every run, and no message
  is lost or given twice.
-/

namespace CmakeFrame
namespace Zookafka

open Lib

/-! ## A consumer -/

/-- `kfkt`, `zookeeph`: there is a handle. -/
structure ZooKfkTopicsPop where
  zookeeph : Bool
  kfkt : Bool
  topics_ : List Bytes
  kfkErrorCode : Int
  kfkErrorMsg : Bytes
  destroy : Int32
  initFlag : Int32
  switchFlag : Int32
  errorFlag : Int
  deriving DecidableEq, Repr

/-- What the outside gives to an init function; a `Bool` is whether the call succeeds, `subscribe`
the code of `rd_kafka_subscribe`. -/
structure PopEnv where
  zookeeper : Bool
  found : Int
  brokers : Bytes
  confNew : Bool
  confBrokers : Bool
  confGroup : Bool
  confOffset : Bool
  rdKafkaNew : Bool
  brokersAdd : Nat
  listNew : Bool
  subscribe : Int
  deriving DecidableEq, Repr

/-- What librdkafka gives when the topics change. -/
structure ChangeEnv where
  listNew : Bool
  unsubscribe : Int
  subscribe : Int
  deriving DecidableEq, Repr

/-- `rd_kafka_message_t`, its text by `rd_kafka_err2str`, and what `message->err` reads when
`rd_kafka_message_destroy` has freed the message. -/
structure Message where
  err : Int
  text : Bytes
  topic : Option Bytes
  payload : Bytes
  key : Bytes
  offset : Int
  freedErr : Int
  deriving DecidableEq, Repr

/-- The strings and the number that a caller passes. -/
structure Outputs where
  topic : Bytes
  data : Bytes
  key : Bytes
  offset : Int
  deriving DecidableEq, Repr

/-- A message goes into the outputs; the pointers to `key` and `offset` may be null. -/
def Outputs.assign (o : Outputs) (key offset : Bool) (m : Message) : Outputs where
  topic := (m.topic.map cstr).getD o.topic
  data := m.payload
  key := if key then m.key else o.key
  offset := if offset then m.offset else o.offset

/-- How the loop of `pop` goes on. -/
inductive Looped where
  | again
  /-- It ends with this `message`. -/
  | leave (message : Option Message)
  deriving DecidableEq, Repr

namespace ZooKfkTopicsPop

/-- The constructor. -/
def new : ZooKfkTopicsPop := ⟨false, false, [], 0, [], 0, 0, 0, 0⟩

def kfkInit (p : ZooKfkTopicsPop) (brokers topic groupName : Bytes) (env : PopEnv) :
    ZooKfkTopicsPop × Int :=
  if brokers = [] then (p, NO_KAFKA_BROKERS_FOUND)
  else if p.initFlag ≠ 0 then (p, KAFKA_INIT_ALREADY)
  else if ¬ env.confNew then ({ p with initFlag := 1 }, KAFKA_MODULE_NEW_ERROR)
  else if ¬ env.confBrokers ∨ (groupName ≠ [] ∧ ¬ env.confGroup) ∨ ¬ env.confOffset then
    ({ p with initFlag := 1 }, KAFKA_CONSUMER_CONFSET_ERROR)
  else if ¬ env.rdKafkaNew then
    ({ p with initFlag := 1, kfkt := false }, KAFKA_MODULE_NEW_ERROR)
  else if env.brokersAdd = 0 then
    ({ p with initFlag := 1, kfkt := true }, KAFKA_BROKERS_ADD_ERROR)
  else if topic = [] then ({ p with initFlag := 1, kfkt := true }, 0)
  else if (str2Vec topic 44).length < 1 then
    ({ p with initFlag := 1, kfkt := true }, TRANSMIT_PARAMTER_ERROR)
  else if ¬ env.listNew then
    ({ p with initFlag := 1, kfkt := true }, KAFKA_TOPIC_CONF_NEW_ERROR)
  else
    ({ p with initFlag := 1, kfkt := true, topics_ := p.topics_ ++ str2Vec topic 44 },
      if env.subscribe ≠ 0 then KAFKA_CONSUMER_ADDTOPIC_ERROR else 0)

def zookInit (p : ZooKfkTopicsPop) (topic groupName : Bytes) (env : PopEnv) :
    ZooKfkTopicsPop × Int :=
  if p.zookeeph then (p, KAFKA_INIT_ALREADY)
  else if ¬ env.zookeeper then (p, KAFKA_MODULE_NEW_ERROR)
  else if env.found ≤ 0 then ({ p with zookeeph := true }, NO_KAFKA_BROKERS_FOUND)
  else kfkInit { p with zookeeph := true } env.brokers topic groupName env

/-- The topics could not be changed. -/
def changeError (p : ZooKfkTopicsPop) (topics_ : List Bytes) : ZooKfkTopicsPop :=
  { p with topics_, switchFlag := 0, errorFlag := KAFKA_CONSUMER_ADDTOPIC_ERROR }

/-- `kfkTopicConsumeStart` up to the lock; `none` if it returns before. -/
def kfkTopicConsumeStartFlag (p : ZooKfkTopicsPop) : Option ZooKfkTopicsPop :=
  if p.errorFlag ≠ 0 then none else some { p with switchFlag := 1 }

/-- `kfkTopicConsumeStart` under the lock. -/
def kfkTopicConsumeStart (p : ZooKfkTopicsPop) (topic : Bytes) (env : ChangeEnv) :
    ZooKfkTopicsPop × Int :=
  if p.topics_.contains topic then ({ p with switchFlag := 0 }, 0)
  else if ¬ env.listNew then (p.changeError p.topics_, KAFKA_TOPIC_CONF_NEW_ERROR)
  else if p.topics_ ≠ [] ∧ env.unsubscribe ≠ 0 then
    (p.changeError p.topics_, KAFKA_CONSUMER_ADDTOPIC_ERROR)
  else if env.subscribe ≠ 0 then (p.changeError [], KAFKA_CONSUMER_ADDTOPIC_ERROR)
  else ({ p with topics_ := p.topics_ ++ [topic], switchFlag := 0 }, p.errorFlag)

/-- `kfkTopicConsumeStop` up to the lock; `none` if it returns before. -/
def kfkTopicConsumeStopFlag (p : ZooKfkTopicsPop) : Option ZooKfkTopicsPop :=
  if p.topics_ = [] then none
  else if p.errorFlag ≠ 0 then none
  else some { p with switchFlag := 1 }

/-- `kfkTopicConsumeStop` under the lock. -/
def kfkTopicConsumeStop (p : ZooKfkTopicsPop) (topic : Bytes) (env : ChangeEnv) :
    ZooKfkTopicsPop × Int :=
  let topics_ := p.topics_.erase topic
  if ¬ p.topics_.contains topic then ({ p with switchFlag := 0 }, TRANSMIT_PARAMTER_ERROR)
  else if topics_ = [] then
    if env.unsubscribe ≠ 0 then (p.changeError [topic], KAFKA_CONSUMER_ADDTOPIC_ERROR)
    else ({ p with topics_, switchFlag := 0 }, 0)
  else if ¬ env.listNew then (p.changeError (topics_ ++ [topic]), KAFKA_MODULE_NEW_ERROR)
  else if env.unsubscribe ≠ 0 then
    (p.changeError (topics_ ++ [topic]), KAFKA_CONSUMER_ADDTOPIC_ERROR)
  else if env.subscribe ≠ 0 then (p.changeError [], KAFKA_CONSUMER_ADDTOPIC_ERROR)
  else ({ p with topics_, switchFlag := 0 }, p.errorFlag)

/-- `kfkDestroy` up to the lock. -/
def kfkDestroyFlag (p : ZooKfkTopicsPop) : ZooKfkTopicsPop := { p with destroy := 1 }

/-- `kfkDestroy` under the lock. -/
def kfkDestroy (p : ZooKfkTopicsPop) : ZooKfkTopicsPop :=
  if 2 < p.destroy + 1 then { p with destroy := p.destroy + 1 }
  else { p with destroy := p.destroy + 1, kfkt := false, zookeeph := false, topics_ := [] }

def setKfkErrorMessage (p : ZooKfkTopicsPop) (code : Int) (msg : Bytes) : ZooKfkTopicsPop :=
  { p with kfkErrorCode := code, kfkErrorMsg := msg }

/-- What `pop` and `tryPop` check under the lock, before they poll. -/
def popCheck (p : ZooKfkTopicsPop) : Option Int :=
  if p.destroy ≠ 0 then some MODULE_RECV_EXIT_COMMND
  else if p.errorFlag ≠ 0 then some p.errorFlag
  else if p.switchFlag ≠ 0 then some 0
  else if ¬ p.kfkt then some KAFKA_NO_INIT_ALREADY
  else if p.topics_ = [] then some KAFKA_NO_TOPIC_NAME_INIT
  else none

/-- One turn of the loop of `pop`, with what the poll gave and the flags as they are behind it. -/
def popLoop (p : ZooKfkTopicsPop) (message : Option Message) : Looped :=
  if p.switchFlag ≠ 0 ∨ p.destroy ≠ 0 then .leave (message.filter fun m => m.err ≠ RD_PARTITION_EOF)
  else match message with
    | none => .again
    | some m => if m.err = RD_PARTITION_EOF then .again else .leave (some m)

/-- `pop` behind its loop: the consumer, the outputs and `ret`. -/
def popEnd (p : ZooKfkTopicsPop) (o : Outputs) (key offset : Bool) :
    Option Message → ZooKfkTopicsPop × Outputs × Int
  | none => (p, o, 0)
  | some m =>
    -- `ret = message->err` stands behind `rd_kafka_message_destroy`
    if m.err ≠ 0 then (p.setKfkErrorMessage m.err m.text, o, m.freedErr)
    else (p, o.assign key offset m, 0)

/-- `tryPop` behind its poll. -/
def tryPopEnd (p : ZooKfkTopicsPop) (o : Outputs) (key offset : Bool) :
    Option Message → ZooKfkTopicsPop × Outputs × Int
  | none => (p, o, 0)
  | some m =>
    if m.err ≠ 0 then
      if m.err ≠ RD_PARTITION_EOF then (p.setKfkErrorMessage m.err m.text, o, m.err) else (p, o, 0)
    else (p, o.assign key offset m, 1)

end ZooKfkTopicsPop

/-! ## The wrappers -/

inductive PopWrapper where
  | ZooKfkConsumers
  /-- `ZooKfkConsumers`, set up by `kfkBorsConsumerInit`. -/
  | kfkBors
  | ZooKfkSubscribes
  deriving DecidableEq, Repr

namespace ZooKfkConsumers

def zooKfkConsumerInit (w : Wrapper ZooKfkTopicsPop) (consumerNum : Int32)
    (topicStr groupName : Bytes) (env : Nat → PopEnv) : Wrapper ZooKfkTopicsPop × Int :=
  w.init consumerNum fun i => ZooKfkTopicsPop.new.zookInit topicStr groupName (env i)

def kfkBorsConsumerInit (w : Wrapper ZooKfkTopicsPop) (consumerNum : Int32)
    (borsStr topicStr groupName : Bytes) (env : Nat → PopEnv) : Wrapper ZooKfkTopicsPop × Int :=
  w.init consumerNum fun i => ZooKfkTopicsPop.new.kfkInit borsStr topicStr groupName (env i)

end ZooKfkConsumers

namespace ZooKfkSubscribes

def zooKfkConsumerInit (w : Wrapper ZooKfkTopicsPop) (consumerNum : Int32)
    (brokerStr topicStr groupName : Bytes) (env : Nat → PopEnv) : Wrapper ZooKfkTopicsPop × Int :=
  w.init consumerNum fun i => ZooKfkTopicsPop.new.kfkInit brokerStr topicStr groupName (env i)

end ZooKfkSubscribes

/-- The init functions of both wrappers. -/
def zooKfkConsumerInit (kind : PopWrapper) (w : Wrapper ZooKfkTopicsPop) (consumerNum : Int32)
    (str topicStr groupName : Bytes) (env : Nat → PopEnv) : Wrapper ZooKfkTopicsPop :=
  match kind with
  | .ZooKfkConsumers => (ZooKfkConsumers.zooKfkConsumerInit w consumerNum topicStr groupName env).1
  | .kfkBors => (ZooKfkConsumers.kfkBorsConsumerInit w consumerNum str topicStr groupName env).1
  | .ZooKfkSubscribes =>
    (ZooKfkSubscribes.zooKfkConsumerInit w consumerNum str topicStr groupName env).1

/-- The consumer that `consume` and `tryConsume` pick. -/
def consumeSlot (w : Wrapper ZooKfkTopicsPop) (index : Int32) : Slot :=
  if w.num ≤ index then .refused KAFKA_NO_INIT_ALREADY
  else if w.vec = [] then .refused KAFKA_UNHAPPEN_ERRPR
  else if index < 0 then .outside
  else w.slot index.toInt.toNat

/-- `consume` and `tryConsume` behind `pop` and `tryPop`: a negative result is replaced by the one
of `getLastErrorMsg`, whose text goes to `errorMsg`. -/
def consumeReturn (p : ZooKfkTopicsPop) (ret : Int) : Int × Option Bytes :=
  if ret < 0 then (p.kfkErrorCode, some p.kfkErrorMsg) else (ret, none)

/-! ## Calls from several threads -/

inductive PopKind where
  | consume
  | tryConsume
  deriving DecidableEq, Repr

/-- A call of `consume` or `tryConsume`. `out` names the outputs of the caller, `key` and `offset`
are whether these pointers are given. `check` is what `popCheck` has answered, `ret` the result of
`pop` or `tryPop`. `before`, `polled` and `stored` are history: the outputs at the start, what the
polls gave, and the messages that were written to the outputs. -/
structure PopCall where
  kind : PopKind
  out : Nat
  key : Bool
  offset : Bool
  slot : Slot
  check : Option Int
  before : Outputs
  outs : Outputs
  polled : List (Option Message)
  stored : List Message
  ret : Int
  deriving DecidableEq, Repr

/-- A call that has returned `value`, if it returns at all; `lastError` is the last error that a
poll of this consumer gave, the end of a partition apart, when the call read `kfkErrorCode`. It is 0
if there was none. -/
structure PopReturn where
  call : PopCall
  value : Option Int
  errorMsg : Option Bytes
  lastError : Int
  deriving DecidableEq, Repr

/-- What another thread does to a consumer. -/
inductive Change where
  | start (topic : Bytes)
  | stop (topic : Bytes)
  | destroy
  deriving DecidableEq, Repr

/-- `changing` are the threads that have set a flag and wait for the lock, `polling` the calls that
hold the lock, `ready` the ones that have only `getLastErrorMsg` to go. `returned`, `polled` and
`errors` are history: the calls that have ended, the messages that polls gave, and the errors, the
last one first. -/
structure PopState where
  wrapper : Wrapper ZooKfkTopicsPop
  outs : Nat → Outputs
  changing : List (Nat × Change)
  polling : List PopCall
  ready : List PopCall
  returned : List PopReturn
  polled : List Message
  errors : List (Nat × Int)

inductive PopAct where
  | init (consumerNum : Int32) (str topicStr groupName : Bytes) (env : Nat → PopEnv)
  /-- The caller writes its own strings. -/
  | write (out : Nat) (o : Outputs)
  /-- A call up to its first poll, or up to the end if it makes none. -/
  | call (kind : PopKind) (index : Int32) (out : Nat) (key offset : Bool)
  /-- `rd_kafka_consumer_poll` gives `message` to the call `c`. -/
  | poll (c : PopCall) (message : Option Message)
  /-- The rest of a call. -/
  | finish (c : PopCall)
  /-- A thread sets the flag of consumer `i`. -/
  | flag (i : Nat) (change : Change)
  /-- It has the lock. -/
  | change (i : Nat) (change : Change) (env : ChangeEnv)

namespace PopState

def lastError (s : PopState) (i : Nat) : Int := Wrapper.lastCode s.errors i

/-- Consumer `i` becomes `p`. -/
def set (s : PopState) (i : Nat) (p : ZooKfkTopicsPop) : PopState :=
  { s with wrapper := s.wrapper.set i p }

/-- A call holds the lock of consumer `i`. -/
def locked (s : PopState) (i : Nat) : Bool := s.polling.any (·.slot = .at i)

/-- A call uses these outputs. -/
def inUse (s : PopState) (out : Nat) : Bool := (s.polling ++ s.ready).any (·.out = out)

def call (s : PopState) (kind : PopKind) (index : Int32) (out : Nat) (key offset : Bool) :
    Option PopState :=
  let slot := consumeSlot s.wrapper index
  let c : PopCall := ⟨kind, out, key, offset, slot, none, s.outs out, s.outs out, [], [], 0⟩
  if s.inUse out then none
  else match slot with
    | .refused _ | .outside => some { s with ready := c :: s.ready }
    | .at i =>
      if s.locked i then none
      else match s.wrapper.vec[i]? with
        | none => none
        | some p =>
          match p.popCheck with
          | some code =>
            some { s with ready := { c with check := some code, ret := code } :: s.ready }
          | none => some { s with polling := c :: s.polling }

/-- The error that a poll gives and the consumer records. -/
def pollError (i : Nat) : Option Message → List (Nat × Int)
  | none => []
  | some m => if m.err ≠ 0 ∧ m.err ≠ RD_PARTITION_EOF then [(i, m.err)] else []

/-- The message that a poll gives. -/
def pollMessage : Option Message → List Message
  | none => []
  | some m => if m.err = 0 then [m] else []

/-- The call `c` is behind its last poll, which has left `message` to deal with. -/
def endPoll (s : PopState) (c : PopCall) (i : Nat) (r : ZooKfkTopicsPop × Outputs × Int)
    (polled message : Option Message) : PopState :=
  { s.set i r.1 with
    polling := s.polling.erase c
    ready := { c with
      outs := r.2.1, polled := c.polled ++ [polled], stored := c.stored ++ pollMessage message,
      ret := r.2.2 } :: s.ready
    polled := pollMessage polled ++ s.polled
    errors := pollError i message ++ s.errors }

def poll (s : PopState) (c : PopCall) (message : Option Message) : Option PopState :=
  if c ∉ s.polling then none
  else match c.slot with
    | .refused _ | .outside => none
    | .at i =>
      match s.wrapper.vec[i]? with
      | none => none
      | some p =>
        match c.kind with
        | .consume =>
          match p.popLoop message with
          | .again =>
            some { s with
              polling := { c with polled := c.polled ++ [message] } :: s.polling.erase c }
          | .leave m => some (s.endPoll c i (p.popEnd c.outs c.key c.offset m) message m)
        | .tryConsume =>
          some (s.endPoll c i (p.tryPopEnd c.outs c.key c.offset message) message message)

/-- The return of a call. -/
def consumeReturn (s : PopState) (c : PopCall) : Option PopReturn :=
  match c.slot with
  | .refused code => some ⟨c, some code, none, 0⟩
  | .outside => some ⟨c, none, none, 0⟩
  | .at i =>
    match s.wrapper.vec[i]? with
    | none => none
    | some p =>
      match Zookafka.consumeReturn p c.ret with
      | (value, errorMsg) => some ⟨c, some value, errorMsg, s.lastError i⟩

/-- A thread sets a flag, and goes on to the lock if it does not return before. -/
def flag (p : ZooKfkTopicsPop) : Change → Option ZooKfkTopicsPop
  | .start _ => p.kfkTopicConsumeStartFlag
  | .stop _ => p.kfkTopicConsumeStopFlag
  | .destroy => some p.kfkDestroyFlag

/-- What the thread does under the lock. -/
def apply (p : ZooKfkTopicsPop) (env : ChangeEnv) : Change → ZooKfkTopicsPop
  | .start topic => (p.kfkTopicConsumeStart topic env).1
  | .stop topic => (p.kfkTopicConsumeStop topic env).1
  | .destroy => p.kfkDestroy

def next (kind : PopWrapper) (s : PopState) : PopAct → Option PopState
  | .init consumerNum str topicStr groupName env =>
    some { s with
      wrapper := zooKfkConsumerInit kind s.wrapper consumerNum str topicStr groupName env }
  | .write out o =>
    if s.inUse out then none else some { s with outs := Function.update s.outs out o }
  | .call kind index out key offset => s.call kind index out key offset
  | .poll c message => s.poll c message
  | .finish c =>
    if c ∈ s.ready then
      match s.consumeReturn c with
      | some r =>
        some { s with
          outs := Function.update s.outs c.out c.outs
          ready := s.ready.erase c, returned := r :: s.returned }
      | none => none
    else none
  | .flag i change =>
    match s.wrapper.vec[i]? with
    | none => none
    | some p =>
      match flag p change with
      | none => some s
      | some p => some { s.set i p with changing := (i, change) :: s.changing }
  | .change i change env =>
    match s.wrapper.vec[i]? with
    | none => none
    | some p =>
      if (i, change) ∈ s.changing ∧ ¬ s.locked i then
        some { s.set i (apply p env change) with changing := s.changing.erase (i, change) }
      else none

end PopState

/-- Outputs that nothing was written to. -/
def outputs0 : Outputs := ⟨[], [], [], 0⟩

/-- A wrapper before its init function. -/
def popSystem (kind : PopWrapper) : Sys PopState PopAct where
  init := ⟨Wrapper.empty, fun _ => outputs0, [], [], [], [], [], []⟩
  next := PopState.next kind

/-! ## What a caller may conclude -/

namespace PopCall

/-- What stopped a call: a check that does not answer 0, or an error that a poll gave. For `pop` the
code is what the freed message reads. -/
def failure (c : PopCall) : Option Int :=
  match c.check with
  | some code => if code ≠ 0 then some code else none
  | none =>
    match c.polled.findSome? (Option.filter fun m => m.err ≠ 0 ∧ m.err ≠ RD_PARTITION_EOF) with
    | none => none
    | some m =>
      match c.kind with
      | .consume => some m.freedErr
      | .tryConsume => some m.err

/-- There was an error: no consumer to ask, or one that failed. -/
def Failed (c : PopCall) : Prop :=
  match c.slot with
  | .refused _ | .outside => True
  | .at _ => c.failure.isSome

/-- The failure has a negative code, and so has the error that the caller gets in its place. -/
def Negative (c : PopCall) (lastError : Int) : Prop :=
  ∃ code ∈ c.failure, code < 0 ∧ lastError < 0

end PopCall

namespace PopReturn

/-- `tryConsume`: 1 for a message, 0 for nothing, and below 0 for an error. -/
def TryTruthful (r : PopReturn) : Prop :=
  ∃ value, r.value = some value ∧ (value = 1 ↔ r.call.stored ≠ []) ∧
    (value = 0 ↔ r.call.stored = [] ∧ ¬ r.call.Failed) ∧ (value < 0 ↔ r.call.Failed)

/-- `consume`: with 0 or more, data in the outputs are from this call. -/
def ConsumeTruthful (r : PopReturn) : Prop :=
  ∃ value, r.value = some value ∧ (0 ≤ value → r.call.outs.data ≠ [] → r.call.stored ≠ [])

/-- There was no consumer to ask, or nothing failed, or the failure has a negative code and so has
the error that the caller gets in its place. -/
def TryReported (r : PopReturn) : Prop :=
  match r.call.slot with
  | .refused _ => True
  | .outside => False
  | .at _ => r.call.failure = none ∨ r.call.Negative r.lastError

/-- There was no consumer to ask, or a message was stored, or the string was empty before the call,
or the call failed and both codes are negative, as for `tryConsume`. -/
def ConsumeReported (r : PopReturn) : Prop :=
  match r.call.slot with
  | .refused _ => True
  | .outside => False
  | .at _ => r.call.stored ≠ [] ∨ r.call.before.data = [] ∨ r.call.Negative r.lastError

end PopReturn

/-- Each call that has returned is truthful exactly under its condition, a call stores one message
at most, and the messages that polls gave are the ones that calls have stored. -/
structure Delivered (s : PopState) : Prop where
  tryConsume : ∀ r ∈ s.returned, r.call.kind = .tryConsume → (r.TryTruthful ↔ r.TryReported)
  consume : ∀ r ∈ s.returned, r.call.kind = .consume → (r.ConsumeTruthful ↔ r.ConsumeReported)
  written : ∀ r ∈ s.returned, r.call.stored ≠ [] → ∃ m, r.call.stored = [m] ∧
    r.call.outs = r.call.before.assign r.call.key r.call.offset m
  once : s.polled.Perm (s.ready.flatMap (·.stored) ++ s.returned.flatMap (·.call.stored))

/-! ## The invariant -/

section

variable {kind : PopWrapper} {s s' : PopState}

namespace PopCall

/-- A call in its loop has polled nothing so far. -/
def Waiting (length : Nat) (c : PopCall) : Prop :=
  ∃ i, c.slot = .at i ∧ i < length ∧ c.check = none ∧ c.stored = [] ∧ c.outs = c.before ∧
    ∀ m ∈ c.polled, ∀ x ∈ m, x.err = RD_PARTITION_EOF

/-- The `ret` of `pop` and of `tryPop` for a message. -/
def success (c : PopCall) : Int :=
  match c.kind with
  | .consume => 0
  | .tryConsume => 1

/-- `pop` or `tryPop` has ended: with nothing, with a message, or with a failure. -/
inductive Outcome (c : PopCall) : Prop
  | nothing : c.failure = none → c.stored = [] → c.outs = c.before → c.ret = 0 → Outcome c
  | message (m : Message) : c.failure = none → c.stored = [m] →
      c.outs = c.before.assign c.key c.offset m → c.ret = c.success → Outcome c
  | failed (code : Int) : c.failure = some code → c.stored = [] → c.outs = c.before →
      c.ret = code → (c.kind = .tryConsume → code ≠ 0) → Outcome c

def Ended (length : Nat) (c : PopCall) : Prop :=
  match c.slot with
  | .refused code => code < 0 ∧ c.stored = []
  | .outside => c.stored = []
  | .at i => i < length ∧ c.Outcome

end PopCall

structure PopInv (s : PopState) : Prop where
  /-- `kfkErrorCode` is the last error. -/
  records : s.wrapper.Records (·.kfkErrorCode) s.errors
  polling : ∀ c ∈ s.polling, c.Waiting s.wrapper.vec.length
  ready : ∀ c ∈ s.ready, c.Ended s.wrapper.vec.length
  delivered : Delivered s

theorem init_popInv : PopInv (popSystem kind).init where
  records := Wrapper.records_empty
  polling := by simp [popSystem]
  ready := by simp [popSystem]
  delivered := by constructor <;> simp [popSystem]

/-! ## Consumers -/

section

variable {p : ZooKfkTopicsPop}

namespace ZooKfkTopicsPop

theorem kfkInit_kfkErrorCode (brokers topic groupName : Bytes) (env : PopEnv) :
    (p.kfkInit brokers topic groupName env).1.kfkErrorCode = p.kfkErrorCode := by
  -- no branch writes the member
  unfold kfkInit
  simp only [apply_ite Prod.fst, apply_ite ZooKfkTopicsPop.kfkErrorCode, ite_self]

theorem zookInit_kfkErrorCode (topic groupName : Bytes) (env : PopEnv) :
    (p.zookInit topic groupName env).1.kfkErrorCode = p.kfkErrorCode := by
  unfold zookInit
  repeat' split
  all_goals first | rfl | exact kfkInit_kfkErrorCode _ _ _ _

theorem flag_kfkErrorCode {change : Change} {p' : ZooKfkTopicsPop}
    (h : PopState.flag p change = some p') : p'.kfkErrorCode = p.kfkErrorCode := by
  cases change with
  | start topic =>
    simp only [PopState.flag, kfkTopicConsumeStartFlag] at h
    split at h
    · cases h
    · cases h
      rfl
  | stop topic =>
    simp only [PopState.flag, kfkTopicConsumeStopFlag] at h
    repeat' split at h
    all_goals cases h
    rfl
  | destroy =>
    cases h
    rfl

theorem apply_kfkErrorCode (env : ChangeEnv) (change : Change) :
    (PopState.apply p env change).kfkErrorCode = p.kfkErrorCode := by
  cases change with
  | start topic =>
    simp only [PopState.apply, kfkTopicConsumeStart]
    repeat' split
    all_goals rfl
  | stop topic =>
    simp only [PopState.apply, kfkTopicConsumeStop]
    repeat' split
    all_goals rfl
  | destroy =>
    simp only [PopState.apply, kfkDestroy]
    split <;> rfl

/-- The loop goes on only behind a poll that gave no message and no error. -/
theorem quiet_of_again {message : Option Message} (h : p.popLoop message = .again) :
    ∀ x ∈ message, x.err = RD_PARTITION_EOF := by
  unfold popLoop at h
  split at h
  · cases h
  · split at h
    · simp
    · split at h
      · rename_i m heof
        rintro x ⟨⟩
        exact heof
      · cases h

/-- The loop leaves with what the poll gave, the end of a partition apart. -/
theorem leave_cases {message m' : Option Message} (h : p.popLoop message = .leave m') :
    (m' = none ∧ ∀ x ∈ message, x.err = RD_PARTITION_EOF) ∨
    ∃ m, m' = some m ∧ message = some m ∧ m.err ≠ RD_PARTITION_EOF := by
  unfold popLoop at h
  split at h
  · cases message with
    | none =>
      cases h
      exact .inl ⟨rfl, by simp⟩
    | some m =>
      by_cases heof : m.err = RD_PARTITION_EOF
      · simp only [Option.filter, heof, ne_eq, not_true_eq_false, decide_false,
          Looped.leave.injEq] at h
        exact .inl ⟨h.symm, by simpa using heof⟩
      · simp only [Option.filter, heof, ne_eq, not_false_eq_true, decide_true,
          Looped.leave.injEq] at h
        exact .inr ⟨m, h.symm, rfl, heof⟩
  · split at h
    · cases h
    · split at h
      · cases h
      · rename_i m heof
        cases h
        exact .inr ⟨m, rfl, rfl, heof⟩

end ZooKfkTopicsPop

end

/-! ## What a call comes to -/

namespace PopCall

theorem Waiting.mono {c : PopCall} {n m : Nat} (h : c.Waiting n) (hle : n ≤ m) : c.Waiting m := by
  obtain ⟨i, hs, hlt, h⟩ := h
  exact ⟨i, hs, Nat.lt_of_lt_of_le hlt hle, h⟩

theorem Ended.mono {c : PopCall} {n m : Nat} (h : c.Ended n) (hle : n ≤ m) : c.Ended m := by
  unfold Ended at h ⊢
  cases hs : c.slot with
  | refused code => simpa [hs] using h
  | outside => simpa [hs] using h
  | «at» i =>
    simp only [hs] at h ⊢
    exact ⟨Nat.lt_of_lt_of_le h.1 hle, h.2⟩

theorem Ended.at {c : PopCall} {n i : Nat} (hs : c.slot = .at i) (hlt : i < n) (h : c.Outcome) :
    c.Ended n := by
  simp only [Ended, hs]
  exact ⟨hlt, h⟩

/-- The call when its last poll has given `message`. -/
def behind (c : PopCall) (message : Option Message) (outs : Outputs) (stored : List Message)
    (ret : Int) : PopCall :=
  { c with outs, polled := c.polled ++ [message], stored, ret }

/-- Only the last poll of a call can give an error. -/
theorem Waiting.failure {c : PopCall} {n : Nat} (h : c.Waiting n) (message : Option Message)
    (outs : Outputs) (stored : List Message) (ret : Int) :
    (c.behind message outs stored ret).failure =
      match message.filter fun m => m.err ≠ 0 ∧ m.err ≠ RD_PARTITION_EOF with
      | none => none
      | some m =>
        match c.kind with
        | .consume => some m.freedErr
        | .tryConsume => some m.err := by
  obtain ⟨i, -, -, hcheck, -, -, hquiet⟩ := h
  have hnone : c.polled.findSome?
      (Option.filter fun m => m.err ≠ 0 ∧ m.err ≠ RD_PARTITION_EOF) = none := by
    rw [List.findSome?_eq_none_iff]
    intro m hm
    rw [Option.filter_eq_none_iff]
    intro x hx
    simp [hquiet m hm x hx]
  simp only [PopCall.failure, behind, hcheck, List.findSome?_append, hnone, Option.none_or,
    List.findSome?_singleton]

/-- Behind a poll that gave no message and no error. -/
theorem Waiting.nothing {c : PopCall} {n : Nat} (h : c.Waiting n) {message : Option Message}
    (hm : ∀ x ∈ message, x.err = RD_PARTITION_EOF) : (c.behind message c.outs [] 0).Outcome := by
  have hf := h.failure message c.outs [] 0
  obtain ⟨i, -, -, -, -, houts, -⟩ := h
  refine .nothing ?_ rfl houts rfl
  rw [hf]
  cases message with
  | none => rfl
  | some m => simp [Option.filter, hm m rfl]

theorem Waiting.message {c : PopCall} {n : Nat} (h : c.Waiting n) {m : Message} (hm : m.err = 0) :
    (c.behind (some m) (c.outs.assign c.key c.offset m) [m] c.success).Outcome := by
  have hf := h.failure (some m) (c.outs.assign c.key c.offset m) [m] c.success
  obtain ⟨i, -, -, -, -, houts, -⟩ := h
  refine .message m ?_ rfl ?_ rfl
  · rw [hf]
    simp [Option.filter, hm]
  · simp [behind, houts]

theorem Waiting.failed {c : PopCall} {n : Nat} (h : c.Waiting n) {m : Message} {code : Int}
    (hm : m.err ≠ 0) (heof : m.err ≠ RD_PARTITION_EOF)
    (hcode : code = match c.kind with | .consume => m.freedErr | .tryConsume => m.err) :
    (c.behind (some m) c.outs [] code).Outcome := by
  have hf := h.failure (some m) c.outs [] code
  obtain ⟨i, -, -, -, -, houts, -⟩ := h
  refine .failed code ?_ rfl houts rfl ?_
  · rw [hf, hcode]
    cases hk : c.kind <;> simp [Option.filter, hm, heof]
  · intro hk
    have hk : c.kind = .tryConsume := hk
    simpa [hcode, hk] using hm

end PopCall

/-! ## The steps -/

theorem Delivered.congr (h : Delivered s) (hready : s'.ready = s.ready)
    (hreturned : s'.returned = s.returned) (hpolled : s'.polled = s.polled) : Delivered s' := by
  obtain ⟨htry, hconsume, hwritten, honce⟩ := h
  constructor <;> rw [hreturned]
  · exact htry
  · exact hconsume
  · exact hwritten
  · rw [hpolled, hready]
    exact honce

/-- A consumer changes that keeps its code. -/
theorem PopInv.set (hi : PopInv s) {i : Nat} {p q : ZooKfkTopicsPop}
    (hp : s.wrapper.vec[i]? = some p) (hc : q.kfkErrorCode = p.kfkErrorCode) :
    PopInv (s.set i q) where
  records := hi.records.set hp hc
  polling := by simpa [PopState.set] using hi.polling
  ready := by simpa [PopState.set] using hi.ready
  delivered := hi.delivered.congr rfl rfl rfl

theorem PopInv.init (hi : PopInv s) (consumerNum : Int32) (str topicStr groupName : Bytes)
    (env : Nat → PopEnv) :
    PopInv { s with
      wrapper := zooKfkConsumerInit kind s.wrapper consumerNum str topicStr groupName env } := by
  have hle : s.wrapper.vec.length ≤
      (zooKfkConsumerInit kind s.wrapper consumerNum str topicStr groupName env).vec.length := by
    cases kind <;> exact Wrapper.length_le_init
  refine ⟨?_, fun c hc => (hi.polling c hc).mono hle, fun c hc => (hi.ready c hc).mono hle,
    hi.delivered.congr rfl rfl rfl⟩
  cases kind with
  | ZooKfkConsumers =>
    exact hi.records.init fun i => ZooKfkTopicsPop.zookInit_kfkErrorCode _ _ _
  | kfkBors => exact hi.records.init fun i => ZooKfkTopicsPop.kfkInit_kfkErrorCode _ _ _ _
  | ZooKfkSubscribes =>
    exact hi.records.init fun i => ZooKfkTopicsPop.kfkInit_kfkErrorCode _ _ _ _

theorem consumeSlot_refused {w : Wrapper ZooKfkTopicsPop} {index : Int32} {code : Int}
    (h : consumeSlot w index = .refused code) : code < 0 := by
  unfold consumeSlot Wrapper.slot at h
  repeat' split at h
  all_goals cases h
  all_goals decide

theorem consumeSlot_at {w : Wrapper ZooKfkTopicsPop} {index : Int32} {i : Nat}
    (h : consumeSlot w index = .at i) : i < w.vec.length := by
  unfold consumeSlot at h
  repeat' split at h
  all_goals first | cases h | exact Wrapper.slot_eq_at h

/-- A call that has stored nothing is only waiting for its return. -/
theorem PopInv.wait (hi : PopInv s) {c : PopCall} (hc : c.Ended s.wrapper.vec.length)
    (hstored : c.stored = []) : PopInv { s with ready := c :: s.ready } where
  records := hi.records
  polling := hi.polling
  ready := by
    rintro d (_ | ⟨_, hd⟩)
    · exact hc
    · exact hi.ready d hd
  delivered := ⟨hi.delivered.tryConsume, hi.delivered.consume, hi.delivered.written,
    by simpa [hstored] using hi.delivered.once⟩

theorem PopInv.call (hi : PopInv s) {popKind : PopKind} {index : Int32} {out : Nat}
    {key offset : Bool} (h : s.call popKind index out key offset = some s') : PopInv s' := by
  simp only [PopState.call] at h
  split at h
  · cases h
  · cases hs : consumeSlot s.wrapper index with
    | refused code =>
      simp only [hs, Option.some.injEq] at h
      rw [← h]
      exact hi.wait ⟨consumeSlot_refused hs, rfl⟩ rfl
    | outside =>
      simp only [hs, Option.some.injEq] at h
      rw [← h]
      exact hi.wait rfl rfl
    | «at» i =>
      have hlt := consumeSlot_at hs
      simp only [hs] at h
      split at h
      · cases h
      · split at h
        · cases h
        · rename_i p hp
          cases hc : p.popCheck with
          | some code =>
            simp only [hc, Option.some.injEq] at h
            rw [← h]
            refine hi.wait ⟨hlt, ?_⟩ rfl
            by_cases h0 : code = 0
            · exact .nothing (by simp [PopCall.failure, h0]) rfl rfl h0
            · exact .failed code (by simp [PopCall.failure, h0]) rfl rfl rfl fun _ => h0
          | none =>
            simp only [hc, Option.some.injEq] at h
            rw [← h]
            refine ⟨hi.records, ?_, hi.ready,
              hi.delivered.congr rfl rfl rfl⟩
            rintro d (_ | ⟨_, hd⟩)
            · exact ⟨i, rfl, hlt, rfl, rfl, rfl, by simp⟩
            · exact hi.polling d hd

/-- The last poll of a call; what it gave is recorded. -/
theorem PopInv.endPoll (hi : PopInv s) {c : PopCall} {i : Nat} {p : ZooKfkTopicsPop}
    (hc : c ∈ s.polling) (hs : c.slot = .at i) (hp : s.wrapper.vec[i]? = some p)
    {r : ZooKfkTopicsPop × Outputs × Int} {polled message : Option Message}
    (hsame : PopState.pollMessage polled = PopState.pollMessage message)
    (hrec : (PopState.pollError i message = [] ∧ r.1.kfkErrorCode = p.kfkErrorCode) ∨
      PopState.pollError i message = [(i, r.1.kfkErrorCode)])
    (hout : (c.behind polled r.2.1 (PopState.pollMessage message) r.2.2).Outcome) :
    PopInv (s.endPoll c i r polled message) := by
  obtain ⟨j, hj, hlt, -, hstored, -, -⟩ := hi.polling c hc
  rw [hs] at hj
  cases hj
  have hbehind : { c with
      outs := r.2.1, polled := c.polled ++ [polled],
      stored := c.stored ++ PopState.pollMessage message, ret := r.2.2 } =
      c.behind polled r.2.1 (PopState.pollMessage message) r.2.2 := by
    simp [PopCall.behind, hstored]
  constructor
  · rcases hrec with ⟨hnil, hcode⟩ | hcons
    · simp only [PopState.endPoll, hnil, List.nil_append]
      exact hi.records.set hp hcode
    · simp only [PopState.endPoll, hcons, List.singleton_append]
      exact hi.records.record hp
  · intro d hd
    simpa [PopState.endPoll, PopState.set] using hi.polling d (List.mem_of_mem_erase hd)
  · intro d hd
    rcases List.mem_cons.mp hd with rfl | hd
    · rw [hbehind]
      exact .at hs (by simpa [PopState.endPoll, PopState.set] using hlt) hout
    · simpa [PopState.endPoll, PopState.set] using hi.ready d hd
  · refine ⟨hi.delivered.tryConsume, hi.delivered.consume, hi.delivered.written, ?_⟩
    simp only [PopState.endPoll, List.flatMap_cons, hstored, List.nil_append, hsame,
      List.append_assoc]
    exact hi.delivered.once.append_left _

theorem PopInv.poll (hi : PopInv s) {c : PopCall} {message : Option Message}
    (h : s.poll c message = some s') : PopInv s' := by
  unfold PopState.poll at h
  split at h
  · cases h
  · rename_i hc
    have hc : c ∈ s.polling := not_not.mp hc
    have hw := hi.polling c hc
    split at h
    · cases h
    · cases h
    · rename_i i hs
      split at h
      · cases h
      · rename_i p hp
        cases hk : c.kind with
        | consume =>
          simp only [hk] at h
          split at h
          · rename_i hagain
            cases h
            refine ⟨hi.records, ?_, hi.ready,
              hi.delivered.congr rfl rfl rfl⟩
            intro d hd
            rcases List.mem_cons.mp hd with rfl | hd
            · obtain ⟨j, hj, hlt, hcheck, hstored, houts, hquiet⟩ := hw
              refine ⟨j, hj, hlt, hcheck, hstored, houts, fun m hm => ?_⟩
              rcases List.mem_append.mp hm with hm | hm
              · exact hquiet m hm
              · rw [List.mem_singleton.mp hm]
                exact ZooKfkTopicsPop.quiet_of_again hagain
            · exact hi.polling d (List.mem_of_mem_erase hd)
          · rename_i m' hleave
            cases h
            rcases ZooKfkTopicsPop.leave_cases hleave with ⟨rfl, hquiet⟩ | ⟨m, rfl, rfl, heof⟩
            · refine hi.endPoll hc hs hp ?_ (.inl ⟨rfl, rfl⟩) (hw.nothing hquiet)
              cases message with
              | none => rfl
              | some m =>
                have hm := hquiet m rfl
                simp [PopState.pollMessage, hm, RD_PARTITION_EOF]
            · by_cases h0 : m.err = 0
              · refine hi.endPoll hc hs hp rfl (.inl ?_) ?_
                · simp [PopState.pollError, ZooKfkTopicsPop.popEnd, h0]
                · have := hw.message h0
                  simpa [ZooKfkTopicsPop.popEnd, PopState.pollMessage, h0, PopCall.success, hk]
                    using this
              · refine hi.endPoll hc hs hp rfl (.inr ?_) ?_
                · simp [PopState.pollError, ZooKfkTopicsPop.popEnd, h0, heof,
                    ZooKfkTopicsPop.setKfkErrorMessage]
                · have := hw.failed h0 heof rfl
                  simpa [ZooKfkTopicsPop.popEnd, PopState.pollMessage, h0, hk] using this
        | tryConsume =>
          simp only [hk, Option.some.injEq] at h
          rw [← h]
          cases message with
          | none => exact hi.endPoll hc hs hp rfl (.inl ⟨rfl, rfl⟩) (hw.nothing (by simp))
          | some m =>
            by_cases h0 : m.err = 0
            · refine hi.endPoll hc hs hp rfl (.inl ?_) ?_
              · simp [PopState.pollError, ZooKfkTopicsPop.tryPopEnd, h0]
              · have := hw.message h0
                simpa [ZooKfkTopicsPop.tryPopEnd, PopState.pollMessage, h0, PopCall.success, hk]
                  using this
            · by_cases heof : m.err = RD_PARTITION_EOF
              · refine hi.endPoll hc hs hp rfl (.inl ?_) ?_
                · simp [PopState.pollError, ZooKfkTopicsPop.tryPopEnd, heof, RD_PARTITION_EOF]
                · have : (c.behind (some m) c.outs [] 0).Outcome := hw.nothing (by simpa using heof)
                  simpa [ZooKfkTopicsPop.tryPopEnd, PopState.pollMessage, heof, RD_PARTITION_EOF]
                    using this
              · refine hi.endPoll hc hs hp rfl (.inr ?_) ?_
                · simp [PopState.pollError, ZooKfkTopicsPop.tryPopEnd, h0, heof,
                    ZooKfkTopicsPop.setKfkErrorMessage]
                · have := hw.failed h0 heof rfl
                  simpa [ZooKfkTopicsPop.tryPopEnd, PopState.pollMessage, h0, heof, hk] using this

/-- A call that has stored something has stored one message, and the outputs have it. -/
theorem PopCall.Ended.written {c : PopCall} {n : Nat} (h : c.Ended n) (hne : c.stored ≠ []) :
    ∃ m, c.stored = [m] ∧ c.outs = c.before.assign c.key c.offset m := by
  unfold PopCall.Ended at h
  split at h
  · exact absurd h.2 hne
  · exact absurd h hne
  · cases h.2 with
    | nothing _ hstored => exact absurd hstored hne
    | message m _ hstored houts => exact ⟨m, hstored, houts⟩
    | failed _ _ hstored => exact absurd hstored hne

/-- What a call returns is truthful exactly under the condition of its kind. -/
theorem PopInv.truthful (hi : PopInv s) {c : PopCall} {r : PopReturn} (hc : c ∈ s.ready)
    (h : s.consumeReturn c = some r) : r.call = c ∧
      (c.kind = .tryConsume → (r.TryTruthful ↔ r.TryReported)) ∧
      (c.kind = .consume → (r.ConsumeTruthful ↔ r.ConsumeReported)) := by
  have hend := hi.ready c hc
  unfold PopState.consumeReturn at h
  cases hs : c.slot with
  | refused code =>
    simp only [PopCall.Ended, hs, Option.some.injEq] at h hend
    rw [← h]
    refine ⟨rfl, fun _ => ?_, fun _ => ?_⟩
    · simp [PopReturn.TryTruthful, PopReturn.TryReported, PopCall.Failed, hs, hend.2]
      omega
    · simp [PopReturn.ConsumeTruthful, PopReturn.ConsumeReported, hs, hend.2]
      omega
  | outside =>
    simp only [hs, Option.some.injEq] at h
    rw [← h]
    simp [PopReturn.TryTruthful, PopReturn.TryReported, PopReturn.ConsumeTruthful,
      PopReturn.ConsumeReported, hs]
  | «at» i =>
    simp only [PopCall.Ended, hs] at h hend
    cases hp : s.wrapper.vec[i]? with
    | none => simp [hp] at h
    | some p =>
      have hcode : p.kfkErrorCode = s.lastError i := hi.records.codes i p hp
      simp only [hp, Zookafka.consumeReturn, Option.some.injEq] at h
      rw [← h]
      refine ⟨rfl, fun hk => ?_, fun hk => ?_⟩
      · simp only [PopReturn.TryTruthful, PopReturn.TryReported, PopCall.Failed,
          PopCall.Negative, hs]
        cases hend.2 with
        | nothing hf hstored houts hret => simp [hf, hstored, hret]
        | message m hf hstored houts hret => simp [hf, hstored, hret, PopCall.success, hk]
        | failed code hf hstored houts hret hne =>
          have := hne hk
          by_cases hneg : code < 0
          · simp [hf, hstored, hret, hneg, hcode]
            omega
          · simp [hf, hstored, hret, hneg]
      · simp only [PopReturn.ConsumeTruthful, PopReturn.ConsumeReported, PopCall.Negative, hs]
        cases hend.2 with
        | nothing hf hstored houts hret => simp [hf, hstored, hret, houts]
        | message m hf hstored houts hret => simp [hf, hstored]
        | failed code hf hstored houts hret hne =>
          by_cases hneg : code < 0
          · simp [hf, hstored, hret, hneg, hcode, houts]
            by_cases hd : c.before.data = [] <;> simp [hd]
          · simp [hf, hstored, hret, hneg, houts]
            omega

theorem PopInv.finish (hi : PopInv s) {c : PopCall} {r : PopReturn} (hc : c ∈ s.ready)
    (h : s.consumeReturn c = some r) : PopInv { s with
      outs := Function.update s.outs c.out c.outs
      ready := s.ready.erase c, returned := r :: s.returned } := by
  obtain ⟨hr, htry, hconsume⟩ := hi.truthful hc h
  refine ⟨hi.records, hi.polling, fun d hd => hi.ready d (List.mem_of_mem_erase hd), ?_, ?_, ?_, ?_⟩
  · intro q hq hk
    rcases List.mem_cons.mp hq with rfl | hq
    · exact htry (hr ▸ hk)
    · exact hi.delivered.tryConsume q hq hk
  · intro q hq hk
    rcases List.mem_cons.mp hq with rfl | hq
    · exact hconsume (hr ▸ hk)
    · exact hi.delivered.consume q hq hk
  · intro q hq hne
    rcases List.mem_cons.mp hq with rfl | hq
    · rw [hr] at hne ⊢
      exact (hi.ready c hc).written hne
    · exact hi.delivered.written q hq hne
  · -- what `c` has stored moves to the calls that have returned
    have hready : (s.ready.flatMap (·.stored)).Perm
        (c.stored ++ (s.ready.erase c).flatMap (·.stored)) :=
      (List.perm_cons_erase hc).flatMap_right _
    calc s.polled
        _ |>.Perm (s.ready.flatMap (·.stored) ++ s.returned.flatMap (·.call.stored)) :=
          hi.delivered.once
        _ |>.Perm (c.stored ++ (s.ready.erase c).flatMap (·.stored) ++
            s.returned.flatMap (·.call.stored)) := hready.append_right _
        _ |>.Perm ((s.ready.erase c).flatMap (·.stored) ++
            (c.stored ++ s.returned.flatMap (·.call.stored))) := by
          rw [← List.append_assoc]
          exact List.perm_append_comm.append_right _
        _ |>.Perm ((s.ready.erase c).flatMap (·.stored) ++
            (r :: s.returned).flatMap (·.call.stored)) := by
          rw [List.flatMap_cons, hr]

/-- Every step keeps the invariant. -/
theorem PopInv.next (hi : PopInv s) {a : PopAct} (h : s.next kind a = some s') : PopInv s' := by
  cases a with
  | init consumerNum str topicStr groupName env =>
    simp only [PopState.next, Option.some.injEq] at h
    rw [← h]
    exact hi.init consumerNum str topicStr groupName env
  | write out o =>
    simp only [PopState.next] at h
    split at h
    · cases h
    · cases h
      exact ⟨hi.records, hi.polling, hi.ready,
        hi.delivered.congr rfl rfl rfl⟩
  | call popKind index out key offset => exact hi.call h
  | poll c message => exact hi.poll h
  | finish c =>
    simp only [PopState.next] at h
    split at h
    · rename_i hc
      split at h
      · rename_i r hr
        cases h
        exact hi.finish hc hr
      · cases h
    · cases h
  | flag i change =>
    simp only [PopState.next] at h
    split at h
    · cases h
    · rename_i p hp
      split at h
      · cases h
        exact hi
      · rename_i q hq
        cases h
        have hs := hi.set hp (ZooKfkTopicsPop.flag_kfkErrorCode hq)
        exact ⟨hs.records, hs.polling, hs.ready,
          hs.delivered.congr rfl rfl rfl⟩
  | change i change env =>
    simp only [PopState.next] at h
    split at h
    · cases h
    · rename_i p hp
      split at h
      · cases h
        have hs := hi.set hp (ZooKfkTopicsPop.apply_kfkErrorCode env change)
        exact ⟨hs.records, hs.polling, hs.ready,
          hs.delivered.congr rfl rfl rfl⟩
      · cases h

end

/-- In every run: each call is truthful exactly under its condition, and each message that a poll
gave is stored by one call. -/
theorem consume_truthful (kind : PopWrapper) (s : PopState) (h : (popSystem kind).Reach s) :
    Delivered s :=
  (Sys.Reach.inv init_popInv (fun _ _ _ hi hs => hi.next hs) h).delivered

/-- One consumer of the topic `t`. -/
def oneConsumer : PopAct :=
  .init 1 [98] [116] [] fun _ => ⟨true, 1, [98], true, true, true, true, true, 1, true, 0⟩

/-- The message `m`, and the outputs when it was stored. -/
def messageM : Message := ⟨0, [], some [116], [109], [], 7, 0⟩
def outputsM : Outputs := ⟨[116], [109], [], 7⟩

/-- A call of either kind that polls `message`, with the outputs before and behind it. -/
def consumeRun (kind : PopKind) (message : Message) (before outs : Outputs) (stored : List Message)
    (ret : Int) : List PopAct :=
  [.call kind 0 0 true true,
    .poll ⟨kind, 0, true, true, .at 0, none, before, before, [], [], 0⟩ message,
    .finish ⟨kind, 0, true, true, .at 0, none, before, outs, [some message], stored, ret⟩]

/-- A message, and then an error that the second call reports. -/
def messageThenError : List PopAct :=
  oneConsumer :: consumeRun .consume messageM outputs0 outputsM [messageM] 0 ++
    consumeRun .tryConsume ⟨-195, [], none, [], [], 0, -195⟩ outputsM outputsM [] (-195)

theorem consume_truthful_messageThenError : ∃ s, (popSystem .ZooKfkSubscribes).run
    (popSystem .ZooKfkSubscribes).init messageThenError = some s ∧ s.returned.length = 2 ∧
    Delivered s :=
  ⟨_, rfl, rfl, consume_truthful .ZooKfkSubscribes _ (Sys.Reach.init.run messageThenError rfl)⟩

/-- A message, then `zooKfkConsumerDestroy`, then a call that is refused. -/
def messageThenDestroy : List PopAct :=
  oneConsumer :: consumeRun .consume messageM outputs0 outputsM [messageM] 0 ++
    [.flag 0 .destroy, .call .consume 0 0 true true,
      .finish ⟨.consume, 0, true, true, .at 0, some MODULE_RECV_EXIT_COMMND, outputsM, outputsM,
        [], [], MODULE_RECV_EXIT_COMMND⟩]

/-- The refused call returns 0, and the string still has the message of the call before. -/
theorem refused_consume_success : ¬ ∀ kind s, (popSystem kind).Reach s → ∀ r ∈ s.returned,
    (r.call.kind = .tryConsume → r.TryTruthful) ∧ (r.call.kind = .consume → r.ConsumeTruthful) := by
  intro h
  obtain ⟨s, hrun⟩ : ∃ s, (popSystem .ZooKfkSubscribes).run (popSystem .ZooKfkSubscribes).init
      messageThenDestroy = some s := ⟨_, rfl⟩
  have hr := h .ZooKfkSubscribes s (Sys.Reach.init.run _ hrun)
  cases hrun
  obtain ⟨value, hv, himp⟩ := (hr _ (.head _)).2 rfl
  cases hv
  exact absurd rfl (himp (by decide) (by decide))

/-- `tryConsume` hands on a positive code as it is: 3 is an unknown topic. -/
example : ((popSystem .ZooKfkSubscribes).run (popSystem .ZooKfkSubscribes).init
    (oneConsumer :: consumeRun .tryConsume ⟨3, [], none, [], [], 0, 3⟩ outputs0 outputs0 [] 3)).map
    (fun s => s.returned.map (·.value)) = some [some 3] := rfl

end Zookafka
end CmakeFrame
