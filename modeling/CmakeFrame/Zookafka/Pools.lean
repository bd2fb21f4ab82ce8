import CmakeFrame.Zookafka.Subscription
import CmakeFrame.Zookafka.ZooKfkTopicsPush

/-!
# The vectors of the wrappers, behind any initialisation

`ZooKfkConsumers`, `ZooKfkSubscribes`, `ZooKfkProducers` and `ZooKfkGenerators` keep the number that
was asked for, and a vector of the objects that could be set up. Loops and indices go by the number,
and only an empty vector is looked for. The calls come one after another here.

* `Access`: an access to an element. `Wrapper.each`, `Wrapper.eachUntil`: the loops over the objects.
* `Called`: what a call leaves behind, with its accesses; one function for each call.
* `popPoolSystem`, `pushPoolSystem`: any calls in any order, up to the destructor.
* `PopCovered`, `PushCovered`: the conditions on a call; `pools_inside`: for all calls.
* `partial_init_outside`: two objects are asked for, and one can be set up.
-/

namespace CmakeFrame
namespace Zookafka

open Lib

/-! ## Accesses -/

/-- `vec[index]`, of a vector with `size` elements. -/
structure Access where
  index : Int
  size : Nat
  deriving DecidableEq, Repr

def Access.Inside (a : Access) : Prop := 0 ≤ a.index ∧ a.index < a.size

instance (a : Access) : Decidable a.Inside := inferInstanceAs (Decidable (_ ∧ _))

/-- What a call leaves behind. A call that reads outside of the vector ends there. -/
structure Called (π : Type) where
  wrapper : Wrapper π
  ret : Int
  accesses : List Access
  deriving DecidableEq, Repr

def Called.Inside {π : Type} (r : Called π) : Prop := ∀ a ∈ r.accesses, a.Inside

namespace Wrapper

variable {π : Type}

def access (w : Wrapper π) (index : Int) : Access := ⟨index, w.vec.length⟩

/-- The rest of a loop over the objects, with `n` turns to go from turn `i` on. `next` is what a turn
does with `ret`. -/
def each (call : π → π) (next : Int → Int) : Wrapper π → (n i : Nat) → Int → Called π
  | w, 0, _, ret => ⟨w, ret, []⟩
  | w, n + 1, i, ret =>
    if w.vec = [] then each call next w n (i + 1) KAFKA_UNHAPPEN_ERRPR
    else match w.vec[i]? with
      | none => ⟨w, ret, [w.access i]⟩
      | some p =>
        let r := each call next (w.set i (call p)) n (i + 1) (next ret)
        { r with accesses := w.access i :: r.accesses }

/-- The same for a loop that a negative result ends. -/
def eachUntil (call : Nat → π → π × Int) : Wrapper π → (n i : Nat) → Int → Called π
  | w, 0, _, ret => ⟨w, ret, []⟩
  | w, n + 1, i, ret =>
    if w.vec = [] then eachUntil call w n (i + 1) KAFKA_UNHAPPEN_ERRPR
    else match w.vec[i]? with
      | none => ⟨w, ret, [w.access i]⟩
      | some p =>
        match call i p with
        | (p, ret) =>
          if ret < 0 then ⟨w.set i p, ret, [w.access i]⟩
          else
            let r := eachUntil call (w.set i p) n (i + 1) ret
            { r with accesses := w.access i :: r.accesses }

/-- The loop of a destructor that does not look whether the vector is empty. -/
def resetAll (w : Wrapper π) : (n i : Nat) → List Access
  | 0, _ => []
  | n + 1, i => if i < w.vec.length then w.access i :: resetAll w n (i + 1) else [w.access i]

/-- The number of turns of a loop. -/
def turns (w : Wrapper π) : Nat := w.num.toInt.toNat

/-- All objects that were asked for are in the vector, or none is. -/
def Whole (w : Wrapper π) : Prop := w.vec = [] ∨ w.turns ≤ w.vec.length

/-- One of the objects gives a negative result. -/
def Stops (call : Nat → π → π × Int) (w : Wrapper π) : Prop :=
  ∃ i < w.vec.length, ∃ p ∈ w.vec[i]?, (call i p).2 < 0

instance (w : Wrapper π) : Decidable w.Whole := inferInstanceAs (Decidable (_ ∨ _))
instance (call : Nat → π → π × Int) (w : Wrapper π) : Decidable (w.Stops call) :=
  inferInstanceAs (Decidable (∃ i < _, ∃ p ∈ _, _))

end Wrapper

/-! ## The calls of the consumers -/

namespace ZooKfkTopicsPop

/-- `pop` and `tryPop`, with the message that they have got. -/
def popOne (p : ZooKfkTopicsPop) (kind : PopKind) (o : Outputs) (key offset : Bool)
    (message : Option Message) : ZooKfkTopicsPop × Outputs × Int :=
  match p.popCheck with
  | some code => (p, o, code)
  | none =>
    match kind with
    | .consume => p.popEnd o key offset message
    | .tryConsume => p.tryPopEnd o key offset message

end ZooKfkTopicsPop

section

variable (w : Wrapper ZooKfkTopicsPop)

def zooKfkConsumerStart (topic : Bytes) (env : Nat → ChangeEnv) : Called ZooKfkTopicsPop :=
  w.eachUntil (fun i p => p.consumeStart topic (env i)) w.turns 0 KAFKA_NO_INIT_ALREADY

def zooKfkConsumerStop (topic : Bytes) (env : Nat → ChangeEnv) : Called ZooKfkTopicsPop :=
  w.eachUntil (fun i p => p.consumeStop topic (env i)) w.turns 0 KAFKA_NO_INIT_ALREADY

/-- The callback is no part of the model of a consumer. -/
def ZooKfkConsumers.setBrokersChangeCall : Called ZooKfkTopicsPop :=
  w.each id id w.turns 0 KAFKA_NO_INIT_ALREADY

/-- It returns nothing. -/
def zooKfkConsumerDestroy : Called ZooKfkTopicsPop :=
  w.each (fun p => p.kfkDestroyFlag.kfkDestroy) id w.turns 0 0

/-- `consume` and `tryConsume`: the outputs and `errorMsg` stand behind the call. -/
def consume (kind : PopKind) (index : Int32) (o : Outputs) (key offset : Bool)
    (message : Option Message) : Called ZooKfkTopicsPop × Outputs × Option Bytes :=
  match consumeSlot w index with
  | .refused code => (⟨w, code, []⟩, o, none)
  | .outside => (⟨w, 0, [w.access index.toInt]⟩, o, none)
  | .at i =>
    match w.vec[i]? with
    | none => (⟨w, 0, [w.access i]⟩, o, none)
    | some p =>
      match p.popOne kind o key offset message with
      | (p, o, ret) =>
        (⟨w.set i p, (consumeReturn p ret).1, [w.access i]⟩, o, (consumeReturn p ret).2)

/-- The destructor of `ZooKfkConsumers` and `ZooKfkSubscribes`. -/
def ZooKfkConsumers.destructor : Called ZooKfkTopicsPop := ⟨⟨w.num, []⟩, 0, w.resetAll w.turns 0⟩

end

/-! ## The calls of the producers -/

section

variable (w : Wrapper ZooKfkTopicsPush)

/-- The three loops over the producers that set a callback count in `ret`. -/
def setMsgPushErrorCall : Called ZooKfkTopicsPush :=
  w.each id (· + 1) w.turns 0 KAFKA_NO_INIT_ALREADY

def ZooKfkProducers.setBrokersChangeCall : Called ZooKfkTopicsPush := setMsgPushErrorCall w

def setMsgPushCallBack : Called ZooKfkTopicsPush := setMsgPushErrorCall w

/-- `addProducerTopic`, and `addGereratorsTopic` of `ZooKfkGenerators`. -/
def addProducerTopic (topic : Bytes) (env : Nat → TopicNew) : Called ZooKfkTopicsPush :=
  w.eachUntil (fun i p => p.producerAddTopic topic (env i)) w.turns 0 KAFKA_NO_INIT_ALREADY

def zooKfkProducersDestroy : Called ZooKfkTopicsPush :=
  w.each (fun p => p.kfkDestroyFlag.kfkDestroy) id w.turns 0 0

/-- `sunindex` -/
def sunindex (lastIndex : UInt32) : Int32 := (lastIndex % w.num.toUInt32).toInt32

/-- The call, `errorMsg` and the next `lastIndex`. While the queue stays full the call has not
returned, and there is no `ret`. -/
def psuhKfkMsg (lastIndex : UInt32) (topic msg : Bytes) (outcomes : List Produce) (outqLen : Nat) :
    Called ZooKfkTopicsPush × Option Bytes × UInt32 :=
  match psuhSlot w lastIndex with
  | (.refused code, next) => (⟨w, code, []⟩, none, next)
  | (.outside, next) => (⟨w, 0, [w.access (sunindex w lastIndex).toInt]⟩, none, next)
  | (.at i, next) =>
    match w.vec[i]? with
    | none => (⟨w, 0, [w.access i]⟩, none, next)
    | some p =>
      match p.push topic msg outcomes outqLen with
      | none => (⟨w, 0, [w.access i]⟩, none, next)
      | some (p, ret) =>
        (⟨w.set i p, (psuhReturn p ret).1, [w.access i]⟩, (psuhReturn p ret).2, next)

/-- `bolckFlush` changes no producer. -/
def produceFlush (index : Int32) : Called ZooKfkTopicsPush :=
  if w.vec = [] then ⟨w, KAFKA_NO_INIT_ALREADY, []⟩ else ⟨w, 0, [w.access index.toInt]⟩

/-- The destructor of `ZooKfkProducers` and `ZooKfkGenerators`. -/
def ZooKfkProducers.destructor : Called ZooKfkTopicsPush :=
  ⟨⟨w.num, []⟩, 0, (w.each id id w.turns 0 0).accesses⟩

end

/-! ## Any calls -/

/-- A wrapper until its destructor. `accesses` is history. -/
structure Pool (π : Type) where
  wrapper : Wrapper π
  lastIndex : UInt32
  alive : Bool
  accesses : List Access
  deriving DecidableEq, Repr

namespace Pool

variable {π : Type}

def empty : Pool π := ⟨Wrapper.empty, 0, true, []⟩

/-- A call has returned. -/
def after (s : Pool π) (r : Called π) : Pool π :=
  { s with wrapper := r.wrapper, accesses := r.accesses ++ s.accesses }

/-- All accesses so far were within the vector. -/
def Inside (s : Pool π) : Prop := ∀ a ∈ s.accesses, a.Inside

end Pool

inductive PopPoolAct where
  | init (kind : PopWrapper) (consumerNum : Int32) (str topicStr groupName : Bytes)
      (env : Nat → PopEnv)
  | zooKfkConsumerStart (topic : Bytes) (env : Nat → ChangeEnv)
  | zooKfkConsumerStop (topic : Bytes) (env : Nat → ChangeEnv)
  | setBrokersChangeCall
  | consume (kind : PopKind) (index : Int32) (o : Outputs) (key offset : Bool)
      (message : Option Message)
  | zooKfkConsumerDestroy
  | destructor

inductive PushPoolAct where
  | init (kind : PushWrapper) (produceNum : Int32) (str topicStr : Bytes) (env : Nat → PushEnv)
  | setMsgPushErrorCall
  | setBrokersChangeCall
  | setMsgPushCallBack
  | addProducerTopic (topic : Bytes) (env : Nat → TopicNew)
  | psuhKfkMsg (topic msg : Bytes) (outcomes : List Produce) (outqLen : Nat)
  | produceFlush (index : Int32)
  | zooKfkProducersDestroy
  | destructor

def Pool.popStep (s : Pool ZooKfkTopicsPop) : PopPoolAct → Pool ZooKfkTopicsPop
  | .init kind consumerNum str topicStr groupName env =>
    { s with wrapper := zooKfkConsumerInit kind s.wrapper consumerNum str topicStr groupName env }
  | .zooKfkConsumerStart topic env => s.after (Zookafka.zooKfkConsumerStart s.wrapper topic env)
  | .zooKfkConsumerStop topic env => s.after (Zookafka.zooKfkConsumerStop s.wrapper topic env)
  | .setBrokersChangeCall => s.after (ZooKfkConsumers.setBrokersChangeCall s.wrapper)
  | .consume kind index o key offset message =>
    s.after (Zookafka.consume s.wrapper kind index o key offset message).1
  | .zooKfkConsumerDestroy => s.after (Zookafka.zooKfkConsumerDestroy s.wrapper)
  | .destructor => { s.after (ZooKfkConsumers.destructor s.wrapper) with alive := false }

def Pool.pushStep (s : Pool ZooKfkTopicsPush) : PushPoolAct → Pool ZooKfkTopicsPush
  | .init kind produceNum str topicStr env =>
    { s with wrapper := zooKfkProducersInit kind s.wrapper produceNum str topicStr env }
  | .setMsgPushErrorCall => s.after (Zookafka.setMsgPushErrorCall s.wrapper)
  | .setBrokersChangeCall => s.after (ZooKfkProducers.setBrokersChangeCall s.wrapper)
  | .setMsgPushCallBack => s.after (Zookafka.setMsgPushCallBack s.wrapper)
  | .addProducerTopic topic env => s.after (Zookafka.addProducerTopic s.wrapper topic env)
  | .psuhKfkMsg topic msg outcomes outqLen =>
    match Zookafka.psuhKfkMsg s.wrapper s.lastIndex topic msg outcomes outqLen with
    | (r, _, lastIndex) => { s.after r with lastIndex }
  | .produceFlush index => s.after (Zookafka.produceFlush s.wrapper index)
  | .zooKfkProducersDestroy => s.after (Zookafka.zooKfkProducersDestroy s.wrapper)
  | .destructor => { s.after (ZooKfkProducers.destructor s.wrapper) with alive := false }

/-- Calls one after another, until the destructor. -/
def poolSystem {π α : Type} (step : Pool π → α → Pool π) : Sys (Pool π) α where
  init := .empty
  next s a := if s.alive then some (step s a) else none

/-- `ZooKfkConsumers` or `ZooKfkSubscribes`, which differ in their init functions only. -/
def popPoolSystem : Sys (Pool ZooKfkTopicsPop) PopPoolAct := poolSystem Pool.popStep

/-- `ZooKfkProducers` or `ZooKfkGenerators`. -/
def pushPoolSystem : Sys (Pool ZooKfkTopicsPush) PushPoolAct := poolSystem Pool.pushStep

/-! ## The conditions -/

/-- What the init function of a wrapper makes of object `i`. -/
def PopWrapper.create (kind : PopWrapper) (str topicStr groupName : Bytes) (env : Nat → PopEnv)
    (i : Nat) : ZooKfkTopicsPop × Int :=
  match kind with
  | .ZooKfkConsumers => ZooKfkTopicsPop.new.zookInit topicStr groupName (env i)
  | .kfkBors | .ZooKfkSubscribes => ZooKfkTopicsPop.new.kfkInit str topicStr groupName (env i)

def PushWrapper.create (kind : PushWrapper) (str topicStr : Bytes) (env : Nat → PushEnv) (i : Nat) :
    ZooKfkTopicsPush × Int :=
  match kind with
  | .ZooKfkProducers => ZooKfkTopicsPush.new.zookInit topicStr (env i)
  | .ZooKfkGenerators => ZooKfkTopicsPush.new.kfkInit str topicStr (env i)

/-- All of `num` objects can be set up, or the first one cannot. -/
def AllOrNone {π : Type} (num : Int32) (new : Nat → π × Int) : Prop :=
  (∀ i < num.toInt.toNat, 0 ≤ (new i).2) ∨ (new 0).2 < 0

instance {π : Type} (num : Int32) (new : Nat → π × Int) : Decidable (AllOrNone num new) :=
  inferInstanceAs (Decidable ((∀ i < _, _) ∨ _))

/-- The condition on a call: for a loop the vector is whole, or an object ends the loop before its
end is reached; an index is one of the vector, or is refused; and the destructor finds all objects. -/
def PopCovered (s : Pool ZooKfkTopicsPop) : PopPoolAct → Prop
  | .init _ _ _ _ _ _ => True
  | .zooKfkConsumerStart topic env =>
    s.wrapper.Whole ∨ s.wrapper.Stops fun i p => p.consumeStart topic (env i)
  | .zooKfkConsumerStop topic env =>
    s.wrapper.Whole ∨ s.wrapper.Stops fun i p => p.consumeStop topic (env i)
  | .setBrokersChangeCall | .zooKfkConsumerDestroy => s.wrapper.Whole
  | .consume _ index _ _ _ _ => s.wrapper.num ≤ index ∨ s.wrapper.vec = [] ∨
      0 ≤ index.toInt ∧ index.toInt < s.wrapper.vec.length
  | .destructor => s.wrapper.turns ≤ s.wrapper.vec.length

def PushCovered (s : Pool ZooKfkTopicsPush) : PushPoolAct → Prop
  | .init _ _ _ _ _ => True
  | .setMsgPushErrorCall | .setBrokersChangeCall | .setMsgPushCallBack
  | .zooKfkProducersDestroy | .destructor => s.wrapper.Whole
  | .addProducerTopic topic env =>
    s.wrapper.Whole ∨ s.wrapper.Stops fun i p => p.producerAddTopic topic (env i)
  | .psuhKfkMsg _ _ _ _ => s.wrapper.num = 0 ∨ s.wrapper.vec = [] ∨
      (s.lastIndex % s.wrapper.num.toUInt32).toNat < s.wrapper.vec.length
  | .produceFlush index => s.wrapper.vec = [] ∨
      0 ≤ index.toInt ∧ index.toInt < s.wrapper.vec.length

/-- The condition on what the caller does: all objects can be set up or none, an index is not
negative, and the destructor is not reached when there is none. -/
def PopComplete (s : Pool ZooKfkTopicsPop) : PopPoolAct → Prop
  | .init kind consumerNum str topicStr groupName env =>
    AllOrNone consumerNum (kind.create str topicStr groupName env)
  | .consume _ index _ _ _ _ => 0 ≤ index.toInt
  | .destructor => s.wrapper.vec ≠ [] ∨ s.wrapper.turns = 0
  | .zooKfkConsumerStart _ _ | .zooKfkConsumerStop _ _ | .setBrokersChangeCall
  | .zooKfkConsumerDestroy => True

/-- The index of `produceFlush` is below the number as well. -/
def PushComplete (s : Pool ZooKfkTopicsPush) : PushPoolAct → Prop
  | .init kind produceNum str topicStr env => AllOrNone produceNum (kind.create str topicStr env)
  | .produceFlush index => s.wrapper.vec = [] ∨
      0 ≤ index.toInt ∧ index.toInt < s.wrapper.num.toInt
  | .setMsgPushErrorCall | .setBrokersChangeCall | .setMsgPushCallBack | .addProducerTopic _ _
  | .psuhKfkMsg _ _ _ _ | .zooKfkProducersDestroy | .destructor => True

instance (s : Pool ZooKfkTopicsPop) (a : PopPoolAct) : Decidable (PopCovered s a) := by
  cases a <;> unfold PopCovered <;> infer_instance

instance (s : Pool ZooKfkTopicsPush) (a : PushPoolAct) : Decidable (PushCovered s a) := by
  cases a <;> unfold PushCovered <;> infer_instance

instance (s : Pool ZooKfkTopicsPop) (a : PopPoolAct) : Decidable (PopComplete s a) := by
  cases a <;> unfold PopComplete <;> infer_instance

instance (s : Pool ZooKfkTopicsPush) (a : PushPoolAct) : Decidable (PushComplete s a) := by
  cases a <;> unfold PushComplete <;> infer_instance

/-- All accesses of the calls are within the vector exactly when each call meets `covered`;
`complete` is enough. -/
structure InsideExactly {π α : Type} (S : Sys (Pool π) α) (covered complete : Pool π → α → Prop)
    [∀ s a, Decidable (covered s a)] [∀ s a, Decidable (complete s a)] (calls : List α) : Prop where
  exact : ∀ s, S.run S.init calls = some s →
    (s.Inside ↔ (S.only covered).run S.init calls = some s)
  complete : ∀ s, (S.only complete).run S.init calls = some s → s.Inside

/-! ## The loops -/

namespace Wrapper

variable {π : Type} {w : Wrapper π}

@[simp] theorem access_inside {index : Int} :
    (w.access index).Inside ↔ 0 ≤ index ∧ index < w.vec.length :=
  Iff.rfl

theorem access_inside_of_some {i : Nat} {p : π} (h : w.vec[i]? = some p) : (w.access i).Inside := by
  have hlt := (List.getElem?_eq_some_iff.mp h).1
  rw [access_inside]
  omega

theorem access_outside_of_none {i : Nat} (h : w.vec[i]? = none) : ¬ (w.access i).Inside := by
  have hle := List.getElem?_eq_none_iff.mp h
  rw [access_inside]
  omega

theorem set_vec_ne_nil (h : w.vec ≠ []) (i : Nat) (p : π) : (w.set i p).vec ≠ [] := by
  rw [← List.length_pos_iff] at h ⊢
  rwa [length_set]

theorem each_inside_iff {call : π → π} {next : Int → Int} {n i : Nat} {ret : Int} :
    (w.each call next n i ret).Inside ↔ w.vec = [] ∨ n = 0 ∨ i + n ≤ w.vec.length := by
  induction n generalizing w i ret with
  | zero => simp [each, Called.Inside]
  | succ n ih =>
    rw [each]
    by_cases hnil : w.vec = []
    · rw [if_pos hnil, ih]
      simp [hnil]
    · rw [if_neg hnil]
      cases hp : w.vec[i]? with
      | none =>
        have hlen := List.getElem?_eq_none_iff.mp hp
        refine iff_of_false (fun h => access_outside_of_none hp (h _ (.head _))) ?_
        simp only [hnil, false_or]
        omega
      | some p =>
        have hlt := (List.getElem?_eq_some_iff.mp hp).1
        have hin := access_inside_of_some hp
        have hrest := @ih (w.set i (call p)) (i + 1) (next ret)
        simp only [Called.Inside, List.forall_mem_cons, hin, true_and]
        rw [Called.Inside] at hrest
        rw [hrest, length_set]
        simp only [set_vec_ne_nil hnil, hnil, false_or]
        omega

/-- A turn that does not end the loop leaves the objects behind it as they are. -/
theorem stops_set_iff {call : Nat → π → π × Int} {i : Nat} {p q : π} (hp : w.vec[i]? = some p)
    (hneg : ¬ (call i p).2 < 0) :
    (∃ j, i + 1 ≤ j ∧ ∃ r, (w.set i q).vec[j]? = some r ∧ (call j r).2 < 0) ↔
      ∃ j, i ≤ j ∧ ∃ r, w.vec[j]? = some r ∧ (call j r).2 < 0 := by
  constructor
  · rintro ⟨j, hj, r, hr, hstop⟩
    rw [Wrapper.set, List.getElem?_set_ne (by omega)] at hr
    exact ⟨j, by omega, r, hr, hstop⟩
  · rintro ⟨j, hj, r, hr, hstop⟩
    have hne : i ≠ j := by
      rintro rfl
      rw [hp] at hr
      cases hr
      exact hneg hstop
    refine ⟨j, by omega, r, ?_, hstop⟩
    rwa [Wrapper.set, List.getElem?_set_ne hne]

theorem eachUntil_inside_iff {call : Nat → π → π × Int} {n i : Nat} {ret : Int} :
    (w.eachUntil call n i ret).Inside ↔ w.vec = [] ∨ n = 0 ∨ i + n ≤ w.vec.length ∨
      ∃ j, i ≤ j ∧ ∃ p, w.vec[j]? = some p ∧ (call j p).2 < 0 := by
  induction n generalizing w i ret with
  | zero => simp [eachUntil, Called.Inside]
  | succ n ih =>
    rw [eachUntil]
    by_cases hnil : w.vec = []
    · rw [if_pos hnil, ih]
      simp [hnil]
    · rw [if_neg hnil]
      cases hp : w.vec[i]? with
      | none =>
        have hlen := List.getElem?_eq_none_iff.mp hp
        refine iff_of_false (fun h => access_outside_of_none hp (h _ (.head _))) ?_
        rintro (h | h | h | ⟨j, hj, p, hget, -⟩)
        · exact hnil h
        · omega
        · omega
        · have := (List.getElem?_eq_some_iff.mp hget).1
          omega
      | some p =>
        have hlt := (List.getElem?_eq_some_iff.mp hp).1
        have hin := access_inside_of_some hp
        by_cases hneg : (call i p).2 < 0
        · simp only [hneg, if_true]
          refine iff_of_true ?_ (.inr (.inr (.inr ⟨i, le_rfl, p, hp, hneg⟩)))
          simpa [Called.Inside] using hin
        · have hrest := @ih (w.set i (call i p).1) (i + 1) (call i p).2
          simp only [hneg, if_false, Called.Inside, List.forall_mem_cons, hin, true_and]
          rw [Called.Inside] at hrest
          rw [hrest, length_set]
          simp only [set_vec_ne_nil hnil, hnil, false_or]
          have hturns : (n = 0 ∨ i + 1 + n ≤ w.vec.length) ↔
              (n + 1 = 0 ∨ i + (n + 1) ≤ w.vec.length) := by omega
          rw [stops_set_iff hp hneg, ← or_assoc, hturns, or_assoc]

theorem resetAll_inside_iff {n i : Nat} :
    (∀ a ∈ w.resetAll n i, a.Inside) ↔ n = 0 ∨ i + n ≤ w.vec.length := by
  induction n generalizing i with
  | zero => simp [resetAll]
  | succ n ih =>
    rw [resetAll]
    split
    · rw [List.forall_mem_cons, ih, access_inside]
      omega
    · rw [List.forall_mem_singleton, access_inside]
      omega

theorem each_whole_iff {call : π → π} {next : Int → Int} {ret : Int} :
    (w.each call next w.turns 0 ret).Inside ↔ w.Whole := by
  have hturns : (w.turns = 0 ∨ 0 + w.turns ≤ w.vec.length) ↔ w.turns ≤ w.vec.length := by omega
  rw [each_inside_iff, hturns, Whole]

theorem eachUntil_whole_iff {call : Nat → π → π × Int} {ret : Int} :
    (w.eachUntil call w.turns 0 ret).Inside ↔ w.Whole ∨ w.Stops call := by
  have hstops : w.Stops call ↔ ∃ j, 0 ≤ j ∧ ∃ p, w.vec[j]? = some p ∧ (call j p).2 < 0 := by
    constructor
    · rintro ⟨j, -, p, hp, hneg⟩
      exact ⟨j, Nat.zero_le j, p, hp, hneg⟩
    · rintro ⟨j, -, p, hp, hneg⟩
      exact ⟨j, (List.getElem?_eq_some_iff.mp hp).1, p, hp, hneg⟩
  have hturns : (w.turns = 0 ∨ 0 + w.turns ≤ w.vec.length) ↔ w.turns ≤ w.vec.length := by omega
  rw [eachUntil_inside_iff, hstops, Whole, ← or_assoc (a := w.turns = 0), hturns, or_assoc]

end Wrapper

/-! ## One call -/

theorem consume_inside_iff {w : Wrapper ZooKfkTopicsPop} {kind : PopKind} {index : Int32}
    {o : Outputs} {key offset : Bool} {message : Option Message} :
    (consume w kind index o key offset message).1.Inside ↔
      w.num ≤ index ∨ w.vec = [] ∨ 0 ≤ index.toInt ∧ index.toInt < w.vec.length := by
  rw [consume, consumeSlot]
  by_cases hnum : w.num ≤ index
  · simp [hnum, Called.Inside]
  · by_cases hnil : w.vec = []
    · simp [hnum, hnil, Called.Inside]
    · have hneg : index < 0 ↔ index.toInt < 0 := Int32.lt_iff_toInt_lt
      rw [if_neg hnum, if_neg hnil]
      by_cases hindex : index < 0
      · simp only [hindex, if_true, Called.Inside, List.forall_mem_singleton, Wrapper.access_inside,
          hnum, hnil, false_or]
      · rw [if_neg hindex, Wrapper.slot]
        have hindex : 0 ≤ index.toInt := not_lt.mp (hneg.not.mp hindex)
        by_cases hlt : index.toInt.toNat < w.vec.length
        · rw [if_pos hlt]
          obtain ⟨p, hp⟩ : ∃ p, w.vec[index.toInt.toNat]? = some p :=
            ⟨_, List.getElem?_eq_getElem hlt⟩
          simp only [hp, Called.Inside, List.forall_mem_singleton, Wrapper.access_inside, hnum, hnil,
            false_or]
          omega
        · rw [if_neg hlt]
          simp only [Called.Inside, List.forall_mem_singleton, Wrapper.access_inside, hnum, hnil,
            false_or]

theorem psuhKfkMsg_inside_iff {w : Wrapper ZooKfkTopicsPush} {lastIndex : UInt32}
    {topic msg : Bytes} {outcomes : List Produce} {outqLen : Nat} :
    (psuhKfkMsg w lastIndex topic msg outcomes outqLen).1.Inside ↔
      w.num = 0 ∨ w.vec = [] ∨ (lastIndex % w.num.toUInt32).toNat < w.vec.length := by
  rw [psuhKfkMsg, psuhSlot]
  by_cases hnum : w.num = 0
  · simp [hnum, Called.Inside]
  · by_cases hnil : w.vec = []
    · simp [hnum, hnil, Called.Inside]
    · rw [if_neg hnum, if_neg hnil, Wrapper.slot]
      by_cases hlt : (lastIndex % w.num.toUInt32).toNat < w.vec.length
      · simp only [if_pos hlt]
        obtain ⟨p, hp⟩ : ∃ p, w.vec[(lastIndex % w.num.toUInt32).toNat]? = some p :=
          ⟨_, List.getElem?_eq_getElem hlt⟩
        refine iff_of_true ?_ (.inr (.inr hlt))
        have hin := Wrapper.access_inside_of_some hp
        simp only [hp]
        cases p.push topic msg outcomes outqLen <;>
          exact fun a ha => List.mem_singleton.mp ha ▸ hin
      · rw [if_neg hlt]
        simp only [Called.Inside, List.forall_mem_singleton, Wrapper.access_inside, hnum, hnil, hlt,
          false_or, iff_false]
        -- the index as an `int` is the same number, or a negative one
        have hint : (sunindex w lastIndex).toInt =
            ((lastIndex % w.num.toUInt32).toNat : Int).bmod (2 ^ 32) :=
          (lastIndex % w.num.toUInt32).toBitVec.toInt_eq_toNat_bmod
        have hbound := (lastIndex % w.num.toUInt32).toNat_lt
        rw [hint, Int.bmod]
        omega

/-! ## One step -/

theorem Pool.after_inside_iff {π : Type} {s : Pool π} {r : Called π} :
    (s.after r).Inside ↔ r.Inside ∧ s.Inside := by
  simp only [Pool.Inside, Pool.after, List.forall_mem_append, Called.Inside]

theorem popStep_inside_iff {s : Pool ZooKfkTopicsPop} {a : PopPoolAct} :
    (s.popStep a).Inside ↔ PopCovered s a ∧ s.Inside := by
  cases a with
  | init => exact (and_iff_right trivial).symm
  | zooKfkConsumerStart topic env =>
    exact Pool.after_inside_iff.trans (and_congr_left' Wrapper.eachUntil_whole_iff)
  | zooKfkConsumerStop topic env =>
    exact Pool.after_inside_iff.trans (and_congr_left' Wrapper.eachUntil_whole_iff)
  | setBrokersChangeCall =>
    exact Pool.after_inside_iff.trans (and_congr_left' Wrapper.each_whole_iff)
  | consume kind index o key offset message =>
    exact Pool.after_inside_iff.trans (and_congr_left' consume_inside_iff)
  | zooKfkConsumerDestroy =>
    exact Pool.after_inside_iff.trans (and_congr_left' Wrapper.each_whole_iff)
  | destructor =>
    refine (Pool.after_inside_iff (r := ZooKfkConsumers.destructor s.wrapper)).trans
      (and_congr_left' ?_)
    rw [Called.Inside, ZooKfkConsumers.destructor, Wrapper.resetAll_inside_iff, PopCovered]
    omega

theorem pushStep_inside_iff {s : Pool ZooKfkTopicsPush} {a : PushPoolAct} :
    (s.pushStep a).Inside ↔ PushCovered s a ∧ s.Inside := by
  cases a with
  | init => exact (and_iff_right trivial).symm
  | setMsgPushErrorCall =>
    exact Pool.after_inside_iff.trans (and_congr_left' Wrapper.each_whole_iff)
  | setBrokersChangeCall =>
    exact Pool.after_inside_iff.trans (and_congr_left' Wrapper.each_whole_iff)
  | setMsgPushCallBack =>
    exact Pool.after_inside_iff.trans (and_congr_left' Wrapper.each_whole_iff)
  | addProducerTopic topic env =>
    exact Pool.after_inside_iff.trans (and_congr_left' Wrapper.eachUntil_whole_iff)
  | psuhKfkMsg topic msg outcomes outqLen =>
    exact Pool.after_inside_iff.trans (and_congr_left' psuhKfkMsg_inside_iff)
  | produceFlush index =>
    refine Pool.after_inside_iff.trans (and_congr_left' ?_)
    rw [produceFlush, PushCovered]
    by_cases hnil : s.wrapper.vec = [] <;> simp [hnil, Called.Inside]
  | zooKfkProducersDestroy =>
    exact Pool.after_inside_iff.trans (and_congr_left' Wrapper.each_whole_iff)
  | destructor =>
    exact (Pool.after_inside_iff (r := ZooKfkProducers.destructor s.wrapper)).trans
      (and_congr_left' Wrapper.each_whole_iff)

/-! ## All or none -/

namespace Wrapper

variable {π : Type} {w : Wrapper π}

/-- The vector is empty or has all objects, and without a number there are none. -/
structure Filled (w : Wrapper π) : Prop where
  whole : w.vec = [] ∨ w.vec.length = w.turns
  unset : w.num = 0 → w.vec = []

theorem length_fill {new : Nat → π × Int} {n i : Nat} {ret : Int}
    (h : ∀ j, i ≤ j → j < i + n → 0 ≤ (new j).2) : (fill new i n ret).1.length = n := by
  induction n generalizing i ret with
  | zero => rfl
  | succ n ih =>
    have hi := h i le_rfl (by omega)
    have ih : (fill new (i + 1) n (new i).2).1.length = n :=
      ih fun j hj hlt => h j (by omega) (by omega)
    rw [fill]
    simp only [if_neg (not_lt.mpr hi), List.length_cons, ih]

theorem fill_of_first {new : Nat → π × Int} (h : (new 0).2 < 0) (n : Nat) (ret : Int) :
    (fill new 0 n ret).1 = [] := by
  cases n with
  | zero => rfl
  | succ n =>
    rw [fill]
    simp only [if_pos h]

theorem Filled.init (hw : w.Filled) {num : Int32} {new : Nat → π × Int} (h : AllOrNone num new) :
    (w.init num new).1.Filled := by
  by_cases hnum : w.num = 0
  · have hnil := hw.unset hnum
    rw [Wrapper.init, if_neg (not_not.mpr hnum), hnil]
    refine ⟨?_, ?_⟩
    · rcases h with hall | hnone
      · exact .inr (length_fill fun j _ hj => hall j (by omega))
      · exact .inl (fill_of_first hnone _ _)
    · intro h0
      have h0 : num = 0 := h0
      rw [h0]
      rfl
  · rw [init_again hnum]
    exact hw

theorem Filled.congr {w' : Wrapper π} (hw : w.Filled) (hnum : w'.num = w.num)
    (hlen : w'.vec.length = w.vec.length) : w'.Filled where
  whole := by
    rw [← List.length_eq_zero_iff, hlen, List.length_eq_zero_iff, turns, hnum]
    exact hw.whole
  unset h := by
    rw [← List.length_eq_zero_iff, hlen, List.length_eq_zero_iff]
    exact hw.unset (hnum ▸ h)

theorem Filled.set (hw : w.Filled) (i : Nat) (p : π) : (w.set i p).Filled :=
  hw.congr rfl (length_set w i p)

theorem Filled.each (hw : w.Filled) {call : π → π} {next : Int → Int} {n i : Nat} {ret : Int} :
    (w.each call next n i ret).wrapper.Filled := by
  induction n generalizing w i ret with
  | zero => exact hw
  | succ n ih =>
    rw [Wrapper.each]
    split
    · exact ih hw
    · split
      · exact hw
      · exact ih (hw.set _ _)

theorem Filled.eachUntil (hw : w.Filled) {call : Nat → π → π × Int} {n i : Nat} {ret : Int} :
    (w.eachUntil call n i ret).wrapper.Filled := by
  induction n generalizing w i ret with
  | zero => exact hw
  | succ n ih =>
    rw [Wrapper.eachUntil]
    split
    · exact ih hw
    · split
      · exact hw
      · simp only
        split
        · exact hw.set _ _
        · exact ih (hw.set _ _)

theorem Filled.empty : (Wrapper.empty : Wrapper π).Filled := ⟨.inl rfl, fun _ => rfl⟩

end Wrapper

/-! ## Runs without a partial vector -/

theorem zooKfkConsumerInit_eq (kind : PopWrapper) (w : Wrapper ZooKfkTopicsPop) (num : Int32)
    (str topicStr groupName : Bytes) (env : Nat → PopEnv) :
    zooKfkConsumerInit kind w num str topicStr groupName env =
      (w.init num (kind.create str topicStr groupName env)).1 := by
  cases kind <;> rfl

theorem zooKfkProducersInit_eq (kind : PushWrapper) (w : Wrapper ZooKfkTopicsPush) (num : Int32)
    (str topicStr : Bytes) (env : Nat → PushEnv) :
    zooKfkProducersInit kind w num str topicStr env =
      (w.init num (kind.create str topicStr env)).1 := by
  cases kind <;> rfl

theorem Wrapper.Filled.isWhole {π : Type} {w : Wrapper π} (hw : w.Filled) : w.Whole :=
  hw.whole.imp_right fun h => h.ge

theorem filled_popStep {s : Pool ZooKfkTopicsPop} (hw : s.wrapper.Filled) {a : PopPoolAct}
    (h : PopComplete s a) : (s.popStep a).wrapper.Filled := by
  cases a with
  | init kind num str topicStr groupName env =>
    rw [Pool.popStep, zooKfkConsumerInit_eq]
    exact hw.init h
  | zooKfkConsumerStart topic env => exact hw.eachUntil
  | zooKfkConsumerStop topic env => exact hw.eachUntil
  | setBrokersChangeCall => exact hw.each
  | consume kind index o key offset message =>
    rw [Pool.popStep, Pool.after, Zookafka.consume]
    split
    · exact hw
    · exact hw
    · split
      · exact hw
      · exact hw.set _ _
  | zooKfkConsumerDestroy => exact hw.each
  | destructor => exact ⟨.inl rfl, fun _ => rfl⟩

theorem filled_pushStep {s : Pool ZooKfkTopicsPush} (hw : s.wrapper.Filled) {a : PushPoolAct}
    (h : PushComplete s a) : (s.pushStep a).wrapper.Filled := by
  cases a with
  | init kind num str topicStr env =>
    rw [Pool.pushStep, zooKfkProducersInit_eq]
    exact hw.init h
  | setMsgPushErrorCall => exact hw.each
  | setBrokersChangeCall => exact hw.each
  | setMsgPushCallBack => exact hw.each
  | addProducerTopic topic env => exact hw.eachUntil
  | psuhKfkMsg topic msg outcomes outqLen =>
    show (Zookafka.psuhKfkMsg s.wrapper s.lastIndex topic msg outcomes outqLen).1.wrapper.Filled
    rw [Zookafka.psuhKfkMsg]
    split
    · exact hw
    · exact hw
    · split
      · exact hw
      · split
        · exact hw
        · exact hw.set _ _
  | produceFlush index =>
    rw [Pool.pushStep, Pool.after, Zookafka.produceFlush]
    split
    · exact hw
    · exact hw
  | zooKfkProducersDestroy => exact hw.each
  | destructor => exact ⟨.inl rfl, fun _ => rfl⟩

theorem popCovered_of_complete {s : Pool ZooKfkTopicsPop} (hw : s.wrapper.Filled) {a : PopPoolAct}
    (h : PopComplete s a) : PopCovered s a := by
  cases a with
  | init => trivial
  | zooKfkConsumerStart => exact .inl hw.isWhole
  | zooKfkConsumerStop => exact .inl hw.isWhole
  | setBrokersChangeCall => exact hw.isWhole
  | consume kind index o key offset message =>
    have hindex : 0 ≤ index.toInt := h
    by_cases hnum : s.wrapper.num ≤ index
    · exact .inl hnum
    · refine .inr (hw.whole.imp_right fun hlen => ⟨hindex, ?_⟩)
      have hlt : index.toInt < s.wrapper.num.toInt :=
        not_le.mp fun hle => hnum (Int32.le_iff_toInt_le.mpr hle)
      rw [hlen, Wrapper.turns]
      omega
  | zooKfkConsumerDestroy => exact hw.isWhole
  | destructor =>
    show s.wrapper.turns ≤ s.wrapper.vec.length
    rcases h with hne | hzero
    · exact (hw.whole.resolve_left hne).ge
    · omega

/-- The index of `psuhKfkMsg` is below the number, whatever `lastIndex` is. -/
theorem roundRobin_lt {num : Int32} (h : 0 < num.toInt) (lastIndex : UInt32) :
    (lastIndex % num.toUInt32).toNat < num.toInt.toNat := by
  have hnum : num.toUInt32.toNat = num.toInt.toNat :=
    Int32.toNat_toUInt32_of_le (Int32.le_iff_toInt_le.mpr h.le)
  rw [UInt32.toNat_mod, hnum]
  exact Nat.mod_lt _ (by omega)

theorem pushCovered_of_complete {s : Pool ZooKfkTopicsPush} (hw : s.wrapper.Filled)
    {a : PushPoolAct} (h : PushComplete s a) : PushCovered s a := by
  cases a with
  | init => trivial
  | setMsgPushErrorCall => exact hw.isWhole
  | setBrokersChangeCall => exact hw.isWhole
  | setMsgPushCallBack => exact hw.isWhole
  | addProducerTopic => exact .inl hw.isWhole
  | psuhKfkMsg topic msg outcomes outqLen =>
    by_cases hnil : s.wrapper.vec = []
    · exact .inr (.inl hnil)
    · have hlen := hw.whole.resolve_left hnil
      have hpos := List.length_pos_iff.mpr hnil
      rw [hlen, Wrapper.turns] at hpos
      refine .inr (.inr ?_)
      rw [hlen]
      exact roundRobin_lt (by omega) s.lastIndex
  | produceFlush index =>
    rcases h with hnil | ⟨hle, hlt⟩
    · exact .inl hnil
    · refine hw.whole.imp_right fun hlen => ⟨hle, ?_⟩
      rw [hlen, Wrapper.turns]
      omega
  | zooKfkProducersDestroy => exact hw.isWhole
  | destructor => exact hw.isWhole

/-- From one step to every run. -/
theorem insideExactly_of_step {π α : Type} {step : Pool π → α → Pool π}
    {covered complete : Pool π → α → Prop} [∀ s a, Decidable (covered s a)]
    [∀ s a, Decidable (complete s a)]
    (hstep : ∀ s a, (step s a).Inside ↔ covered s a ∧ s.Inside)
    (hfilled : ∀ s a, s.wrapper.Filled → complete s a → (step s a).wrapper.Filled)
    (hcovered : ∀ s a, s.wrapper.Filled → complete s a → covered s a) (calls : List α) :
    InsideExactly (poolSystem step) covered complete calls := by
  have hempty : (Pool.empty : Pool π).Inside := by simp [Pool.Inside, Pool.empty]
  have hnext {s : Pool π} {a : α} {s' : Pool π} (h : (poolSystem step).next s a = some s') :
      s' = step s a :=
    (Option.some.inj (Option.ite_none_right_eq_some.mp h).2).symm
  refine ⟨fun s h => ?_, fun s h => ?_⟩
  · have hrun := Sys.run_only_iff (I := Pool.Inside) (fun s a s' hs => by
      rw [hnext hs]
      exact hstep s a) calls h
    exact hrun.trans (and_iff_left hempty)
  · refine (Sys.Reach.inv_only (I := fun s => s.wrapper.Filled ∧ s.Inside) ⟨.empty, hempty⟩
      (fun s a s' hi hc hs => ?_) (Sys.Reach.init.run calls h)).2
    rw [hnext hs]
    exact ⟨hfilled s a hi.1 hc, (hstep s a).mpr ⟨hcovered s a hi.1 hc, hi.2⟩⟩

/-- **Every access is within the vector** exactly when each call meets the condition, for all calls on
consumers and on producers. In particular it holds when each init function sets up all objects or none
and the indices are those that the wrapper was asked for. -/
theorem pools_inside (pops : List PopPoolAct) (pushes : List PushPoolAct) :
    InsideExactly popPoolSystem PopCovered PopComplete pops ∧
    InsideExactly pushPoolSystem PushCovered PushComplete pushes :=
  ⟨insideExactly_of_step (fun _ _ => popStep_inside_iff) (fun _ _ hw => filled_popStep hw)
      (fun _ _ hw => popCovered_of_complete hw) pops,
    insideExactly_of_step (fun _ _ => pushStep_inside_iff) (fun _ _ hw => filled_pushStep hw)
      (fun _ _ hw => pushCovered_of_complete hw) pushes⟩

/-! ## Two objects -/

/-- Object `i` can be set up if it is below `n`. -/
def popEnvs (n i : Nat) : PopEnv :=
  ⟨true, 1, [98], true, true, true, true, decide (i < n), 1, true, 0⟩

def pushEnvs (n i : Nat) : PushEnv := ⟨true, 1, [98], decide (i < n), 1, fun _ => .ok⟩

/-- Two consumers are asked for and `n` can be set up; then they are all used. -/
def useConsumers (n : Nat) : List PopPoolAct :=
  [.init .ZooKfkSubscribes 2 [98] [116] [] (popEnvs n),
    .consume .tryConsume 1 outputs0 true true (some messageM), .zooKfkConsumerDestroy, .destructor]

/-- The same for producers, with three messages. -/
def useProducers (n : Nat) : List PushPoolAct :=
  .init .ZooKfkGenerators 2 [98] [116] (pushEnvs n) ::
    List.replicate 3 (.psuhKfkMsg [116] [109] [.accepted] 1) ++ [.zooKfkProducersDestroy, .destructor]

/-- Both can be set up. -/
theorem pools_inside_two :
    (∃ s, (popPoolSystem.only PopComplete).run .empty (useConsumers 2) = some s ∧ s.Inside) ∧
    ∃ s, (pushPoolSystem.only PushComplete).run .empty (useProducers 2) = some s ∧ s.Inside :=
  ⟨⟨_, rfl, (pools_inside (useConsumers 2) []).1.complete _ rfl⟩,
    ⟨_, rfl, (pools_inside [] (useProducers 2)).2.complete _ rfl⟩⟩

/-- Only the first one can be set up. -/
theorem partial_init_outside :
    (¬ ∀ s, popPoolSystem.Reach s → s.Inside) ∧ ¬ ∀ s, pushPoolSystem.Reach s → s.Inside := by
  constructor
  · intro h
    obtain ⟨s, hrun⟩ : ∃ s, popPoolSystem.run .empty (useConsumers 1) = some s := ⟨_, rfl⟩
    have hin := h s (Sys.Reach.init.run _ hrun)
    cases hrun
    exact absurd (hin ⟨1, 1⟩ (by decide)) (by decide)
  · intro h
    obtain ⟨s, hrun⟩ : ∃ s, pushPoolSystem.run .empty (useProducers 1) = some s := ⟨_, rfl⟩
    have hin := h s (Sys.Reach.init.run _ hrun)
    cases hrun
    exact absurd (hin ⟨1, 1⟩ (by decide)) (by decide)

end Zookafka
end CmakeFrame
