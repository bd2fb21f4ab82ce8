import CmakeFrame.Zookafka.ZooKfkTopicsPush
import Mathlib.Data.List.Perm.Basic
import Mathlib.Data.List.Range

/-!
# The topic handles of a producer

`topicPtrMap` owns the handles that `rd_kafka_topic_new` returns: `kfkDestroy` passes what it holds to
`rd_kafka_topic_destroy`. `insert` leaves a name that is there already as it is, and the new handle is
then held by nobody. `producerAddTopic` makes its handle before it takes the lock, so that a
`kfkDestroy` may come between.

* `TopicOwner`: a producer with its handles; `kfkInit`, `producerAddTopic`, `pushTopic`, `kfkDestroy`.
* `toPush_kfkInit`: its names are those of `ZooKfkTopicsPush`.
* `topicSystem`: any number of threads use one producer.
* `Released`: each handle is released once, in time, and is not used behind that.
* `Owned`: the condition on a step; `HandleInv`: the invariant; `topic_handles_released`: in every run
  whose steps all meet the condition.
-/

namespace CmakeFrame
namespace Zookafka

open Lib

/-- A `ZooKfkTopicsPush` as far as its topics go. The handles are numbered in the order in which
`rd_kafka_topic_new` returned them; `made` is how many there were and `freed` what
`rd_kafka_topic_destroy` was given, which is history. -/
structure TopicOwner where
  kfkt : Bool
  topicPtrMap : List (Bytes × Nat)
  destroy : Nat
  initFlag : Int32
  made : Nat
  freed : List Nat

namespace TopicOwner

def new : TopicOwner := ⟨false, [], 0, 0, 0, []⟩

/-- The names of the topics. -/
def names (p : TopicOwner) : List Bytes := p.topicPtrMap.map Prod.fst

/-- The handles that the map holds. -/
def held (p : TopicOwner) : List Nat := p.topicPtrMap.map Prod.snd

/-- `topicPtrMap.insert` -/
def insertTopic (p : TopicOwner) (topic : Bytes) (handle : Nat) : TopicOwner :=
  if p.names.contains topic then p
  else { p with topicPtrMap := p.topicPtrMap ++ [(topic, handle)] }

/-- The loop of `kfkInit` over the topics, from the `i`th on; `env` is what there is for each. -/
def addTopics (env : Nat → TopicNew) (p : TopicOwner) (i : Nat) : List Bytes → TopicOwner × Int
  | [] => (p, 0)
  | topic :: rest =>
    match env i with
    | .noConf => (p, KAFKA_TOPIC_CONF_NEW_ERROR)
    | .noTopic => (p, KAFKA_TOPIC_NEW_ERROR)
    | .ok => addTopics env (insertTopic { p with made := p.made + 1 } topic p.made) (i + 1) rest

/-- What the outside gives to `kfkInit`: the handle of the producer, the result of
`rd_kafka_brokers_add`, and what there is for each topic. -/
structure InitEnv where
  rdKafkaNew : Bool
  brokersAdd : Nat
  topic : Nat → TopicNew

/-- `kfkInit` up to its loop: the topics to add, or what it returns. -/
def kfkInitStart (p : TopicOwner) (brokers topics : Bytes) (env : InitEnv) :
    TopicOwner × (Int ⊕ List Bytes) :=
  if brokers = [] then (p, .inl NO_KAFKA_BROKERS_FOUND)
  else if p.initFlag ≠ 0 then (p, .inl KAFKA_INIT_ALREADY)
  else if ¬ env.rdKafkaNew then
    ({ p with initFlag := 1, kfkt := false }, .inl KAFKA_MODULE_NEW_ERROR)
  else if env.brokersAdd = 0 then
    ({ p with initFlag := 1, kfkt := true }, .inl KAFKA_BROKERS_ADD_ERROR)
  else if topics = [] then ({ p with initFlag := 1, kfkt := true }, .inl 0)
  else if (str2Vec topics 44).length < 1 then
    ({ p with initFlag := 1, kfkt := true }, .inl KAFKA_NO_TOPIC_NAME_INIT)
  else ({ p with initFlag := 1, kfkt := true }, .inr (str2Vec topics 44))

def kfkInit (p : TopicOwner) (brokers topics : Bytes) (env : InitEnv) : TopicOwner × Int :=
  match p.kfkInitStart brokers topics env with
  | (p, .inl ret) => (p, ret)
  | (p, .inr topics_) => p.addTopics env.topic 0 topics_

/-- `push`, the check before the lock. -/
def pushEnters (p : TopicOwner) (topic data : Bytes) : Bool :=
  ¬ (data = [] ∨ topic = [] ∨ p.topicPtrMap = [])

/-- `push` under the lock: the handle that it gives to `rd_kafka_produce`, if any. -/
def pushTopic (p : TopicOwner) (topic : Bytes) : Option Nat :=
  if p.destroy ≠ 0 then none else (p.topicPtrMap.find? fun e => e.1 = topic).map Prod.snd

/-- `kfkDestroy`: the flag, which is set before the lock is taken. -/
def kfkDestroyFlag (p : TopicOwner) : TopicOwner := { p with destroy := 1 }

/-- `kfkDestroy`: what it does under the lock. -/
def kfkDestroy (p : TopicOwner) : TopicOwner :=
  if 2 < p.destroy + 1 then { p with destroy := p.destroy + 1 }
  else { p with
    destroy := p.destroy + 1
    freed := p.freed ++ p.held
    topicPtrMap := []
    kfkt := false }

end TopicOwner

/-! ## Any number of threads -/

/-- `adding` are the calls of `producerAddTopic` that have their handle and wait for the lock,
`pushing` the calls of `push` that wait for it, and `destroying` those of `kfkDestroy`, each with the
number of handles that were there when it began. `returned` are the calls of `kfkDestroy` that have
returned, and `late` the handles that `push` has used behind their release, both history. -/
structure TopicState where
  owner : TopicOwner
  adding : List (Bytes × Nat)
  pushing : List Bytes
  destroying : List Nat
  returned : List Nat
  late : List Nat

inductive TopicAct
  | kfkInit (brokers topics : Bytes) (env : TopicOwner.InitEnv)
  | producerAddTopic (topic : Bytes) (env : TopicNew)
  /-- The rest of a call, under the lock. -/
  | insert (call : Bytes × Nat)
  | push (topic data : Bytes)
  /-- The rest of a call, under the lock. -/
  | produce (topic : Bytes)
  | destroyFlag
  /-- The rest of a call, under the lock. -/
  | destroy (began : Nat)

namespace TopicState

def next (s : TopicState) : TopicAct → Option TopicState
  | .kfkInit brokers topics env =>
    some { s with owner := (s.owner.kfkInit brokers topics env).1 }
  | .producerAddTopic topic env =>
    -- without `kfkt` librdkafka gets a null pointer
    if s.owner.kfkt then
      match env with
      | .noConf | .noTopic => some s
      | .ok => some { s with
          owner := { s.owner with made := s.owner.made + 1 }
          adding := (topic, s.owner.made) :: s.adding }
    else none
  | .insert call =>
    if s.adding.contains call then some { s with
      owner := s.owner.insertTopic call.1 call.2
      adding := s.adding.erase call }
    else none
  | .push topic data =>
    if s.owner.pushEnters topic data then some { s with pushing := topic :: s.pushing } else some s
  | .produce topic =>
    if s.pushing.contains topic then some { s with
      pushing := s.pushing.erase topic
      late := ((s.owner.pushTopic topic).filter fun h => s.owner.freed.contains h).toList ++ s.late }
    else none
  | .destroyFlag => some { s with
      owner := s.owner.kfkDestroyFlag
      destroying := s.owner.made :: s.destroying }
  | .destroy began =>
    if s.destroying.contains began then some { s with
      owner := s.owner.kfkDestroy
      destroying := s.destroying.erase began
      returned := began :: s.returned }
    else none

end TopicState

def topicSystem : Sys TopicState TopicAct where
  init := ⟨TopicOwner.new, [], [], [], [], []⟩
  next := TopicState.next

/-- No handle is released twice, a `kfkDestroy` that has returned leaves none of the handles that
were there before it, and no push has used a released one. -/
structure Released (s : TopicState) : Prop where
  once : s.owner.freed.Nodup
  due : ∀ began ∈ s.returned, ∀ h < began, h ∈ s.owner.freed
  late : s.late = []

/-- The names for which the loop of `kfkInit` makes a handle. -/
def addedTopics (env : Nat → TopicNew) (i : Nat) : List Bytes → List Bytes
  | [] => []
  | topic :: rest => if env i = .ok then topic :: addedTopics env (i + 1) rest else []

/-- The names for which `kfkInit` makes a handle. -/
def TopicOwner.kfkInitAdds (p : TopicOwner) (brokers topics : Bytes) (env : InitEnv) : List Bytes :=
  match (p.kfkInitStart brokers topics env).2 with
  | .inl _ => []
  | .inr topics_ => addedTopics env.topic 0 topics_

/-- The topics are different from each other and from those that are there. -/
def TopicOwner.FreshNames (p : TopicOwner) (topics : List Bytes) : Prop :=
  topics.Nodup ∧ ∀ topic ∈ topics, p.names.contains topic = false

/-- The condition on a step: a handle is made for a name that is not there yet, and when `kfkDestroy`
empties the map, no handle from before a `kfkDestroy` that is under way is on its way into it. -/
def Owned (s : TopicState) : TopicAct → Prop
  | .kfkInit brokers topics env => s.owner.FreshNames (s.owner.kfkInitAdds brokers topics env)
  | .insert call => s.owner.names.contains call.1 = false
  | .destroy _ => s.owner.destroy ≤ 1 → ∀ call ∈ s.adding, ∀ began ∈ s.destroying, began ≤ call.2
  | .producerAddTopic _ _ | .push _ _ | .produce _ | .destroyFlag => True

instance (s : TopicState) : (a : TopicAct) → Decidable (Owned s a)
  | .kfkInit brokers topics env =>
    inferInstanceAs (Decidable ((s.owner.kfkInitAdds brokers topics env).Nodup ∧ _))
  | .insert call => inferInstanceAs (Decidable (s.owner.names.contains call.1 = false))
  | .destroy _ => inferInstanceAs (Decidable (s.owner.destroy ≤ 1 → _))
  | .producerAddTopic _ _ | .push _ _ | .produce _ | .destroyFlag =>
    inferInstanceAs (Decidable True)

/-! ## The names -/

section

variable {p : TopicOwner}

/-- What `ZooKfkTopicsPush` knows of the producer. -/
def TopicOwner.toPush (q : ZooKfkTopicsPush) (p : TopicOwner) : ZooKfkTopicsPush :=
  { q with kfkt := p.kfkt, topicPtrMap := p.names, initFlag := p.initFlag }

theorem toPush_insertTopic (q : ZooKfkTopicsPush) (topic : Bytes) (h : Nat) :
    (p.insertTopic topic h).toPush q = (p.toPush q).insertTopic topic := by
  unfold TopicOwner.insertTopic ZooKfkTopicsPush.insertTopic
  by_cases hc : p.names.contains topic
  · rw [if_pos hc, if_pos (by exact hc)]
  · rw [if_neg hc, if_neg (by exact hc)]
    simp [TopicOwner.toPush, TopicOwner.names]

theorem toPush_addTopics (q : ZooKfkTopicsPush) (env : Bytes → TopicNew) (f : Nat → TopicNew)
    (topics : List Bytes) (i : Nat)
    (hf : ∀ k topic, topics[k]? = some topic → f (i + k) = env topic) :
    (p.addTopics f i topics).1.toPush q = ((p.toPush q).addTopics env topics).1 ∧
      (p.addTopics f i topics).2 = ((p.toPush q).addTopics env topics).2 := by
  induction topics generalizing p i with
  | nil => exact ⟨rfl, rfl⟩
  | cons topic rest ih =>
    have htopic : f i = env topic := hf 0 topic rfl
    have hrest : ∀ k t, rest[k]? = some t → f (i + 1 + k) = env t := by
      intro k t hk
      have := hf (k + 1) t hk
      rwa [Nat.add_comm k 1, ← Nat.add_assoc] at this
    simp only [TopicOwner.addTopics, ZooKfkTopicsPush.addTopics, ZooKfkTopicsPush.producerAddTopic,
      htopic]
    cases env topic with
    | noConf => exact ⟨rfl, rfl⟩
    | noTopic => exact ⟨rfl, rfl⟩
    | ok =>
      have hins : (TopicOwner.insertTopic { p with made := p.made + 1 } topic p.made).toPush q =
          (p.toPush q).insertTopic topic := toPush_insertTopic q topic p.made
      rw [← hins]
      exact ih (i + 1) hrest

/-- `kfkInit` leaves the names, and returns, what `ZooKfkTopicsPush.kfkInit` does. -/
theorem toPush_kfkInit (q : ZooKfkTopicsPush) (brokers topics : Bytes) (env : PushEnv)
    (ienv : TopicOwner.InitEnv) (hnew : ienv.rdKafkaNew = env.rdKafkaNew)
    (hadd : ienv.brokersAdd = env.brokersAdd)
    (htopic : ∀ k topic, (str2Vec topics 44)[k]? = some topic → ienv.topic k = env.topic topic) :
    (p.kfkInit brokers topics ienv).1.toPush q = ((p.toPush q).kfkInit brokers topics env).1 ∧
      (p.kfkInit brokers topics ienv).2 = ((p.toPush q).kfkInit brokers topics env).2 := by
  have hloop : ∀ p' : TopicOwner, p'.toPush q = { p.toPush q with initFlag := 1, kfkt := true } →
      (p'.addTopics ienv.topic 0 (str2Vec topics 44)).1.toPush q =
        (ZooKfkTopicsPush.addTopics env.topic { p.toPush q with initFlag := 1, kfkt := true }
          (str2Vec topics 44)).1 ∧
      (p'.addTopics ienv.topic 0 (str2Vec topics 44)).2 =
        (ZooKfkTopicsPush.addTopics env.topic { p.toPush q with initFlag := 1, kfkt := true }
          (str2Vec topics 44)).2 := by
    intro p' hp'
    rw [← hp']
    refine toPush_addTopics q env.topic ienv.topic (str2Vec topics 44) 0 fun k topic hk => ?_
    rw [Nat.zero_add]
    exact htopic k topic hk
  have hflag : (p.toPush q).initFlag = p.initFlag := rfl
  unfold TopicOwner.kfkInit TopicOwner.kfkInitStart ZooKfkTopicsPush.kfkInit
  rw [hnew, hadd, hflag]
  split_ifs
  · exact ⟨rfl, rfl⟩
  · exact ⟨rfl, rfl⟩
  · exact ⟨rfl, rfl⟩
  · exact ⟨rfl, rfl⟩
  · exact ⟨rfl, rfl⟩
  · exact hloop { p with initFlag := 1, kfkt := true } rfl
  · exact ⟨rfl, rfl⟩

end

/-! ## The invariant -/

/-- Each handle is in the map, on its way into it (`rest`), or released; each once. -/
def TopicOwner.Accounted (p : TopicOwner) (rest : List Nat) : Prop :=
  (p.held ++ rest ++ p.freed).Perm (List.range p.made)

namespace TopicOwner

variable {p : TopicOwner} {rest : List Nat} {topic : Bytes} {h : Nat}

/-- What an `insert` of a new name and a loop of such leave as it was. -/
structure SameFor (p p' : TopicOwner) : Prop where
  freed : p'.freed = p.freed
  destroy : p'.destroy = p.destroy
  made : p.made ≤ p'.made

/-- A new handle is on its way. -/
theorem Accounted.make (hp : p.Accounted rest) :
    Accounted { p with made := p.made + 1 } (p.made :: rest) := by
  show (p.held ++ p.made :: rest ++ p.freed).Perm (List.range (p.made + 1))
  rw [List.range_succ, List.append_assoc, List.cons_append]
  calc p.held ++ p.made :: (rest ++ p.freed)
      |>.Perm (p.made :: (p.held ++ (rest ++ p.freed))) := List.perm_middle
    _ |>.Perm (p.made :: List.range p.made) := by
      rw [← List.append_assoc]
      exact List.Perm.cons p.made hp
    _ |>.Perm (List.range p.made ++ [p.made]) := (List.perm_append_singleton _ _).symm

/-- A handle of a new name reaches the map. -/
theorem Accounted.insert (hp : p.Accounted (h :: rest)) (hnew : p.names.contains topic = false) :
    (p.insertTopic topic h).Accounted rest := by
  have hins : p.insertTopic topic h = { p with topicPtrMap := p.topicPtrMap ++ [(topic, h)] } := by
    rw [insertTopic, hnew]
    rfl
  rw [hins]
  show ((p.topicPtrMap ++ [(topic, h)]).map Prod.snd ++ rest ++ p.freed).Perm (List.range p.made)
  have hlist : (p.topicPtrMap ++ [(topic, h)]).map Prod.snd ++ rest = p.held ++ h :: rest := by
    rw [List.map_append, List.append_assoc]
    rfl
  rw [hlist]
  exact hp

theorem sameFor_insert (p : TopicOwner) (topic : Bytes) (h : Nat) :
    SameFor p (p.insertTopic topic h) := by
  unfold insertTopic
  split <;> exact ⟨rfl, rfl, Nat.le_refl _⟩

theorem names_insert (hnew : p.names.contains topic = false) :
    (p.insertTopic topic h).names = p.names ++ [topic] := by
  rw [insertTopic, hnew]
  simp [names]

/-- The loop of `kfkInit`, wherever it ends. -/
theorem Accounted.addTopics {env : Nat → TopicNew} {topics : List Bytes} {i : Nat}
    (hp : p.Accounted rest) (hnew : p.FreshNames (addedTopics env i topics)) :
    (p.addTopics env i topics).1.Accounted rest ∧ SameFor p (p.addTopics env i topics).1 := by
  induction topics generalizing p i with
  | nil => exact ⟨hp, rfl, rfl, Nat.le_refl _⟩
  | cons topic topics ih =>
    unfold TopicOwner.addTopics
    unfold addedTopics at hnew
    cases henv : env i with
    | noConf => exact ⟨hp, rfl, rfl, Nat.le_refl _⟩
    | noTopic => exact ⟨hp, rfl, rfl, Nat.le_refl _⟩
    | ok =>
      rw [if_pos henv] at hnew
      obtain ⟨hnodup, hfresh⟩ := hnew
      obtain ⟨hnotin, hnodup⟩ := List.nodup_cons.mp hnodup
      have htopic : p.names.contains topic = false := hfresh topic List.mem_cons_self
      have hmade : Accounted { p with made := p.made + 1 } (p.made :: rest) := hp.make
      have hsame := sameFor_insert { p with made := p.made + 1 } topic p.made
      -- the next names are not the one that has been added
      have hrest : (insertTopic { p with made := p.made + 1 } topic p.made).FreshNames
          (addedTopics env (i + 1) topics) := by
        refine ⟨hnodup, fun t ht => ?_⟩
        rw [names_insert (p := { p with made := p.made + 1 }) htopic]
        have hold : p.names.contains t = false := hfresh t (List.mem_cons_of_mem _ ht)
        have hne : t ≠ topic := fun he => hnotin (he ▸ ht)
        have hlast : [topic].contains t = false := by simpa using hne
        rw [List.contains_append, hlast, Bool.or_false]
        exact hold
      obtain ⟨hacc, hfreed, hdestroy, hle⟩ := ih (hmade.insert htopic) hrest
      exact ⟨hacc, hfreed.trans hsame.freed, hdestroy.trans hsame.destroy,
        Nat.le_trans (Nat.le_succ _) (Nat.le_trans hsame.made hle)⟩

theorem Accounted.kfkInit {brokers topics : Bytes} {env : InitEnv} (hp : p.Accounted rest)
    (hnew : p.FreshNames (p.kfkInitAdds brokers topics env)) :
    (p.kfkInit brokers topics env).1.Accounted rest ∧
      SameFor p (p.kfkInit brokers topics env).1 := by
  have hstart : (p.kfkInitStart brokers topics env).1.topicPtrMap = p.topicPtrMap ∧
      (p.kfkInitStart brokers topics env).1.made = p.made ∧
      (p.kfkInitStart brokers topics env).1.freed = p.freed ∧
      (p.kfkInitStart brokers topics env).1.destroy = p.destroy := by
    unfold kfkInitStart
    split_ifs <;> exact ⟨rfl, rfl, rfl, rfl⟩
  unfold kfkInitAdds at hnew
  unfold TopicOwner.kfkInit
  rcases hs : p.kfkInitStart brokers topics env with ⟨p₁, res⟩
  rw [hs] at hstart hnew
  obtain ⟨hmap, hmade, hfreed, hdestroy⟩ := hstart
  have hacc : p₁.Accounted rest := by
    unfold Accounted held
    rw [hmap, hfreed, hmade]
    exact hp
  cases res with
  | inl ret => exact ⟨hacc, hfreed, hdestroy, Nat.le_of_eq hmade.symm⟩
  | inr topics_ =>
    have hnew' : p₁.FreshNames (addedTopics env.topic 0 topics_) := by
      unfold FreshNames names
      rw [hmap]
      exact hnew
    obtain ⟨hacc', hfreed', hdestroy', hmade'⟩ := hacc.addTopics hnew'
    exact ⟨hacc', hfreed'.trans hfreed, hdestroy'.trans hdestroy, hmade ▸ hmade'⟩

/-- `kfkDestroy` releases what the map holds. -/
theorem Accounted.destroy (hp : p.Accounted rest) : p.kfkDestroy.Accounted rest := by
  unfold kfkDestroy
  split
  · exact hp
  · show ([] ++ rest ++ (p.freed ++ p.held)).Perm (List.range p.made)
    rw [List.nil_append, ← List.append_assoc]
    refine List.Perm.trans ?_ hp
    rw [List.append_assoc p.held]
    exact List.perm_append_comm

theorem Accounted.nodup (hp : p.Accounted rest) : (p.held ++ rest ++ p.freed).Nodup :=
  hp.nodup_iff.mpr List.nodup_range

theorem Accounted.lt (hp : p.Accounted rest) (hh : h < p.made) :
    h ∈ p.held ∨ h ∈ rest ∨ h ∈ p.freed := by
  have hmem := hp.mem_iff.mpr (List.mem_range.mpr hh)
  rcases List.mem_append.mp hmem with hmem | hfreed
  · rcases List.mem_append.mp hmem with hheld | hrest
    · exact .inl hheld
    · exact .inr (.inl hrest)
  · exact .inr (.inr hfreed)

/-- What a push uses is held. -/
theorem mem_held_of_pushTopic (hh : p.pushTopic topic = some h) : h ∈ p.held ∧ p.destroy = 0 := by
  unfold pushTopic at hh
  split at hh
  · cases hh
  · rename_i hd
    obtain ⟨e, he, rfl⟩ := Option.map_eq_some_iff.mp hh
    exact ⟨List.mem_map_of_mem (List.mem_of_find?_eq_some he), not_not.mp hd⟩

end TopicOwner

/-- What every step keeps that meets the condition: each handle is somewhere, and what a `kfkDestroy`
has to release is released as soon as one of those behind its flag has emptied the map. -/
structure HandleInv (s : TopicState) : Prop where
  accounted : s.owner.Accounted (s.adding.map Prod.snd)
  pending : ∀ began ∈ s.destroying, began ≤ s.owner.made ∧
    (s.owner.destroy = 1 ∨ ∀ h < began, h ∈ s.owner.freed)
  due : ∀ began ∈ s.returned, ∀ h < began, h ∈ s.owner.freed
  late : s.late = []

section

variable {s : TopicState} {p' : TopicOwner} {adding : List (Bytes × Nat)} {call : Bytes × Nat}
  {began : Nat}

/-- A step that releases nothing. -/
theorem HandleInv.same (hi : HandleInv s) (hsame : TopicOwner.SameFor s.owner p')
    (hacc : p'.Accounted (adding.map Prod.snd)) :
    HandleInv { s with owner := p', adding := adding } where
  accounted := hacc
  pending began hb := by
    obtain ⟨hle, hdone⟩ := hi.pending began hb
    refine ⟨Nat.le_trans hle hsame.made, ?_⟩
    show p'.destroy = 1 ∨ ∀ h < began, h ∈ p'.freed
    rw [hsame.destroy, hsame.freed]
    exact hdone
  due began hb h hh := by
    show h ∈ p'.freed
    rw [hsame.freed]
    exact hi.due began hb h hh
  late := hi.late

theorem HandleInv.insert (hi : HandleInv s) (hmem : call ∈ s.adding)
    (hnew : s.owner.names.contains call.1 = false) :
    HandleInv { s with
      owner := s.owner.insertTopic call.1 call.2
      adding := s.adding.erase call } := by
  refine hi.same (TopicOwner.sameFor_insert s.owner call.1 call.2) ?_
  have hperm : (s.adding.map Prod.snd).Perm (call.2 :: (s.adding.erase call).map Prod.snd) :=
    (List.perm_cons_erase hmem).map Prod.snd
  have hacc : s.owner.Accounted (call.2 :: (s.adding.erase call).map Prod.snd) :=
    (((hperm.append_left s.owner.held).append_right s.owner.freed).symm).trans hi.accounted
  exact hacc.insert hnew

/-- `push` finds only handles that are in the map. -/
theorem HandleInv.produce (hi : HandleInv s) (topic : Bytes) :
    (s.owner.pushTopic topic).filter (fun h => s.owner.freed.contains h) = none := by
  rw [Option.filter_eq_none_iff]
  intro h hh hfreed
  obtain ⟨hheld, -⟩ := TopicOwner.mem_held_of_pushTopic hh
  have hnodup := hi.accounted.nodup
  rw [List.append_assoc] at hnodup
  have hdisj := List.disjoint_of_nodup_append hnodup
  exact hdisj hheld (List.mem_append_right _ (List.contains_iff_mem.mp hfreed))

theorem HandleInv.destroyFlag (hi : HandleInv s) : HandleInv { s with
    owner := s.owner.kfkDestroyFlag
    destroying := s.owner.made :: s.destroying } where
  accounted := hi.accounted
  pending began hb := by
    rcases List.mem_cons.mp hb with rfl | hb
    · exact ⟨Nat.le_refl _, .inl rfl⟩
    · exact ⟨(hi.pending began hb).1, .inl rfl⟩
  due := hi.due
  late := hi.late

theorem TopicOwner.freed_subset_kfkDestroy {p : TopicOwner} {h : Nat} (hh : h ∈ p.freed) :
    h ∈ p.kfkDestroy.freed := by
  unfold TopicOwner.kfkDestroy
  split
  · exact hh
  · exact List.mem_append_left _ hh

theorem TopicOwner.made_kfkDestroy (p : TopicOwner) : p.kfkDestroy.made = p.made := by
  unfold TopicOwner.kfkDestroy
  split <;> rfl

/-- Behind `kfkDestroy` nothing is left that a `kfkDestroy` under way has to release. -/
theorem HandleInv.emptied (hi : HandleInv s)
    (hown : s.owner.destroy ≤ 1 → ∀ call ∈ s.adding, ∀ began ∈ s.destroying, began ≤ call.2)
    (hmem : began ∈ s.destroying) : ∀ h < began, h ∈ s.owner.kfkDestroy.freed := by
  intro h hh
  obtain ⟨hle, hdone⟩ := hi.pending began hmem
  unfold TopicOwner.kfkDestroy
  split
  · -- another one has emptied the map since the last flag
    rename_i hearly
    rcases hdone with hone | hfreed
    · omega
    · exact hfreed h hh
  · rename_i hlate
    rcases hi.accounted.lt (Nat.lt_of_lt_of_le hh hle) with hheld | hadding | hfreed
    · exact List.mem_append_right _ hheld
    · obtain ⟨call, hcall, rfl⟩ := List.mem_map.mp hadding
      have hbegan := hown (by omega) call hcall began hmem
      omega
    · exact List.mem_append_left _ hfreed

theorem HandleInv.destroy (hi : HandleInv s)
    (hown : s.owner.destroy ≤ 1 → ∀ call ∈ s.adding, ∀ began ∈ s.destroying, began ≤ call.2)
    (hmem : began ∈ s.destroying) : HandleInv { s with
      owner := s.owner.kfkDestroy
      destroying := s.destroying.erase began
      returned := began :: s.returned } where
  accounted := hi.accounted.destroy
  pending b hb := by
    have hb' := List.mem_of_mem_erase hb
    refine ⟨?_, .inr (hi.emptied hown hb')⟩
    show b ≤ s.owner.kfkDestroy.made
    rw [TopicOwner.made_kfkDestroy]
    exact (hi.pending b hb').1
  due b hb := by
    rcases List.mem_cons.mp hb with rfl | hb
    · exact hi.emptied hown hmem
    · exact fun h hh => TopicOwner.freed_subset_kfkDestroy (hi.due b hb h hh)
  late := hi.late

end

theorem HandleInv.init : HandleInv topicSystem.init where
  accounted := List.Perm.refl []
  pending := by simp [topicSystem]
  due := by simp [topicSystem]
  late := rfl

/-- One step that meets the condition. -/
theorem HandleInv.next {s s' : TopicState} {a : TopicAct} (hi : HandleInv s) (hown : Owned s a)
    (h : s.next a = some s') : HandleInv s' := by
  cases a with
  | kfkInit brokers topics env =>
    cases h
    obtain ⟨hacc, hsame⟩ := hi.accounted.kfkInit hown
    exact hi.same hsame hacc
  | producerAddTopic topic env =>
    cases env with
    | noConf | noTopic =>
      rw [TopicState.next] at h
      split at h
      · cases h
        exact hi
      · cases h
    | ok =>
      rw [TopicState.next] at h
      split at h
      · cases h
        exact hi.same ⟨rfl, rfl, Nat.le_succ _⟩ hi.accounted.make
      · cases h
  | insert call =>
    rw [TopicState.next] at h
    split at h
    · rename_i hmem
      cases h
      exact hi.insert (List.contains_iff_mem.mp hmem) hown
    · cases h
  | push topic data =>
    rw [TopicState.next] at h
    split at h
    · cases h
      exact ⟨hi.accounted, hi.pending, hi.due, hi.late⟩
    · cases h
      exact hi
  | produce topic =>
    rw [TopicState.next] at h
    split at h
    · cases h
      refine ⟨hi.accounted, hi.pending, hi.due, ?_⟩
      rw [hi.produce topic]
      exact hi.late
    · cases h
  | destroyFlag =>
    cases h
    exact hi.destroyFlag
  | destroy began =>
    rw [TopicState.next] at h
    split at h
    · rename_i hmem
      cases h
      exact hi.destroy hown (List.contains_iff_mem.mp hmem)
    · cases h

theorem HandleInv.released {s : TopicState} (hi : HandleInv s) : Released s where
  once := (List.nodup_append.mp hi.accounted.nodup).2.1
  due := hi.due
  late := hi.late

/-- In every run in which no topic is added twice and `kfkDestroy` overtakes no call that adds one,
each handle is released once and in time. -/
theorem topic_handles_released {s : TopicState} (h : (topicSystem.only Owned).Reach s) :
    Released s := by
  have hi : HandleInv s := Sys.Reach.inv_only HandleInv.init
    (fun s a s' hi hown hs => hi.next hown hs) h
  exact hi.released

/-- Topics "a" and "b" at the start, a call that adds "c", a push and a `kfkDestroy`. -/
theorem topic_handles_released_three : ∃ s, (topicSystem.only Owned).run topicSystem.init
    [.kfkInit [98] [97, 44, 98] ⟨true, 1, fun _ => .ok⟩, .producerAddTopic [99] .ok,
      .insert ([99], 2), .push [99] [1], .produce [99], .destroyFlag, .destroy 3] = some s ∧
    s.owner.freed = [0, 1, 2] ∧ Released s := by
  refine ⟨_, rfl, rfl, topic_handles_released (Sys.Reach.init.run
    [.kfkInit [98] [97, 44, 98] ⟨true, 1, fun _ => .ok⟩, .producerAddTopic [99] .ok,
      .insert ([99], 2), .push [99] [1], .produce [99], .destroyFlag, .destroy 3] rfl)⟩

/-- The topics "a,a": the second handle is never released. And a `kfkDestroy` between the two steps of
`producerAddTopic`: the new handle stays in the map. -/
theorem topic_handle_lost :
    (∃ s, topicSystem.run topicSystem.init [.kfkInit [98] [97, 44, 97] ⟨true, 1, fun _ => .ok⟩,
      .destroyFlag, .destroy 2] = some s ∧ s.owner.freed = [0] ∧ ¬ Released s) ∧
    ∃ s, topicSystem.run topicSystem.init [.kfkInit [98] [97] ⟨true, 1, fun _ => .ok⟩,
      .producerAddTopic [98] .ok, .destroyFlag, .destroy 2, .insert ([98], 1)] = some s ∧
      s.owner.held = [1] ∧ ¬ Released s := by
  refine ⟨⟨_, rfl, rfl, fun h => ?_⟩, ⟨_, rfl, rfl, fun h => ?_⟩⟩
  · exact absurd (h.due 2 (List.mem_singleton.mpr rfl) 1 (by omega)) (by decide)
  · exact absurd (h.due 2 (List.mem_singleton.mpr rfl) 1 (by omega)) (by decide)

end Zookafka
end CmakeFrame
