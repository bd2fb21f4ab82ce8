import CmakeFrame.Zookafka.ZooKfkTopicsPop

/-!
# `zookafka/src/ZooKfkTopicsPop.cpp`: `topics_` and the subscription

`topics_` is what the consumer believes to be subscribed to. `kfkInit`, `kfkTopicConsumeStart` and
`kfkTopicConsumeStop` keep it by hand beside what librdkafka holds.

* `initSubscription`, `startSubscription`, `stopSubscription`: what a call leaves of the
  subscription. A failing call of librdkafka changes nothing; `rd_kafka_subscribe` replaces the
  whole subscription by the names that it gets as C strings.
* `subscribeSystem`: the calls, one after the other.
* `Bookkept`: `topics_` is the subscription, and the results say so.
* `Regular`: the names of `kfkInit` are distinct and its `rd_kafka_subscribe` succeeds, and a name
  that `kfkTopicConsumeStart` subscribes to has no NUL.
* `subscribe_bookkept`: with that, the books are right behind every call.
-/

namespace CmakeFrame
namespace Zookafka

open Lib

namespace ZooKfkTopicsPop

/-- `kfkTopicConsumeStart`, in a thread that nobody disturbs. -/
def consumeStart (p : ZooKfkTopicsPop) (topic : Bytes) (env : ChangeEnv) : ZooKfkTopicsPop × Int :=
  match p.kfkTopicConsumeStartFlag with
  | none => (p, p.errorFlag)
  | some p => p.kfkTopicConsumeStart topic env

/-- `kfkTopicConsumeStop`, in a thread that nobody disturbs. -/
def consumeStop (p : ZooKfkTopicsPop) (topic : Bytes) (env : ChangeEnv) : ZooKfkTopicsPop × Int :=
  match p.kfkTopicConsumeStopFlag with
  | none => (p, if p.topics_ = [] then 0 else p.errorFlag)
  | some p => p.kfkTopicConsumeStop topic env

/-- `kfkInit` comes to its `rd_kafka_subscribe`. -/
def InitSubscribes (p : ZooKfkTopicsPop) (brokers topic groupName : Bytes) (env : PopEnv) : Prop :=
  brokers ≠ [] ∧ p.initFlag = 0 ∧ env.confNew ∧ env.confBrokers ∧ (groupName = [] ∨ env.confGroup) ∧
    env.confOffset ∧ env.rdKafkaNew ∧ env.brokersAdd ≠ 0 ∧ topic ≠ [] ∧ env.listNew

instance (p : ZooKfkTopicsPop) (brokers topic groupName : Bytes) (env : PopEnv) :
    Decidable (p.InitSubscribes brokers topic groupName env) := by
  unfold InitSubscribes
  infer_instance

/-- The subscription behind `kfkInit`. -/
def initSubscription (p : ZooKfkTopicsPop) (brokers topic groupName : Bytes) (env : PopEnv)
    (subscription : List Bytes) : List Bytes :=
  if p.InitSubscribes brokers topic groupName env ∧ env.subscribe = 0 then
    (str2Vec topic 44).map cstr
  else subscription

/-- The subscription behind `kfkTopicConsumeStart`; `none` if it hands on a null `kfkt`. -/
def startSubscription (p : ZooKfkTopicsPop) (topic : Bytes) (env : ChangeEnv)
    (subscription : List Bytes) : Option (List Bytes) :=
  if p.errorFlag ≠ 0 then some subscription
  else if p.topics_.contains topic then some subscription
  else if ¬ env.listNew then some subscription
  else if ¬ p.kfkt then none
  else if p.topics_ ≠ [] ∧ env.unsubscribe ≠ 0 then some subscription
  else if env.subscribe ≠ 0 then some (if p.topics_ ≠ [] then [] else subscription)
  else some ((p.topics_ ++ [topic]).map cstr)

/-- The subscription behind `kfkTopicConsumeStop`; `none` if it hands on a null `kfkt`. -/
def stopSubscription (p : ZooKfkTopicsPop) (topic : Bytes) (env : ChangeEnv)
    (subscription : List Bytes) : Option (List Bytes) :=
  let topics_ := p.topics_.erase topic
  if p.topics_ = [] then some subscription
  else if p.errorFlag ≠ 0 then some subscription
  else if ¬ p.topics_.contains topic then some subscription
  else if topics_ = [] then
    if ¬ p.kfkt then none
    else if env.unsubscribe ≠ 0 then some subscription
    else some []
  else if ¬ env.listNew then some subscription
  else if ¬ p.kfkt then none
  else if env.unsubscribe ≠ 0 then some subscription
  else if env.subscribe ≠ 0 then some []
  else some (topics_.map cstr)

end ZooKfkTopicsPop

inductive SubscribeCall where
  | kfkInit (brokers topic groupName : Bytes) (env : PopEnv)
  | start (topic : Bytes) (env : ChangeEnv)
  | stop (topic : Bytes) (env : ChangeEnv)
  deriving DecidableEq, Repr

/-- `subscription` is what librdkafka holds, `last` the last call and its result. -/
structure SubscribeState where
  p : ZooKfkTopicsPop
  subscription : List Bytes
  last : Option (SubscribeCall × Int)
  deriving DecidableEq, Repr

namespace SubscribeState

/-- A call that has come back. -/
def back (call : SubscribeCall) (r : ZooKfkTopicsPop × Int) (subscription : List Bytes) :
    SubscribeState :=
  ⟨r.1, subscription, some (call, r.2)⟩

def next (s : SubscribeState) (call : SubscribeCall) : Option SubscribeState :=
  match call with
  | .kfkInit brokers topic groupName env =>
    some (back call (s.p.kfkInit brokers topic groupName env)
      (s.p.initSubscription brokers topic groupName env s.subscription))
  | .start topic env =>
    (s.p.startSubscription topic env s.subscription).map (back call (s.p.consumeStart topic env))
  | .stop topic env =>
    (s.p.stopSubscription topic env s.subscription).map (back call (s.p.consumeStop topic env))

end SubscribeState

/-- The calls on one consumer, from its constructor on. -/
def subscribeSystem : Sys SubscribeState SubscribeCall where
  init := ⟨.new, [], none⟩
  next := SubscribeState.next

/-- `topics_` is the subscription. -/
structure Bookkept (s : SubscribeState) : Prop where
  names : ∀ name, name ∈ s.p.topics_ ↔ name ∈ s.subscription
  once : s.p.topics_.Nodup
  started : ∀ topic env, s.last = some (.start topic env, 0) → topic ∈ s.subscription
  stopped : ∀ topic env, s.last = some (.stop topic env, 0) → topic ∉ s.subscription
  switchFlag : s.p.switchFlag = 0

/-- `kfkInit` subscribes to distinct names and succeeds, and `kfkTopicConsumeStart` subscribes to a
name without a NUL. -/
def Regular (s : SubscribeState) : SubscribeCall → Prop
  | .kfkInit brokers topic groupName env =>
    s.p.InitSubscribes brokers topic groupName env →
      (str2Vec topic 44).Nodup ∧ env.subscribe = 0
  | .start topic env =>
    s.p.errorFlag = 0 ∧ env.listNew ∧ (s.p.topics_ = [] ∨ env.unsubscribe = 0) ∧
      env.subscribe = 0 → 0 ∉ topic
  | .stop _ _ => True

instance (s : SubscribeState) (call : SubscribeCall) : Decidable (Regular s call) := by
  cases call <;> unfold Regular <;> infer_instance

/-! ## Names -/

theorem splitAt_ne_nil (delim : UInt8) (s : Bytes) : splitAt delim s ≠ [] := by
  cases s with
  | nil => exact List.cons_ne_nil _ _
  | cons c s =>
    unfold splitAt
    split
    · exact List.cons_ne_nil _ _
    · split
      · exact List.cons_ne_nil _ _
      · exact List.cons_ne_nil _ _

/-- The names of a text have no other bytes than the text. -/
theorem mem_of_mem_splitAt {delim c : UInt8} {s name : Bytes} (h : name ∈ splitAt delim s)
    (hc : c ∈ name) : c ∈ s := by
  induction s generalizing name with
  | nil =>
    obtain rfl : name = [] := by simpa [splitAt] using h
    exact absurd hc List.not_mem_nil
  | cons d s ih =>
    unfold splitAt at h
    split at h
    · rcases List.mem_cons.mp h with rfl | h
      · exact absurd hc List.not_mem_nil
      · exact List.mem_cons_of_mem _ (ih h hc)
    · split at h
      · obtain rfl : name = [d] := by simpa using h
        exact List.mem_cons.mpr (Or.inl (List.mem_singleton.mp hc))
      · rename_i f fs heq
        rcases List.mem_cons.mp h with rfl | h
        · rcases List.mem_cons.mp hc with rfl | hc
          · exact List.mem_cons_self
          · exact List.mem_cons_of_mem _ (ih (heq ▸ List.mem_cons_self) hc)
        · exact List.mem_cons_of_mem _ (ih (heq ▸ List.mem_cons_of_mem _ h) hc)

theorem zero_notMem_str2Vec {src name : Bytes} {delim : UInt8} (h : name ∈ str2Vec src delim) :
    0 ∉ name :=
  fun h0 => zero_notMem_cstr src (mem_of_mem_splitAt h h0)

theorem map_cstr_eq_self {names : List Bytes} (h : ∀ name ∈ names, 0 ∉ name) :
    names.map cstr = names := by
  conv => rhs; rw [← List.map_id names]
  apply List.map_congr_left
  intro name hname
  exact cstr_eq_self (h name hname)

/-! ## What a call does -/

section

variable {p : ZooKfkTopicsPop} {subscription subscription' : List Bytes}

namespace ZooKfkTopicsPop

/-- `kfkInit` fills `topics_` if it comes to its `rd_kafka_subscribe`, whatever that returns. -/
theorem kfkInit_cases (p : ZooKfkTopicsPop) (brokers topic groupName : Bytes) (env : PopEnv) :
    (p.InitSubscribes brokers topic groupName env ∧ (p.kfkInit brokers topic groupName env).1
      = { p with initFlag := 1, kfkt := true, topics_ := p.topics_ ++ str2Vec topic 44 }) ∨
    (¬ p.InitSubscribes brokers topic groupName env ∧
      (p.kfkInit brokers topic groupName env).1.topics_ = p.topics_ ∧
      (p.kfkInit brokers topic groupName env).1.switchFlag = p.switchFlag ∧
      ((p.kfkInit brokers topic groupName env).1 = p ∨
        (p.kfkInit brokers topic groupName env).1.initFlag = 1)) := by
  have hlen : ¬ (str2Vec topic 44).length < 1 := by
    have := List.length_pos_iff.mpr (splitAt_ne_nil 44 (cstr topic))
    unfold str2Vec
    omega
  by_cases hs : p.InitSubscribes brokers topic groupName env
  · left
    refine ⟨hs, ?_⟩
    obtain ⟨hb, hi, hn, hcb, hg, ho, hk, ha, ht, hl⟩ := hs
    have hconf : ¬ (¬ env.confBrokers ∨ (groupName ≠ [] ∧ ¬ env.confGroup) ∨ ¬ env.confOffset) := by
      grind
    unfold kfkInit
    rw [if_neg hb, if_neg (not_not.mpr hi), if_neg (not_not.mpr hn), if_neg hconf,
      if_neg (not_not.mpr hk), if_neg ha, if_neg ht, if_neg hlen, if_neg (not_not.mpr hl)]
  · right
    refine ⟨hs, ?_⟩
    obtain ⟨r, hr⟩ : ∃ r, p.kfkInit brokers topic groupName env = r := ⟨_, rfl⟩
    rw [hr]
    unfold kfkInit at hr
    by_cases hb : brokers = []
    · rw [if_pos hb] at hr
      subst hr
      exact ⟨rfl, rfl, .inl rfl⟩
    rw [if_neg hb] at hr
    by_cases hi : p.initFlag ≠ 0
    · rw [if_pos hi] at hr
      subst hr
      exact ⟨rfl, rfl, .inl rfl⟩
    rw [if_neg hi] at hr
    by_cases hn : ¬ env.confNew
    · rw [if_pos hn] at hr
      subst hr
      exact ⟨rfl, rfl, .inr rfl⟩
    rw [if_neg hn] at hr
    by_cases hconf : ¬ env.confBrokers ∨ (groupName ≠ [] ∧ ¬ env.confGroup) ∨ ¬ env.confOffset
    · rw [if_pos hconf] at hr
      subst hr
      exact ⟨rfl, rfl, .inr rfl⟩
    rw [if_neg hconf] at hr
    by_cases hk : ¬ env.rdKafkaNew
    · rw [if_pos hk] at hr
      subst hr
      exact ⟨rfl, rfl, .inr rfl⟩
    rw [if_neg hk] at hr
    by_cases ha : env.brokersAdd = 0
    · rw [if_pos ha] at hr
      subst hr
      exact ⟨rfl, rfl, .inr rfl⟩
    rw [if_neg ha] at hr
    by_cases ht : topic = []
    · rw [if_pos ht] at hr
      subst hr
      exact ⟨rfl, rfl, .inr rfl⟩
    rw [if_neg ht] at hr
    rw [if_neg hlen] at hr
    by_cases hl : ¬ env.listNew
    · rw [if_pos hl] at hr
      subst hr
      exact ⟨rfl, rfl, .inr rfl⟩
    -- what is left comes to `rd_kafka_subscribe`
    refine absurd ?_ hs
    unfold InitSubscribes
    grind

/-- A call that refuses returns no 0. -/
theorem refusals_ne_zero : TRANSMIT_PARAMTER_ERROR ≠ 0 ∧ KAFKA_MODULE_NEW_ERROR ≠ 0 ∧
    KAFKA_TOPIC_CONF_NEW_ERROR ≠ 0 ∧ KAFKA_CONSUMER_ADDTOPIC_ERROR ≠ 0 := by
  decide

/-- What `kfkTopicConsumeStart` can do: nothing, to lose all, or to add the topic. -/
theorem consumeStart_cases {topic : Bytes} {env : ChangeEnv}
    (h : p.startSubscription topic env subscription = some subscription') :
    ((p.consumeStart topic env).1.topics_ = p.topics_ ∧ subscription' = subscription ∧
      ((p.consumeStart topic env).2 = 0 → topic ∈ p.topics_)) ∨
    ((p.consumeStart topic env).1.topics_ = [] ∧ (p.consumeStart topic env).2 ≠ 0 ∧
      subscription' = if p.topics_ ≠ [] then [] else subscription) ∨
    ((p.consumeStart topic env).1.topics_ = p.topics_ ++ [topic] ∧ topic ∉ p.topics_ ∧ p.kfkt ∧
      subscription' = (p.topics_ ++ [topic]).map cstr ∧ p.errorFlag = 0 ∧ env.listNew ∧
      (p.topics_ = [] ∨ env.unsubscribe = 0) ∧ env.subscribe = 0) := by
  obtain ⟨-, -, hnew, hadd⟩ := refusals_ne_zero
  unfold startSubscription at h
  by_cases herr : p.errorFlag ≠ 0
  · left
    rw [if_pos herr] at h
    cases h
    simp [consumeStart, kfkTopicConsumeStartFlag, herr]
  have hcall : p.consumeStart topic env
      = ({ p with switchFlag := 1 } : ZooKfkTopicsPop).kfkTopicConsumeStart topic env := by
    simp [consumeStart, kfkTopicConsumeStartFlag, herr]
  rw [if_neg herr] at h
  rw [hcall]
  unfold kfkTopicConsumeStart
  by_cases hmem : p.topics_.contains topic
  · left
    rw [if_pos hmem] at h ⊢
    cases h
    exact ⟨rfl, rfl, fun _ => List.contains_iff_mem.mp hmem⟩
  rw [if_neg hmem] at h ⊢
  by_cases hlist : ¬ env.listNew
  · left
    rw [if_pos hlist] at h ⊢
    cases h
    exact ⟨rfl, rfl, fun h0 => absurd h0 hnew⟩
  rw [if_neg hlist] at h ⊢
  by_cases hkfkt : ¬ p.kfkt
  · rw [if_pos hkfkt] at h
    cases h
  rw [if_neg hkfkt] at h
  by_cases hunsub : p.topics_ ≠ [] ∧ env.unsubscribe ≠ 0
  · left
    rw [if_pos hunsub] at h ⊢
    cases h
    exact ⟨rfl, rfl, fun h0 => absurd h0 hadd⟩
  rw [if_neg hunsub] at h ⊢
  by_cases hsub : env.subscribe ≠ 0
  · right; left
    rw [if_pos hsub] at h ⊢
    cases h
    exact ⟨rfl, hadd, rfl⟩
  · right; right
    rw [if_neg hsub] at h ⊢
    cases h
    refine ⟨rfl, fun hm => hmem (List.contains_iff_mem.mpr hm), not_not.mp hkfkt, rfl,
      not_not.mp herr, not_not.mp hlist, ?_, not_not.mp hsub⟩
    by_contra hno
    exact hunsub (by grind)

/-- What `kfkTopicConsumeStop` can do: nothing, to move the topic to the end, to lose all, or to
take the topic away. -/
theorem consumeStop_cases {topic : Bytes} {env : ChangeEnv}
    (h : p.stopSubscription topic env subscription = some subscription') :
    ((p.consumeStop topic env).1.topics_ = p.topics_ ∧ subscription' = subscription ∧
      ((p.consumeStop topic env).2 = 0 → p.topics_ = [])) ∨
    ((p.consumeStop topic env).1.topics_ = p.topics_.erase topic ++ [topic] ∧ topic ∈ p.topics_ ∧
      subscription' = subscription ∧ (p.consumeStop topic env).2 ≠ 0) ∨
    ((p.consumeStop topic env).1.topics_ = [] ∧ subscription' = []) ∨
    ((p.consumeStop topic env).1.topics_ = p.topics_.erase topic ∧ topic ∈ p.topics_ ∧
      subscription' = (p.topics_.erase topic).map cstr) := by
  obtain ⟨htransmit, hmodule, -, hadd⟩ := refusals_ne_zero
  unfold stopSubscription at h
  by_cases hnil : p.topics_ = []
  · left
    rw [if_pos hnil] at h
    cases h
    simp [consumeStop, kfkTopicConsumeStopFlag, hnil]
  rw [if_neg hnil] at h
  by_cases herr : p.errorFlag ≠ 0
  · left
    rw [if_pos herr] at h
    cases h
    simp [consumeStop, kfkTopicConsumeStopFlag, hnil, herr]
  have hcall : p.consumeStop topic env
      = ({ p with switchFlag := 1 } : ZooKfkTopicsPop).kfkTopicConsumeStop topic env := by
    simp [consumeStop, kfkTopicConsumeStopFlag, hnil, herr]
  rw [if_neg herr] at h
  rw [hcall]
  unfold kfkTopicConsumeStop
  by_cases hmem : ¬ p.topics_.contains topic
  · left
    rw [if_pos hmem] at h ⊢
    cases h
    exact ⟨rfl, rfl, fun h0 => absurd h0 htransmit⟩
  have hin : topic ∈ p.topics_ := List.contains_iff_mem.mp (not_not.mp hmem)
  rw [if_neg hmem] at h ⊢
  by_cases hlast : p.topics_.erase topic = []
  · rw [if_pos hlast] at h ⊢
    by_cases hkfkt : ¬ p.kfkt
    · rw [if_pos hkfkt] at h
      cases h
    rw [if_neg hkfkt] at h
    by_cases hunsub : env.unsubscribe ≠ 0
    · right; left
      rw [if_pos hunsub] at h ⊢
      cases h
      refine ⟨?_, hin, rfl, hadd⟩
      rw [hlast]
      rfl
    · right; right; left
      rw [if_neg hunsub] at h ⊢
      cases h
      exact ⟨hlast, rfl⟩
  rw [if_neg hlast] at h ⊢
  by_cases hlist : ¬ env.listNew
  · right; left
    rw [if_pos hlist] at h ⊢
    cases h
    exact ⟨rfl, hin, rfl, hmodule⟩
  rw [if_neg hlist] at h ⊢
  by_cases hkfkt : ¬ p.kfkt
  · rw [if_pos hkfkt] at h
    cases h
  rw [if_neg hkfkt] at h
  by_cases hunsub : env.unsubscribe ≠ 0
  · right; left
    rw [if_pos hunsub] at h ⊢
    cases h
    exact ⟨rfl, hin, rfl, hadd⟩
  rw [if_neg hunsub] at h ⊢
  by_cases hsub : env.subscribe ≠ 0
  · right; right; left
    rw [if_pos hsub] at h ⊢
    cases h
    exact ⟨rfl, rfl⟩
  · right; right; right
    rw [if_neg hsub] at h ⊢
    cases h
    exact ⟨rfl, hin, rfl⟩

/-- No call leaves the flag set, and only `kfkInit` touches `initFlag` and `kfkt`. -/
theorem consumeStart_flags (hp : p.switchFlag = 0) (topic : Bytes) (env : ChangeEnv) :
    (p.consumeStart topic env).1.switchFlag = 0 ∧
    (p.consumeStart topic env).1.initFlag = p.initFlag ∧
    (p.consumeStart topic env).1.kfkt = p.kfkt := by
  unfold consumeStart kfkTopicConsumeStartFlag kfkTopicConsumeStart
  repeat' split
  all_goals first | exact ⟨hp, rfl, rfl⟩ | grind [changeError]

theorem consumeStop_flags (hp : p.switchFlag = 0) (topic : Bytes) (env : ChangeEnv) :
    (p.consumeStop topic env).1.switchFlag = 0 ∧
    (p.consumeStop topic env).1.initFlag = p.initFlag ∧
    (p.consumeStop topic env).1.kfkt = p.kfkt := by
  unfold consumeStop kfkTopicConsumeStopFlag kfkTopicConsumeStop
  repeat' split
  all_goals first | exact ⟨hp, rfl, rfl⟩ | grind [changeError]

end ZooKfkTopicsPop

/-! ## The books -/

/-- `topics` are the names of the subscription, each once, and C strings. -/
structure Books (topics subscription : List Bytes) : Prop where
  names : ∀ name, name ∈ topics ↔ name ∈ subscription
  once : topics.Nodup
  nul : ∀ name ∈ topics, 0 ∉ name

namespace Books

variable {topics topics' : List Bytes}

theorem nil : Books [] [] := ⟨fun _ => Iff.rfl, List.nodup_nil, by simp⟩

/-- librdkafka gets the names as C strings. -/
theorem subscribed (honce : topics.Nodup) (hnul : ∀ name ∈ topics, 0 ∉ name) :
    Books topics (topics.map cstr) := by
  rw [map_cstr_eq_self hnul]
  exact ⟨fun _ => Iff.rfl, honce, hnul⟩

theorem perm (hb : Books topics subscription) (hp : topics'.Perm topics) :
    Books topics' subscription where
  names name := hp.mem_iff.trans (hb.names name)
  once := hp.nodup_iff.mpr hb.once
  nul := by
    intro name hname
    exact hb.nul name (hp.mem_iff.mp hname)

theorem append (hb : Books topics subscription) {topic : Bytes} (hnew : topic ∉ topics)
    (hnul : 0 ∉ topic) : Books (topics ++ [topic]) ((topics ++ [topic]).map cstr) := by
  apply subscribed
  · rw [← List.concat_eq_append]
    exact hb.once.concat hnew
  · intro name hname
    rcases List.mem_append.mp hname with hname | hname
    · exact hb.nul name hname
    · rw [List.mem_singleton.mp hname]
      exact hnul

theorem erase (hb : Books topics subscription) (topic : Bytes) :
    Books (topics.erase topic) ((topics.erase topic).map cstr) :=
  subscribed (hb.once.erase topic) fun name hname => hb.nul name (List.mem_of_mem_erase hname)

theorem subscription_eq_nil (hb : Books [] subscription) : subscription = [] := by
  rw [List.eq_nil_iff_forall_not_mem]
  intro name hname
  exact absurd ((hb.names name).mpr hname) List.not_mem_nil

end Books

/-! ## The invariant -/

/-- The books are right, the names are C strings, and nothing is there before `kfkInit`. -/
structure SubscribeInv (s : SubscribeState) : Prop where
  bookkept : Bookkept s
  nul : ∀ name ∈ s.p.topics_, 0 ∉ name
  fresh : s.p.initFlag = 0 → s.p.topics_ = [] ∧ s.p.kfkt = false

namespace SubscribeInv

variable {s s' : SubscribeState} {topic : Bytes} {env : ChangeEnv} {r : ZooKfkTopicsPop × Int}

theorem books (hi : SubscribeInv s) : Books s.p.topics_ s.subscription :=
  ⟨hi.bookkept.names, hi.bookkept.once, hi.nul⟩

theorem init : SubscribeInv subscribeSystem.init where
  bookkept := by constructor <;> simp [subscribeSystem, ZooKfkTopicsPop.new]
  nul := by simp [subscribeSystem, ZooKfkTopicsPop.new]
  fresh := fun _ => ⟨rfl, rfl⟩

/-- A call of `kfkInit` that has come back; its result says nothing about one topic. -/
theorem back_init (hb : Books r.1.topics_ subscription) (hswitch : r.1.switchFlag = 0)
    (hfresh : r.1.initFlag = 0 → r.1.topics_ = [] ∧ r.1.kfkt = false)
    (brokers topic groupName : Bytes) (env : PopEnv) :
    SubscribeInv (.back (.kfkInit brokers topic groupName env) r subscription) where
  bookkept := by
    refine ⟨hb.names, hb.once, ?_, ?_, hswitch⟩
    · intro topic' env' hlast
      cases hlast
    · intro topic' env' hlast
      cases hlast
  nul := hb.nul
  fresh := hfresh

theorem back_start (hb : Books r.1.topics_ subscription) (hret : r.2 = 0 → topic ∈ subscription)
    (hswitch : r.1.switchFlag = 0)
    (hfresh : r.1.initFlag = 0 → r.1.topics_ = [] ∧ r.1.kfkt = false) :
    SubscribeInv (.back (.start topic env) r subscription) where
  bookkept := by
    refine ⟨hb.names, hb.once, ?_, ?_, hswitch⟩
    · intro topic' env' hlast
      simp only [SubscribeState.back, Option.some.injEq, Prod.mk.injEq, SubscribeCall.start.injEq]
        at hlast
      obtain ⟨⟨rfl, -⟩, h0⟩ := hlast
      exact hret h0
    · intro topic' env' hlast
      simp [SubscribeState.back] at hlast
  nul := hb.nul
  fresh := hfresh

theorem back_stop (hb : Books r.1.topics_ subscription) (hret : r.2 = 0 → topic ∉ subscription)
    (hswitch : r.1.switchFlag = 0)
    (hfresh : r.1.initFlag = 0 → r.1.topics_ = [] ∧ r.1.kfkt = false) :
    SubscribeInv (.back (.stop topic env) r subscription) where
  bookkept := by
    refine ⟨hb.names, hb.once, ?_, ?_, hswitch⟩
    · intro topic' env' hlast
      simp [SubscribeState.back] at hlast
    · intro topic' env' hlast
      simp only [SubscribeState.back, Option.some.injEq, Prod.mk.injEq, SubscribeCall.stop.injEq]
        at hlast
      obtain ⟨⟨rfl, -⟩, h0⟩ := hlast
      exact hret h0
  nul := hb.nul
  fresh := hfresh

theorem kfkInit (hi : SubscribeInv s) {brokers topic groupName : Bytes} {env : PopEnv}
    (hc : Regular s (.kfkInit brokers topic groupName env))
    (h : s.next (.kfkInit brokers topic groupName env) = some s') : SubscribeInv s' := by
  cases h
  rcases s.p.kfkInit_cases brokers topic groupName env with ⟨hs, heq⟩ | ⟨hs, htopics, hflag, hrest⟩
  · -- nothing was there before
    have hnil := (hi.fresh hs.2.1).1
    obtain ⟨hnodup, hok⟩ := hc hs
    have hsub : s.p.initSubscription brokers topic groupName env s.subscription
        = (str2Vec topic 44).map cstr := if_pos ⟨hs, hok⟩
    apply back_init
    · rw [hsub, heq, hnil, List.nil_append]
      exact .subscribed hnodup fun name hname => zero_notMem_str2Vec hname
    · rw [heq]
      exact hi.bookkept.switchFlag
    · intro h0
      rw [heq] at h0
      cases h0
  · have hsub : s.p.initSubscription brokers topic groupName env s.subscription
        = s.subscription := if_neg fun hh => hs hh.1
    apply back_init
    · rw [hsub, htopics]
      exact hi.books
    · rw [hflag]
      exact hi.bookkept.switchFlag
    · intro h0
      rcases hrest with heq | hinit
      · rw [heq] at h0 ⊢
        exact hi.fresh h0
      · rw [hinit] at h0
        exact absurd h0 (by decide)

theorem start (hi : SubscribeInv s) (hc : Regular s (.start topic env))
    (h : s.next (.start topic env) = some s') : SubscribeInv s' := by
  obtain ⟨subscription', hsub, rfl⟩ := Option.map_eq_some_iff.mp h
  obtain ⟨hswitch, hinit, hkfkt⟩ :=
    ZooKfkTopicsPop.consumeStart_flags hi.bookkept.switchFlag topic env
  have hfresh : s.p.initFlag = 0 → (s.p.consumeStart topic env).1.topics_ = [] →
      (s.p.consumeStart topic env).1.topics_ = [] ∧ (s.p.consumeStart topic env).1.kfkt = false :=
    fun h0 hnil => ⟨hnil, hkfkt.trans (hi.fresh h0).2⟩
  rcases ZooKfkTopicsPop.consumeStart_cases hsub with ⟨htopics, rfl, hret⟩ | ⟨htopics, hret, rfl⟩ |
    ⟨htopics, hnew, hhandle, rfl, hreach⟩
  · refine back_start (htopics ▸ hi.books) ?_ hswitch ?_
    · exact fun h0 => (hi.bookkept.names _).mp (hret h0)
    · intro h0
      have h0 : s.p.initFlag = 0 := hinit.symm.trans h0
      exact hfresh h0 (htopics.trans (hi.fresh h0).1)
  · have hnone : (if s.p.topics_ ≠ [] then [] else s.subscription) = [] := by
      split
      · rfl
      · rename_i hnil
        have hbooks : Books [] s.subscription := not_not.mp hnil ▸ hi.books
        exact hbooks.subscription_eq_nil
    refine back_start ?_ (fun h0 => absurd h0 hret) hswitch ?_
    · rw [htopics, hnone]
      exact .nil
    · intro h0
      exact hfresh (hinit.symm.trans h0) htopics
  · have hbooks := hi.books.append hnew (hc hreach)
    refine back_start (htopics ▸ hbooks) ?_ hswitch ?_
    · intro _
      exact (hbooks.names topic).mp (List.mem_append_right _ List.mem_cons_self)
    · -- there is a consumer, so `kfkInit` was there
      intro h0
      have := (hi.fresh (hinit.symm.trans h0)).2
      rw [this] at hhandle
      cases hhandle

theorem stop (hi : SubscribeInv s) (h : s.next (.stop topic env) = some s') : SubscribeInv s' := by
  obtain ⟨subscription', hsub, rfl⟩ := Option.map_eq_some_iff.mp h
  obtain ⟨hswitch, hinit, hkfkt⟩ :=
    ZooKfkTopicsPop.consumeStop_flags hi.bookkept.switchFlag topic env
  -- before `kfkInit` there is nothing to stop
  have hfresh : (∀ name ∈ (s.p.consumeStop topic env).1.topics_, name ∈ s.p.topics_) →
      (s.p.consumeStop topic env).1.initFlag = 0 →
      (s.p.consumeStop topic env).1.topics_ = [] ∧ (s.p.consumeStop topic env).1.kfkt = false := by
    intro hsubset h0
    obtain ⟨hnil, hnone⟩ := hi.fresh (hinit.symm.trans h0)
    refine ⟨List.eq_nil_iff_forall_not_mem.mpr ?_, hkfkt.trans hnone⟩
    intro name hname
    have := hsubset name hname
    rw [hnil] at this
    exact absurd this List.not_mem_nil
  rcases ZooKfkTopicsPop.consumeStop_cases hsub with ⟨htopics, rfl, hret⟩ |
    ⟨htopics, hmem, rfl, hret⟩ | ⟨htopics, rfl⟩ | ⟨htopics, hmem, rfl⟩
  · refine back_stop (htopics ▸ hi.books) ?_ hswitch ?_
    · intro h0
      have hbooks : Books [] s.subscription := hret h0 ▸ hi.books
      rw [hbooks.subscription_eq_nil]
      exact List.not_mem_nil
    · exact hfresh fun name hname => htopics ▸ hname
  · -- the topic has gone to the end
    have hperm : (s.p.topics_.erase topic ++ [topic]).Perm s.p.topics_ :=
      List.perm_append_comm.trans (List.perm_cons_erase hmem).symm
    refine back_stop (htopics ▸ hi.books.perm hperm) (fun h0 => absurd h0 hret) hswitch ?_
    apply hfresh
    intro name hname
    rw [htopics] at hname
    exact hperm.mem_iff.mp hname
  · refine back_stop (htopics ▸ .nil) (fun _ => List.not_mem_nil) hswitch ?_
    apply hfresh
    simp [htopics]
  · have hbooks := hi.books.erase topic
    refine back_stop (htopics ▸ hbooks) ?_ hswitch ?_
    · -- it was there once
      intro _ hsub
      exact hi.bookkept.once.not_mem_erase ((hbooks.names topic).mpr hsub)
    · apply hfresh
      intro name hname
      rw [htopics] at hname
      exact List.mem_of_mem_erase hname

theorem next (hi : SubscribeInv s) {call : SubscribeCall} (hc : Regular s call)
    (h : s.next call = some s') : SubscribeInv s' := by
  cases call with
  | kfkInit brokers topic groupName env => exact hi.kfkInit hc h
  | start topic env => exact hi.start hc h
  | stop topic env => exact hi.stop h

end SubscribeInv

end

/-- In every run of regular calls: `topics_` is the subscription, and the results say so. -/
theorem subscribe_bookkept (s : SubscribeState) (h : (subscribeSystem.only Regular).Reach s) :
    Bookkept s :=
  (Sys.Reach.inv_only SubscribeInv.init (fun _ _ _ hi hc hs => hi.next hc hs) h).bookkept

/-- Nothing fails but the subscription of `kfkInit`, which has the code `subscribe`. -/
def initEnv (subscribe : Int) : PopEnv :=
  ⟨true, 1, [98], true, true, true, true, true, 1, true, subscribe⟩

/-- `kfkInit` with the topics `a` and `b`, then `c` comes, `d` fails and `b` goes. -/
def startAndStop : List SubscribeCall :=
  [.kfkInit [98] [97, 44, 98] [] (initEnv 0), .start [99] ⟨true, 0, 0⟩, .stop [98] ⟨true, 0, 0⟩,
    .start [100] ⟨true, -1, 0⟩]

theorem subscribe_bookkept_startAndStop : ∃ s, (subscribeSystem.only Regular).run
    (subscribeSystem.only Regular).init startAndStop = some s ∧ s.subscription = [[97], [99]] ∧
    s.p.errorFlag = KAFKA_CONSUMER_ADDTOPIC_ERROR ∧ Bookkept s :=
  ⟨_, rfl, rfl, rfl, subscribe_bookkept _ (Sys.Reach.init.run startAndStop rfl)⟩

/-- `kfkInit` with the topics `a,a`: the second `a` stays when `kfkTopicConsumeStop` returns 0. -/
def topicTwice : List SubscribeCall :=
  [.kfkInit [98] [97, 44, 97] [] (initEnv 0), .stop [97] ⟨true, 0, 0⟩]

/-- `kfkInit` fails to subscribe to `a`, and then `kfkTopicConsumeStart` returns 0 for it. -/
def initFails : List SubscribeCall :=
  [.kfkInit [98] [97] [] (initEnv (-1)), .start [97] ⟨true, 0, 0⟩]

theorem topic_still_subscribed : (∃ s, subscribeSystem.Reach s ∧
      s.last = some (.stop [97] ⟨true, 0, 0⟩, 0) ∧ [97] ∈ s.subscription ∧ ¬ Bookkept s) ∧
    ∃ s, subscribeSystem.Reach s ∧ s.last = some (.start [97] ⟨true, 0, 0⟩, 0) ∧
      [97] ∉ s.subscription ∧ ¬ Bookkept s := by
  constructor
  · obtain ⟨s, hrun, hlast, hmem⟩ : ∃ s, subscribeSystem.run subscribeSystem.init topicTwice = some s
        ∧ s.last = some (.stop [97] ⟨true, 0, 0⟩, 0) ∧ [97] ∈ s.subscription :=
      ⟨_, rfl, rfl, by decide⟩
    exact ⟨s, Sys.Reach.init.run _ hrun, hlast, hmem, fun hb => hb.stopped _ _ hlast hmem⟩
  · obtain ⟨s, hrun, hlast, hmem⟩ : ∃ s, subscribeSystem.run subscribeSystem.init initFails = some s
        ∧ s.last = some (.start [97] ⟨true, 0, 0⟩, 0) ∧ [97] ∉ s.subscription :=
      ⟨_, rfl, rfl, by decide⟩
    exact ⟨s, Sys.Reach.init.run _ hrun, hlast, hmem, fun hb => hmem (hb.started _ _ hlast)⟩

end Zookafka
end CmakeFrame
