import CmakeFrame.Lib.Padded
import CmakeFrame.Lib.Search
import CmakeFrame.Lib.Sys
import Mathlib.Data.List.Perm.Basic
import Mathlib.Data.List.Nodup

/-!
# `zookafka/src/ZooKfkTopicsGet.cpp`: the topics that are consumed

`topicPtrMap` maps the text "topic,partition" to the handle of librdkafka. `kfkTopicConsumeStop` destroys
the handle that it finds and leaves the entry; `kfkDestroy` stops and destroys every handle of the map and
reads the partition back from the text. `get` takes the lock only to find its handle.

* `topicKey`, `keyPartition`: the text; `topicKey_inj`, `keyPartition_topicKey`: what it says.
* `getSystem`: `kfkTopicConsumeStart`, `get`, `kfkTopicConsumeStop` and `kfkDestroy` in any number of
  threads, behind a `kfkInit` that succeeded.
* `Sound`: nothing was used behind its end, and nothing that is still to be used has ended.
* `Kept`: the condition on a step; `sound_iff`: a run is sound exactly when all its steps meet it.
* `consumed_balanced`: in such a run, what was started is stopped and destroyed once, with the partition
  that it was started with.
-/

namespace CmakeFrame
namespace Zookafka
namespace TopicsGet

open Lib

/-! ## The keys -/

/-- `sprintf(topicKeyBuf, "%s,%d", topic.c_str(), partition)` -/
def topicKey (topic : Bytes) (partition : Int32) : Bytes :=
  cstr topic ++ 44 :: intDec partition.toInt

/-- `kfkDestroy`: the number behind the first comma, if there is one. -/
def keyPartition (key : Bytes) : Option Int32 :=
  (findByte 44 key).map fun i => atoi (key.drop (i + 1))

/-- The text fits into `topicKeyBuf`. -/
def Fits (topic : Bytes) (partition : Int32) : Prop := (topicKey topic partition).length < 64

instance (topic : Bytes) (partition : Int32) : Decidable (Fits topic partition) := by
  unfold Fits
  infer_instance

/-! ## The calls -/

/-- What librdkafka answers to `kfkTopicConsumeStart`. -/
inductive StartEnv
  | noConf
  | noTopic
  | startError
  | ok
  deriving DecidableEq

/-- What `rd_kafka_consume` answers. -/
inductive Consumed
  | timeout
  | error
  | message
  deriving DecidableEq

/-- The handles are numbered in the order in which `rd_kafka_topic_new` returned them; `made` is how many
there were. `getting` are the calls of `get` in their loop, each with its handle and what it asks for.
`started`, `consumed`, `stopped` and `destroyed` are the calls of librdkafka, and `misused` is a use of a
handle or of `kfkt` behind its end, or a write behind the end of `topicKeyBuf`; these are history. -/
structure GetState where
  topicPtrMap : List (Bytes × Nat)
  kfktDestroyed : Bool
  getting : List (Nat × Bytes × Int32)
  made : Nat
  started : List (Nat × Bytes × Int32)
  consumed : List (Nat × Bytes × Int32)
  stopped : List (Nat × Int32)
  destroyed : List Nat
  misused : Bool

inductive GetAct
  | start (topic : Bytes) (partition : Int32) (env : StartEnv)
  | get (topic : Bytes) (partition : Int32)
  /-- One turn of the loop of `get`. -/
  | consume (call : Nat × Bytes × Int32) (answer : Consumed)
  | stop (topic : Bytes) (partition : Int32)
  | destroy

namespace GetState

/-- The handles that the map holds. -/
def held (s : GetState) : List Nat := s.topicPtrMap.map Prod.snd

/-- `topicPtrMap.find` -/
def find (s : GetState) (topic : Bytes) (partition : Int32) : Option Nat :=
  (s.topicPtrMap.find? fun e => e.1 = topicKey topic partition).map Prod.snd

def noteMisuse (s : GetState) (bad : Bool) : GetState := { s with misused := s.misused || bad }

def kfkTopicConsumeStart (s : GetState) (topic : Bytes) (partition : Int32) (env : StartEnv) :
    GetState :=
  let s := s.noteMisuse (decide (¬ Fits topic partition))
  match s.find topic partition with
  | some _ => s
  | none =>
    match env with
    | .noConf => s
    | .noTopic => s.noteMisuse s.kfktDestroyed
    | .startError => noteMisuse { s with made := s.made + 1 } s.kfktDestroyed
    | .ok => noteMisuse { s with
        made := s.made + 1
        topicPtrMap := s.topicPtrMap ++ [(topicKey topic partition, s.made)]
        started := s.started ++ [(s.made, cstr topic, partition)] } s.kfktDestroyed

/-- `get` up to its loop. -/
def get (s : GetState) (topic : Bytes) (partition : Int32) : GetState :=
  let s := s.noteMisuse (decide (¬ Fits topic partition))
  match s.find topic partition with
  | none => s
  | some h => { s with getting := (h, cstr topic, partition) :: s.getting }

def consume (s : GetState) (call : Nat × Bytes × Int32) (answer : Consumed) : GetState :=
  noteMisuse { s with
    consumed := s.consumed ++ [call]
    getting := if answer = .message then s.getting.erase call else s.getting }
    (s.destroyed.contains call.1)

def kfkTopicConsumeStop (s : GetState) (topic : Bytes) (partition : Int32) : GetState :=
  let s := s.noteMisuse (decide (¬ Fits topic partition))
  match s.find topic partition with
  | none => s
  | some h => noteMisuse { s with
      stopped := s.stopped ++ [(h, partition)]
      destroyed := s.destroyed ++ [h] } (s.destroyed.contains h)

def kfkDestroy (s : GetState) : GetState :=
  -- the loop, in the order of the map
  let ends := s.topicPtrMap.filterMap fun e => (keyPartition e.1).map fun partition => (e.2, partition)
  noteMisuse { s with
    stopped := s.stopped ++ ends
    destroyed := s.destroyed ++ ends.map Prod.fst
    topicPtrMap := []
    kfktDestroyed := true }
    (s.kfktDestroyed || ends.any fun e => s.destroyed.contains e.1)

def next (s : GetState) : GetAct → Option GetState
  | .start topic partition env => some (s.kfkTopicConsumeStart topic partition env)
  | .get topic partition => some (s.get topic partition)
  | .consume call answer => if s.getting.contains call then some (s.consume call answer) else none
  | .stop topic partition => some (s.kfkTopicConsumeStop topic partition)
  | .destroy => some s.kfkDestroy

end GetState

def getSystem : Sys GetState GetAct where
  init := ⟨[], false, [], 0, [], [], [], [], false⟩
  next := GetState.next

/-- Nothing was used behind its end, and no handle that the map holds or that a `get` uses has been
destroyed. -/
structure Sound (s : GetState) : Prop where
  unused : s.misused = false
  held : ∀ h ∈ s.held, h ∉ s.destroyed
  getting : ∀ call ∈ s.getting, call.1 ∉ s.destroyed

/-- The condition on a step: the text fits, `kfkTopicConsumeStop` does not find its topic, and
`kfkDestroy` is the end. -/
def Kept (s : GetState) : GetAct → Prop
  | .start topic partition env =>
    Fits topic partition ∧
      (s.kfktDestroyed = true → s.find topic partition ≠ none ∨ env = .noConf)
  | .get topic partition => Fits topic partition
  | .consume _ _ => True
  | .stop topic partition => Fits topic partition ∧ s.find topic partition = none
  | .destroy => s.kfktDestroyed = false ∧ s.getting = []

instance (s : GetState) (a : GetAct) : Decidable (Kept s a) := by
  cases a <;> unfold Kept <;> infer_instance

/-- No topic has a comma. -/
def Plain (s : GetState) (a : GetAct) : Prop :=
  Kept s a ∧
  match a with
  | .start topic _ _ => 44 ∉ topic
  | _ => True

instance (s : GetState) (a : GetAct) : Decidable (Plain s a) := by
  cases a <;> unfold Plain <;> infer_instance

/-! ## What the text says -/

theorem comma_notMem_intDec (z : Int) : (44 : UInt8) ∉ intDec z := by
  intro h
  rcases mem_intDec h with h | h
  · exact absurd h (by decide)
  · exact absurd h (by decide)

theorem endsNumber_nil : EndsNumber [] := nofun

/-- The text determines the topic and the partition, whatever commas the topic has. -/
theorem topicKey_inj {topic topic' : Bytes} {partition partition' : Int32}
    (h : topicKey topic partition = topicKey topic' partition') :
    cstr topic = cstr topic' ∧ partition = partition' := by
  -- the partition stands behind the last comma
  obtain ⟨htopic, hdec⟩ := last_separator (comma_notMem_intDec _) (comma_notMem_intDec _) h
  refine ⟨htopic, ?_⟩
  rw [← atoi_intDec partition endsNumber_nil, hdec, atoi_intDec partition' endsNumber_nil]

/-- `kfkDestroy` finds the partition if the topic has no comma. -/
theorem keyPartition_topicKey {topic : Bytes} (h : 44 ∉ topic) (partition : Int32) :
    keyPartition (topicKey topic partition) = some partition := by
  have hc : (44 : UInt8) ∉ cstr topic := fun hm => h (List.takeWhile_subset _ hm)
  have hdrop : (cstr topic ++ 44 :: intDec partition.toInt).drop ((cstr topic).length + 1) =
      intDec partition.toInt := by
    rw [← List.drop_drop, List.drop_left]
    rfl
  rw [keyPartition, topicKey, findByte_append hc, Option.map_some, hdrop]
  have := atoi_intDec partition endsNumber_nil
  rw [List.append_nil] at this
  rw [this]

theorem keyPartition_isSome (topic : Bytes) (partition : Int32) :
    (keyPartition (topicKey topic partition)).isSome = true := by
  rw [keyPartition, Option.isSome_map, Option.isSome_iff_ne_none, ne_eq, findByte_eq_none]
  simp [topicKey]

/-! ## When a run is sound -/

namespace GetState

variable {s s' : GetState} {topic : Bytes} {partition : Int32}

theorem find_eq_some {h : Nat} (hf : s.find topic partition = some h) :
    (topicKey topic partition, h) ∈ s.topicPtrMap := by
  obtain ⟨e, he, rfl⟩ := Option.map_eq_some_iff.mp hf
  have hkey : e.1 = topicKey topic partition := by simpa using List.find?_some he
  rw [← hkey]
  exact List.mem_of_find?_eq_some he

/-- Every text of the map is one of `sprintf`, and a handle that a `get` uses is in the map or destroyed. -/
structure Tracked (s : GetState) : Prop where
  keys : ∀ e ∈ s.topicPtrMap, ∃ topic partition, e.1 = topicKey topic partition
  held : ∀ h ∈ s.held, h < s.made
  destroyed : ∀ h ∈ s.destroyed, h < s.made
  getting : ∀ call ∈ s.getting, call.1 ∈ s.held ∨ call.1 ∈ s.destroyed

/-- What `kfkDestroy` stops: each handle with the partition of its text. -/
def ends (s : GetState) : List (Nat × Int32) :=
  s.topicPtrMap.filterMap fun e => (keyPartition e.1).map fun partition => (e.2, partition)

/-- It stops all of them. -/
theorem Tracked.ends_fst (hs : Tracked s) : s.ends.map Prod.fst = s.held := by
  obtain ⟨hkeys, -⟩ := hs
  unfold ends GetState.held
  generalize s.topicPtrMap = es at hkeys
  induction es with
  | nil => rfl
  | cons e es ih =>
    obtain ⟨topic, partition, hk⟩ := hkeys e (by simp)
    obtain ⟨p, hp⟩ := Option.isSome_iff_exists.mp (keyPartition_isSome topic partition)
    rw [← hk] at hp
    rw [List.filterMap_cons_some (by rw [hp]; rfl), List.map_cons, List.map_cons]
    rw [ih fun e' he' => hkeys e' (List.mem_cons_of_mem _ he')]

theorem tracked_noteMisuse {bad : Bool} : Tracked (s.noteMisuse bad) ↔ Tracked s :=
  ⟨fun h => ⟨h.keys, h.held, h.destroyed, h.getting⟩, fun h => ⟨h.keys, h.held, h.destroyed, h.getting⟩⟩

theorem sound_noteMisuse {bad : Bool} : Sound (s.noteMisuse bad) ↔ bad = false ∧ Sound s := by
  constructor
  · intro h
    obtain ⟨h1, h2⟩ : s.misused = false ∧ bad = false := by simpa [noteMisuse] using h.unused
    exact ⟨h2, h1, h.held, h.getting⟩
  · rintro ⟨rfl, h⟩
    exact ⟨by simp [noteMisuse, h.unused], h.held, h.getting⟩

theorem sound_fits : Sound (s.noteMisuse (decide (¬ Fits topic partition))) ↔
    Fits topic partition ∧ Sound s := by
  rw [sound_noteMisuse, decide_eq_false_iff_not, not_not]

/-- A new topic. -/
def insertTopic (s : GetState) (topic : Bytes) (partition : Int32) : GetState :=
  { s with
    made := s.made + 1
    topicPtrMap := s.topicPtrMap ++ [(topicKey topic partition, s.made)]
    started := s.started ++ [(s.made, cstr topic, partition)] }

theorem Tracked.insertTopic (hs : Tracked s) : Tracked (s.insertTopic topic partition) where
  keys e he := by
    rcases List.mem_append.mp he with he | he
    · exact hs.keys e he
    · obtain rfl := List.mem_singleton.mp he
      exact ⟨topic, partition, rfl⟩
  held h hh := by
    simp only [GetState.held, GetState.insertTopic, List.map_append, List.mem_append] at hh ⊢
    rcases hh with hh | hh
    · exact Nat.lt_succ_of_lt (hs.held h hh)
    · obtain rfl : h = s.made := by simpa using hh
      exact Nat.lt_succ_self _
  destroyed h hh := Nat.lt_succ_of_lt (hs.destroyed h hh)
  getting call hcall := by
    simp only [GetState.held, GetState.insertTopic, List.map_append, List.mem_append]
    rcases hs.getting call hcall with h | h
    · exact .inl (.inl h)
    · exact .inr h

theorem sound_insertTopic (hs : Tracked s) : Sound (s.insertTopic topic partition) ↔ Sound s := by
  have hnew : s.made ∉ s.destroyed := fun h => Nat.lt_irrefl _ (hs.destroyed _ h)
  constructor
  · intro h
    refine ⟨h.unused, fun x hx => h.held x ?_, h.getting⟩
    simp only [held, GetState.insertTopic, List.map_append, List.mem_append]
    exact .inl hx
  · intro h
    refine ⟨h.unused, fun x hx => ?_, h.getting⟩
    simp only [held, GetState.insertTopic, List.map_append, List.mem_append] at hx
    rcases hx with hx | hx
    · exact h.held x hx
    · obtain rfl : x = s.made := by simpa using hx
      exact hnew

theorem Tracked.next {a : GetAct} (hs : Tracked s) (h : s.next a = some s') : Tracked s' := by
  cases a with
  | start topic partition env =>
    cases h
    simp only [kfkTopicConsumeStart]
    split
    · exact tracked_noteMisuse.mpr hs
    · cases env with
      | noConf => exact tracked_noteMisuse.mpr hs
      | noTopic => exact tracked_noteMisuse.mpr (tracked_noteMisuse.mpr hs)
      | startError =>
        refine tracked_noteMisuse.mpr ⟨hs.keys, fun h hh => ?_, fun h hh => ?_, hs.getting⟩
        · exact Nat.lt_succ_of_lt (hs.held h hh)
        · exact Nat.lt_succ_of_lt (hs.destroyed h hh)
      | ok => exact tracked_noteMisuse.mpr (tracked_noteMisuse.mpr hs).insertTopic
  | get topic partition =>
    cases h
    simp only [GetState.get]
    split
    · exact tracked_noteMisuse.mpr hs
    · rename_i h hf
      refine ⟨hs.keys, hs.held, hs.destroyed, fun call hcall => ?_⟩
      rcases List.mem_cons.mp hcall with rfl | hcall
      · exact .inl (List.mem_map_of_mem (find_eq_some hf))
      · exact hs.getting call hcall
  | consume call answer =>
    simp only [GetState.next] at h
    split at h
    · cases h
      refine tracked_noteMisuse.mpr ⟨hs.keys, hs.held, hs.destroyed, fun c hc => hs.getting c ?_⟩
      dsimp only at hc
      split at hc
      · exact List.mem_of_mem_erase hc
      · exact hc
    · cases h
  | stop topic partition =>
    cases h
    simp only [kfkTopicConsumeStop]
    split
    · exact tracked_noteMisuse.mpr hs
    · rename_i h hf
      have hheld : h ∈ s.held := List.mem_map_of_mem (find_eq_some hf)
      refine tracked_noteMisuse.mpr ⟨hs.keys, hs.held, fun x hx => ?_, fun call hcall => ?_⟩
      · rcases List.mem_append.mp hx with hx | hx
        · exact hs.destroyed x hx
        · obtain rfl := List.mem_singleton.mp hx
          exact hs.held x hheld
      · exact (hs.getting call hcall).imp_right (List.mem_append_left _)
  | destroy =>
    cases h
    have hfst : (s.ends.map Prod.fst) = s.held := hs.ends_fst
    refine tracked_noteMisuse.mpr ⟨nofun, nofun, fun x hx => ?_, fun call hcall => .inr ?_⟩
    · rcases List.mem_append.mp hx with hx | hx
      · exact hs.destroyed x hx
      · exact hs.held x (hfst ▸ hx)
    · rcases hs.getting call hcall with h | h
      · exact List.mem_append_right _ (hfst.symm ▸ h)
      · exact List.mem_append_left _ h

theorem sound_made {n : Nat} : Sound { s with made := n } ↔ Sound s :=
  ⟨fun h => ⟨h.unused, h.held, h.getting⟩, fun h => ⟨h.unused, h.held, h.getting⟩⟩

/-- What the map holds and a call destroys is a handle that the map must not hold any more. -/
theorem not_sound_stop {h : Nat} (hf : s.find topic partition = some h) (bad : Bool) :
    ¬ Sound (noteMisuse { s with
      stopped := s.stopped ++ [(h, partition)], destroyed := s.destroyed ++ [h] } bad) :=
  fun hsound => hsound.held h (List.mem_map_of_mem (find_eq_some hf)) (by simp [noteMisuse])

theorem sound_kfkDestroy (hs : Tracked s) :
    Sound s.kfkDestroy ↔ (s.kfktDestroyed = false ∧ s.getting = []) ∧ Sound s := by
  have hfst : (s.ends.map Prod.fst) = s.held := hs.ends_fst
  have hmem : ∀ e ∈ s.ends, e.1 ∈ s.held := fun e he => hfst ▸ List.mem_map_of_mem he
  have hall : ∀ h ∈ s.held, h ∈ s.destroyed ++ s.ends.map Prod.fst := fun h hh =>
    List.mem_append_right _ (hfst.symm ▸ hh)
  change Sound (noteMisuse { s with
    stopped := s.stopped ++ s.ends, destroyed := s.destroyed ++ s.ends.map Prod.fst
    topicPtrMap := [], kfktDestroyed := true }
    (s.kfktDestroyed || s.ends.any fun e => s.destroyed.contains e.1)) ↔ _
  rw [sound_noteMisuse, Bool.or_eq_false_iff, List.any_eq_false]
  constructor
  · rintro ⟨⟨hdown, hany⟩, hsound⟩
    have hheld : ∀ h ∈ s.held, h ∉ s.destroyed := by
      intro h hh
      obtain ⟨e, he, rfl⟩ := List.mem_map.mp (hfst.symm ▸ hh)
      simpa using hany e he
    -- a call of `get` would use what has just been destroyed
    have hnone : s.getting = [] := by
      refine List.eq_nil_iff_forall_not_mem.mpr fun call hcall => hsound.getting call hcall ?_
      rcases hs.getting call hcall with h | h
      · exact hall _ h
      · exact List.mem_append_left _ h
    exact ⟨⟨hdown, hnone⟩, hsound.unused, hheld, fun call hcall => by simp [hnone] at hcall⟩
  · rintro ⟨⟨hdown, hnone⟩, hsound⟩
    refine ⟨⟨hdown, fun e he => ?_⟩, hsound.unused, nofun, fun call hcall => ?_⟩
    · simpa using hsound.held e.1 (hmem e he)
    · simp [hnone] at hcall

theorem sound_consume (call : Nat × Bytes × Int32) (answer : Consumed) (hcall : call ∈ s.getting) :
    Sound (s.consume call answer) ↔ Sound s := by
  rw [consume, sound_noteMisuse]
  constructor
  · rintro ⟨hlive, hsound⟩
    refine ⟨hsound.unused, hsound.held, fun c hc => ?_⟩
    by_cases heq : c = call
    · subst heq
      simpa using hlive
    · refine hsound.getting c ?_
      dsimp only
      split
      · exact (List.mem_erase_of_ne heq).mpr hc
      · exact hc
  · intro hsound
    refine ⟨by simpa using hsound.getting call hcall, hsound.unused, hsound.held, fun c hc => ?_⟩
    dsimp only at hc
    split at hc
    · exact hsound.getting c (List.mem_of_mem_erase hc)
    · exact hsound.getting c hc

/-- A step keeps a run sound exactly when it meets the condition. -/
theorem sound_step_iff {a : GetAct} (hs : Tracked s) (h : s.next a = some s') :
    Sound s' ↔ Kept s a ∧ Sound s := by
  cases a with
  | start topic partition env =>
    cases h
    have hfind : (s.noteMisuse (decide (¬ Fits topic partition))).find topic partition =
      s.find topic partition := rfl
    have hnew : (s.kfktDestroyed = true → (none : Option Nat) ≠ none ∨ env = .noConf) ↔
        s.kfktDestroyed = false ∨ env = .noConf := by
      cases s.kfktDestroyed <;> simp
    simp only [kfkTopicConsumeStart, Kept, hfind]
    cases hf : s.find topic partition with
    | some h =>
      rw [sound_fits]
      simp
    | none =>
      rw [hnew]
      cases env with
      | noConf =>
        rw [sound_fits]
        simp
      | noTopic =>
        rw [sound_noteMisuse, sound_fits, and_left_comm, and_assoc]
        simp [noteMisuse]
      | startError =>
        rw [sound_noteMisuse, sound_made, sound_fits, and_left_comm, and_assoc]
        simp [noteMisuse]
      | ok =>
        change Sound (noteMisuse ((s.noteMisuse (decide (¬ Fits topic partition))).insertTopic topic
          partition) s.kfktDestroyed) ↔ _
        rw [sound_noteMisuse, sound_insertTopic (tracked_noteMisuse.mpr hs), sound_fits, and_left_comm,
          and_assoc]
        simp
  | get topic partition =>
    cases h
    have hfind : (s.noteMisuse (decide (¬ Fits topic partition))).find topic partition =
      s.find topic partition := rfl
    simp only [GetState.get, Kept, hfind]
    cases hf : s.find topic partition with
    | none => exact sound_fits
    | some h =>
      have hheld : h ∈ s.held := List.mem_map_of_mem (find_eq_some hf)
      rw [← sound_fits]
      constructor
      · intro hsound
        exact ⟨hsound.unused, hsound.held, fun c hc => hsound.getting c (List.mem_cons_of_mem _ hc)⟩
      · intro hsound
        refine ⟨hsound.unused, hsound.held, fun c hc => ?_⟩
        rcases List.mem_cons.mp hc with rfl | hc
        · exact hsound.held h hheld
        · exact hsound.getting c hc
  | consume call answer =>
    simp only [GetState.next] at h
    split at h
    · rename_i hcall
      cases h
      rw [sound_consume call answer (by simpa using hcall), Kept, true_and]
    · cases h
  | stop topic partition =>
    cases h
    have hfind : (s.noteMisuse (decide (¬ Fits topic partition))).find topic partition =
      s.find topic partition := rfl
    simp only [kfkTopicConsumeStop, Kept, hfind]
    cases hf : s.find topic partition with
    | none =>
      rw [sound_fits]
      simp
    | some h =>
      exact iff_of_false (not_sound_stop (hfind.trans hf) _) fun hk => absurd hk.1.2 nofun
  | destroy =>
    cases h
    rw [sound_kfkDestroy hs, Kept]

/-! ## What was started ends -/

/-- What was started is in the map, with the partition of its text, or stopped and destroyed. -/
structure Booked (s : GetState) : Prop where
  entry : ∀ e ∈ s.topicPtrMap, ∃ topic partition, e.1 = topicKey topic partition ∧
    (e.2, cstr topic, partition) ∈ s.started
  ends : (s.ends ++ s.stopped).Perm (s.started.map fun x => (x.1, x.2.2))
  destroyed : s.destroyed = s.stopped.map Prod.fst
  made : ∀ x ∈ s.started, x.1 < s.made
  once : (s.started.map Prod.fst).Nodup
  getting : ∀ call ∈ s.getting, call ∈ s.started
  consumed : ∀ call ∈ s.consumed, call ∈ s.started
  empty : s.kfktDestroyed = true → s.topicPtrMap = []

theorem booked_noteMisuse {bad : Bool} (hs : Booked s) : Booked (s.noteMisuse bad) :=
  ⟨hs.entry, hs.ends, hs.destroyed, hs.made, hs.once, hs.getting, hs.consumed, hs.empty⟩

theorem ends_insertTopic (h : 44 ∉ topic) :
    (s.insertTopic topic partition).ends = s.ends ++ [(s.made, partition)] := by
  unfold ends GetState.insertTopic
  rw [List.filterMap_append, List.filterMap_cons_some (by rw [keyPartition_topicKey h]; rfl),
    List.filterMap_nil]

theorem Booked.insertTopic (hs : Booked s) (hcomma : 44 ∉ topic) (hup : s.kfktDestroyed = false) :
    Booked (s.insertTopic topic partition) where
  entry e he := by
    rcases List.mem_append.mp he with he | he
    · obtain ⟨t, p, hk, hmem⟩ := hs.entry e he
      exact ⟨t, p, hk, List.mem_append_left _ hmem⟩
    · obtain rfl := List.mem_singleton.mp he
      exact ⟨topic, partition, rfl, by simp [GetState.insertTopic]⟩
  ends := by
    rw [ends_insertTopic hcomma]
    simp only [GetState.insertTopic, List.map_append, List.map_cons, List.map_nil]
    refine List.Perm.trans ?_ (hs.ends.append_right [(s.made, partition)])
    rw [List.append_assoc, List.append_assoc]
    exact List.Perm.append_left _ List.perm_append_comm
  destroyed := hs.destroyed
  made x hx := by
    rcases List.mem_append.mp hx with hx | hx
    · exact Nat.lt_succ_of_lt (hs.made x hx)
    · obtain rfl := List.mem_singleton.mp hx
      exact Nat.lt_succ_self _
  once := by
    simp only [GetState.insertTopic, List.map_append, List.map_cons, List.map_nil]
    refine List.nodup_append'.mpr ⟨hs.once, List.nodup_singleton _, fun x hx hx' => ?_⟩
    obtain ⟨y, hy, rfl⟩ := List.mem_map.mp hx
    exact absurd (List.mem_singleton.mp hx') (hs.made y hy).ne
  getting call hcall := List.mem_append_left _ (hs.getting call hcall)
  consumed call hcall := List.mem_append_left _ (hs.consumed call hcall)
  empty hdown := absurd (hup.symm.trans hdown) nofun

theorem Booked.next {a : GetAct} (hs : Booked s) (hp : Plain s a) (h : s.next a = some s') :
    Booked s' := by
  cases a with
  | start topic partition env =>
    cases h
    obtain ⟨⟨-, hup⟩, hcomma⟩ := hp
    have hfind : (s.noteMisuse (decide (¬ Fits topic partition))).find topic partition =
      s.find topic partition := rfl
    simp only [kfkTopicConsumeStart, hfind]
    cases hf : s.find topic partition with
    | some h => exact booked_noteMisuse hs
    | none =>
      cases env with
      | noConf => exact booked_noteMisuse hs
      | noTopic => exact booked_noteMisuse (booked_noteMisuse hs)
      | startError =>
        exact booked_noteMisuse ⟨hs.entry, hs.ends, hs.destroyed,
          fun x hx => Nat.lt_succ_of_lt (hs.made x hx), hs.once, hs.getting, hs.consumed, hs.empty⟩
      | ok =>
        have hdown : s.kfktDestroyed = false := by
          rw [Bool.eq_false_iff]
          intro hd
          rcases hup hd with hne | hne
          · exact hne hf
          · cases hne
        exact booked_noteMisuse ((booked_noteMisuse hs).insertTopic hcomma hdown)
  | get topic partition =>
    cases h
    have hfind : (s.noteMisuse (decide (¬ Fits topic partition))).find topic partition =
      s.find topic partition := rfl
    simp only [GetState.get, hfind]
    cases hf : s.find topic partition with
    | none => exact booked_noteMisuse hs
    | some h =>
      -- the text has told the handle of this topic and partition
      obtain ⟨t, p, hkey, hmem⟩ := hs.entry _ (find_eq_some hf)
      obtain ⟨htopic, rfl⟩ := topicKey_inj hkey
      rw [← htopic] at hmem
      refine ⟨hs.entry, hs.ends, hs.destroyed, hs.made, hs.once, fun call hcall => ?_, hs.consumed,
        hs.empty⟩
      rcases List.mem_cons.mp hcall with rfl | hcall
      · exact hmem
      · exact hs.getting call hcall
  | consume call answer =>
    simp only [GetState.next] at h
    split at h
    · rename_i hcall
      cases h
      refine booked_noteMisuse ⟨hs.entry, hs.ends, hs.destroyed, hs.made, hs.once, fun c hc => ?_,
        fun c hc => ?_, hs.empty⟩
      · refine hs.getting c ?_
        dsimp only at hc
        split at hc
        · exact List.mem_of_mem_erase hc
        · exact hc
      · rcases List.mem_append.mp hc with hc | hc
        · exact hs.consumed c hc
        · obtain rfl := List.mem_singleton.mp hc
          exact hs.getting c (by simpa using hcall)
    · cases h
  | stop topic partition =>
    cases h
    have hfind : (s.noteMisuse (decide (¬ Fits topic partition))).find topic partition = none :=
      hp.1.2
    simp only [kfkTopicConsumeStop, hfind]
    exact booked_noteMisuse hs
  | destroy =>
    cases h
    refine booked_noteMisuse ⟨nofun, ?_, ?_, hs.made, hs.once, hs.getting, hs.consumed, fun _ => rfl⟩
    · exact (@List.perm_append_comm _ s.stopped _).trans hs.ends
    · change s.destroyed ++ s.ends.map Prod.fst = (s.stopped ++ s.ends).map Prod.fst
      rw [List.map_append, hs.destroyed]

end GetState

open GetState

/-- A run uses nothing behind its end, and leaves nothing that has ended to be used, exactly when all its
steps meet the condition. -/
theorem sound_iff (as : List GetAct) {s : GetState} (hr : getSystem.run getSystem.init as = some s) :
    Sound s ↔ (getSystem.only Kept).run getSystem.init as = some s := by
  have hinit : Tracked getSystem.init := ⟨nofun, nofun, nofun, nofun⟩
  have hsound : Sound getSystem.init := ⟨rfl, nofun, nofun⟩
  have hiff := Sys.run_only_iff_of_inv (S := getSystem) (C := Kept) (I := Sound) (J := Tracked)
    (fun _ _ _ hs h => hs.next h) (fun _ _ _ hs h => sound_step_iff hs h) hinit as hr
  rwa [and_iff_left hsound] at hiff

/-- A topic is stopped and the object ends. -/
theorem sound_iff_stop : ∃ s, getSystem.run getSystem.init
      [.start [116] 0 .ok, .stop [116] 0, .destroy] = some s ∧ ¬ Sound s ∧ s.misused = true := by
  have hr : (getSystem.run getSystem.init
    [.start [116] 0 .ok, .stop [116] 0, .destroy]).any (fun s => s.misused) = true := by
    decide +kernel
  obtain ⟨s, hs, hbad⟩ := (Option.any_eq_true _ _).mp hr
  have hnone : ((getSystem.only Kept).run getSystem.init
    [.start [116] 0 .ok, .stop [116] 0, .destroy]).isSome = false := by decide +kernel
  refine ⟨s, hs, ?_, hbad⟩
  rw [sound_iff _ hs]
  intro h
  rw [h] at hnone
  cases hnone

theorem booked_init : Booked getSystem.init where
  entry _ he := absurd he List.not_mem_nil
  ends := List.Perm.refl _
  destroyed := rfl
  made _ hx := absurd hx List.not_mem_nil
  once := List.nodup_nil
  getting _ hcall := absurd hcall List.not_mem_nil
  consumed _ hcall := absurd hcall List.not_mem_nil
  empty _ := rfl

/-- In such a run, if no topic has a comma: each message is taken from a handle that was started for the
topic and the partition of the call; each handle was started once; and behind `kfkDestroy` the handles are
stopped and destroyed, each once, with the partition that it was started with. -/
theorem consumed_balanced {s : GetState} (h : (getSystem.only Plain).Reach s) :
    (∀ call ∈ s.consumed, call ∈ s.started) ∧ (s.started.map Prod.fst).Nodup ∧
      s.destroyed = s.stopped.map Prod.fst ∧
      (s.kfktDestroyed = true → s.stopped.Perm (s.started.map fun x => (x.1, x.2.2))) := by
  have hs : Booked s := Sys.Reach.inv_only (I := Booked) booked_init
    (fun _ _ _ hi hp h => hi.next hp h) h
  refine ⟨hs.consumed, hs.once, hs.destroyed, fun hdown => ?_⟩
  have hends := hs.ends
  rwa [GetState.ends, hs.empty hdown, List.filterMap_nil, List.nil_append] at hends

/-- Two topics are started, one of them gives a message, and the object ends. -/
theorem consumed_balanced_two : ∃ s : GetState, (∀ call ∈ s.consumed, call ∈ s.started) ∧
    s.stopped.Perm (s.started.map fun x => (x.1, x.2.2)) ∧
    s.consumed = [(1, [117], 3)] ∧ s.started = [(0, [116], 0), (1, [117], 3)] := by
  have hr : ((getSystem.only Plain).run getSystem.init
      [.start [116] 0 .ok, .start [117] 3 .ok, .get [117] 3, .consume (1, [117], 3) .message,
        .destroy]).any (fun s =>
      decide (s.consumed = [(1, [117], 3)]) &&
      (decide (s.started = [(0, [116], 0), (1, [117], 3)]) && s.kfktDestroyed)) = true := by
    decide +kernel
  obtain ⟨s, hs, hgood⟩ := (Option.any_eq_true _ _).mp hr
  simp only [Bool.and_eq_true, decide_eq_true_eq] at hgood
  obtain ⟨hconsumed, hstarted, hdown⟩ := hgood
  obtain ⟨h1, -, -, h2⟩ := consumed_balanced (Sys.Reach.init.run _ hs)
  exact ⟨s, h1, h2 hdown, hconsumed, hstarted⟩

end TopicsGet
end Zookafka
end CmakeFrame
