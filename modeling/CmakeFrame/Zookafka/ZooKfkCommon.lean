import CmakeFrame.Lib.Search
import CmakeFrame.Lib.Decimal
import CmakeFrame.Lib.Threads

/-!
# `zookafka/ZooKfkCommon.h` and what the wrappers of producers and consumers share

`ZooKfkProducers`, `ZooKfkGenerators`, `ZooKfkConsumers` and `ZooKfkSubscribes` each hold a vector
of objects that is filled by one loop, and each picks one object of it for a call.

* The error codes, and the two codes of `librdkafka/rdkafka.h` that the code compares with.
* `str2Vec`: the topics of a text.
* `Wrapper`: the vector and the number that was asked for; `Wrapper.init`: the loop.
* `Wrapper.Records`: every object has the last code that was recorded for it.
* `Slot`: what the index of a call finds in the vector.
-/

namespace CmakeFrame
namespace Zookafka

open Lib

/-! ## Codes -/

def NO_KAFKA_BROKERS_FOUND : Int := -10000
def TRANSMIT_PARAMTER_ERROR : Int := -10001
def PUSH_TOPIC_NAME_NOINIT : Int := -10002
def MODULE_RECV_EXIT_COMMND : Int := -10003
def KAFKA_MODULE_NEW_ERROR : Int := -10004
def KAFKA_BROKERS_ADD_ERROR : Int := -10005
def KAFKA_NO_TOPIC_NAME_INIT : Int := -10006
def KAFKA_TOPIC_CONF_NEW_ERROR : Int := -10007
def KAFKA_TOPIC_NEW_ERROR : Int := -10008
def KAFKA_INIT_ALREADY : Int := -10009
def KAFKA_NO_INIT_ALREADY : Int := -10010
def KAFKA_UNHAPPEN_ERRPR : Int := -10011
def KAFKA_CONSUMER_CONFSET_ERROR : Int := -10012
def KAFKA_CONSUMER_ADDTOPIC_ERROR : Int := -10013

/-- `RD_KAFKA_RESP_ERR__QUEUE_FULL` -/
def RD_QUEUE_FULL : Int := -184

/-- `RD_KAFKA_RESP_ERR__PARTITION_EOF` -/
def RD_PARTITION_EOF : Int := -191

/-! ## Topics -/

/-- The loop of `str2Vec`, which puts a 0 in the place of each delimiter. -/
def splitAt (delim : UInt8) : Bytes → List Bytes
  | [] => [[]]
  | c :: s =>
    if c = delim then [] :: splitAt delim s
    else match splitAt delim s with
      | [] => [[c]]
      | f :: fs => (c :: f) :: fs

/-- `str2Vec(src.c_str(), dest, delim)` -/
def str2Vec (src : Bytes) (delim : UInt8) : List Bytes := splitAt delim (cstr src)

/-! ## The vector of a wrapper -/

/-- `kfkProducerNum` and `ZooKfkProducerPtrVec`, or `kfkConsumerNum` and `ZooKfkConsumerPtrVec`. -/
structure Wrapper (π : Type) where
  num : Int32
  vec : List π
  deriving DecidableEq, Repr

namespace Wrapper

variable {π : Type}

/-- The constructor. -/
def empty : Wrapper π := ⟨0, []⟩

/-- The loop of an init function from object `i` on, with `n` objects to go: `new i` is the object
and what its own init function returned. An object that could not be set up ends the loop. -/
def fill (new : Nat → π × Int) (i : Nat) : Nat → Int → List π × Int
  | 0, ret => ([], ret)
  | n + 1, _ =>
    match new i with
    | (p, ret) =>
      if ret < 0 then ([], ret)
      else match fill new (i + 1) n ret with
        | (ps, ret) => (p :: ps, ret)

/-- An init function; the number stays as it was set when the loop has ended early. -/
def init (w : Wrapper π) (num : Int32) (new : Nat → π × Int) : Wrapper π × Int :=
  if w.num ≠ 0 then (w, KAFKA_INIT_ALREADY)
  else match fill new 0 num.toInt.toNat 0 with
    | (ps, ret) => (⟨num, w.vec ++ ps⟩, ret)

theorem mem_fill {new : Nat → π × Int} {i n : Nat} {ret : Int} {p : π}
    (h : p ∈ (fill new i n ret).1) : ∃ j, p = (new j).1 := by
  induction n generalizing i ret with
  | zero => simp [fill] at h
  | succ n ih =>
    rw [fill] at h
    split at h
    rename_i p' r heq
    split at h
    · simp at h
    · rcases List.mem_cons.mp h with rfl | h
      · exact ⟨i, by rw [heq]⟩
      · exact ih h

/-- The objects of the vector were there before, or they are new. -/
theorem mem_init {w : Wrapper π} {num : Int32} {new : Nat → π × Int} {p : π}
    (h : p ∈ (w.init num new).1.vec) : p ∈ w.vec ∨ ∃ j, p = (new j).1 := by
  rw [init] at h
  split at h
  · exact .inl h
  · rcases List.mem_append.mp h with h | h
    · exact .inl h
    · exact .inr (mem_fill h)

/-- An init function that was called before does nothing. -/
theorem init_again {w : Wrapper π} {num : Int32} {new : Nat → π × Int} (h : w.num ≠ 0) :
    (w.init num new).1 = w := by
  rw [init, if_pos h]

/-- Object `i` becomes `p`. -/
def set (w : Wrapper π) (i : Nat) (p : π) : Wrapper π := { w with vec := w.vec.set i p }

@[simp] theorem length_set (w : Wrapper π) (i : Nat) (p : π) :
    (w.set i p).vec.length = w.vec.length :=
  List.length_set

/-! ## Recorded codes -/

/-- The last code of object `i` in a log of objects and codes, the last one first. It is 0 if there
is none. -/
def lastCode (log : List (Nat × Int)) (i : Nat) : Int :=
  match log.find? (·.1 = i) with
  | some f => f.2
  | none => 0

@[simp] theorem lastCode_self (log : List (Nat × Int)) (i : Nat) (c : Int) :
    lastCode ((i, c) :: log) i = c := by
  simp [lastCode]

theorem lastCode_other {i j : Nat} (h : i ≠ j) (log : List (Nat × Int)) (c : Int) :
    lastCode ((i, c) :: log) j = lastCode log j := by
  simp [lastCode, h]

/-- Every object keeps its last code of the log in `code`. -/
structure Records (code : π → Int) (log : List (Nat × Int)) (w : Wrapper π) : Prop where
  codes : ∀ i p, w.vec[i]? = some p → code p = lastCode log i
  fresh : ∀ f ∈ log, f.1 < w.vec.length
  unset : w.num = 0 → w.vec = []

section

variable {code : π → Int} {log : List (Nat × Int)} {w : Wrapper π}

theorem records_empty : Records code [] (empty : Wrapper π) where
  codes := by simp [empty]
  fresh := by simp
  unset _ := rfl

/-- An object changes that keeps its code. -/
theorem Records.set (hw : Records code log w) {i : Nat} {p q : π} (hp : w.vec[i]? = some p)
    (hc : code q = code p) : Records code log (w.set i q) where
  codes := by
    intro j r hr
    rcases set_cases hr with ⟨rfl, rfl⟩ | ⟨-, hr⟩
    · rw [hc]
      exact hw.codes _ _ hp
    · exact hw.codes _ _ hr
  fresh := by simpa using hw.fresh
  unset h := by simp [Wrapper.set, hw.unset h]

/-- An object gets a new code, which goes to the log. -/
theorem Records.record (hw : Records code log w) {i : Nat} {p q : π} (hp : w.vec[i]? = some p) :
    Records code ((i, code q) :: log) (w.set i q) where
  codes := by
    intro j r hr
    rcases set_cases hr with ⟨rfl, rfl⟩ | ⟨hne, hr⟩
    · rw [lastCode_self]
    · rw [lastCode_other hne.symm]
      exact hw.codes _ _ hr
  fresh := by
    rintro f (_ | ⟨_, hf⟩)
    · simpa using (List.getElem?_eq_some_iff.mp hp).1
    · simpa using hw.fresh f hf
  unset h := by simp [Wrapper.set, hw.unset h]

/-- Without objects nothing is in the log. -/
theorem Records.log_eq_nil (hw : Records code log w) (h : w.vec = []) : log = [] := by
  rw [List.eq_nil_iff_forall_not_mem]
  intro f hf
  have := hw.fresh f hf
  simp [h] at this

/-- The objects that an init function adds have the code 0. -/
theorem Records.init (hw : Records code log w) {num : Int32} {new : Nat → π × Int}
    (hnew : ∀ i, code (new i).1 = 0) : Records code log (w.init num new).1 := by
  by_cases hn : w.num = 0
  · have hv := hw.unset hn
    have hlog := hw.log_eq_nil hv
    refine ⟨?_, by simp [hlog], ?_⟩
    · intro i p hp
      rw [hlog]
      rcases mem_init (List.mem_of_getElem? hp) with hm | ⟨j, rfl⟩
      · simp [hv] at hm
      · exact hnew j
    · intro h0
      simp only [Wrapper.init, hn, ne_eq, not_true_eq_false, if_false] at h0 ⊢
      simp [h0, hv, fill]
  · rw [init_again hn]
    exact hw

end

/-- No object goes away. -/
theorem length_le_init {w : Wrapper π} {num : Int32} {new : Nat → π × Int} :
    w.vec.length ≤ (w.init num new).1.vec.length := by
  rw [init]
  split
  · exact Nat.le_refl _
  · simp

end Wrapper

/-- What a call finds for its index. -/
inductive Slot where
  /-- The wrapper answers with this code and asks no object. -/
  | refused (code : Int)
  /-- The code reads behind the end of the vector, or before its start. -/
  | outside
  | at (i : Nat)
  deriving DecidableEq, Repr

/-- `vec[i]`, of a vector that is not empty. -/
def Wrapper.slot {π : Type} (w : Wrapper π) (i : Nat) : Slot :=
  if i < w.vec.length then .at i else .outside

theorem Wrapper.slot_eq_at {π : Type} {w : Wrapper π} {i j : Nat} (h : w.slot i = .at j) :
    j < w.vec.length := by
  unfold slot at h
  split at h
  · cases h
    assumption
  · cases h

end Zookafka
end CmakeFrame
