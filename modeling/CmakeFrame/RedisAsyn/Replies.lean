import CmakeFrame.RedisAsyn.RedisClient

/-!
# What a callback can tell of a reply

A server's reply has a content (`ReplyContent`); hiredis makes a `redisReply` of it, of which
`requestCallBack` reads some fields into `cmdRet_` and `cmdResult_`.

* `IsReplyOf`: the fields of a `redisReply`, as the comments of `hiredis.h` give them.
* `requestCallBack_delivers`: what is delivered for a pending command with a callback.
* `delivered_ne_iff`: which replies of one type are delivered differently.
-/

namespace CmakeFrame
namespace RedisAsyn

open Lib

/-! ## Contents -/

/-- An element of an array. -/
inductive ElementContent where
  | string (str : Bytes)
  | integer (integer : Int64)
  | nil
  deriving DecidableEq, Repr

inductive ReplyContent where
  | string (str : Bytes)
  | integer (integer : Int64)
  | status (str : Bytes)
  | error (str : Bytes)
  | array (element : List ElementContent)
  deriving DecidableEq, Repr

def ReplyContent.type : ReplyContent → ReplyType
  | .string _ => .string
  | .integer _ => .integer
  | .status _ => .status
  | .error _ => .error
  | .array _ => .array

/-- The bytes of an element: it has a `str` only if it is a string. -/
def ElementContent.bytes : ElementContent → Bytes
  | .string str => str
  | .integer _ => []
  | .nil => []

/-- A `redisReply` of a content: `integer` is the integer of an `INTEGER`, `str` the text of an
`ERROR`, a `STATUS` or a `STRING`, `element` the elements of an `ARRAY`. A `redisReply` is zeroed
when it is made, and a field that is not of its type is never set. -/
structure IsReplyOf (content : ReplyContent) (reply : RedisReply) : Prop where
  type : reply.type = content.type
  string : ∀ str, content = .string str → reply.str = str
  error : ∀ str, content = .error str → reply.str = str
  integer : ∀ n, content = .integer n → reply.integer = n
  status : ∀ str, content = .status str → reply.str = str ∧ reply.integer = 0
  array : ∀ element, content = .array element → reply.element.map (·.str) = element.map (·.bytes)

/-- The zeroed reply with the fields of its type set. -/
def ElementContent.toReply : ElementContent → ReplyElement
  | .string str => ⟨.string, 0, str⟩
  | .integer n => ⟨.integer, n, []⟩
  | .nil => ⟨.nil, 0, []⟩

def ReplyContent.toReply : ReplyContent → RedisReply
  | .string str => ⟨⟨.string, 0, str⟩, []⟩
  | .integer n => ⟨⟨.integer, n, []⟩, []⟩
  | .status str => ⟨⟨.status, 0, str⟩, []⟩
  | .error str => ⟨⟨.error, 0, str⟩, []⟩
  | .array element => ⟨⟨.array, 0, []⟩, element.map (·.toReply)⟩

theorem ElementContent.toReply_str (x : ElementContent) : x.toReply.str = x.bytes := by
  cases x <;> rfl

/-- Every content has a reply. -/
theorem isReplyOf_toReply (content : ReplyContent) : IsReplyOf content content.toReply := by
  constructor <;> cases content <;> simp [ReplyContent.toReply, ReplyContent.type,
    ElementContent.toReply_str]

/-- What is delivered for a content. -/
def ReplyContent.result : ReplyContent → Int × List Bytes
  | .string str => (CMD_SUCCESS_CODE, [str])
  | .integer n => (CMD_SUCCESS_CODE, [intDec n.toInt])
  | .status _ => (CMD_SUCCESS_CODE, [intDec 0])
  | .error str => (CMD_REDIS_ERROR_CODE, [str])
  | .array element => (CMD_SUCCESS_CODE, element.map (·.bytes))

theorem IsReplyOf.result_eq {content : ReplyContent} {reply : RedisReply}
    (h : IsReplyOf content reply) : reply.result = content.result := by
  unfold RedisReply.result
  rw [h.type]
  cases content with
  | string str => simp [ReplyContent.type, ReplyContent.result, h.string str rfl]
  | integer n => simp [ReplyContent.type, ReplyContent.result, h.integer n rfl]
  | status str => simp [ReplyContent.type, ReplyContent.result, (h.status str rfl).2]
  | error str => simp [ReplyContent.type, ReplyContent.result, h.error str rfl]
  | array element => simp [ReplyContent.type, ReplyContent.result, h.array element rfl]

/-- The reply to a pending command with a callback is delivered, once. -/
theorem requestCallBack_delivers {c : RedisClient} {seq : UInt32} {e : Pending}
    (he : c.cmdSeqOrderMap_.find? (·.seq = seq) = some e) (hcb : e.order.resultCb_ = true)
    {content : ReplyContent} {reply : RedisReply} (h : IsReplyOf content reply) :
    (c.requestCallBack seq (some reply)).2 =
      [⟨e.order, content.result.1, content.result.2⟩] := by
  simp [RedisClient.requestCallBack, he, hcb, h.result_eq]

/-! ## What is lost -/

/-- An element without bytes. -/
def ElementContent.Blank (x : ElementContent) : Prop :=
  x = .nil ∨ (∃ n, x = .integer n) ∨ x = .string []

/-- Two contents that differ in what `requestCallBack` does not read: the texts of two `STATUS`
replies, or elements without bytes. -/
def Confused : ReplyContent → ReplyContent → Prop
  | .status s, .status t => s ≠ t
  | .array xs, .array ys => xs ≠ ys ∧ List.Forall₂ (fun x y => x = y ∨ x.Blank ∧ y.Blank) xs ys
  | _, _ => False

theorem ElementContent.bytes_eq_nil_iff (x : ElementContent) : x.bytes = [] ↔ x.Blank := by
  cases x <;> simp [ElementContent.bytes, ElementContent.Blank]

theorem ElementContent.bytes_eq_iff (x y : ElementContent) :
    x.bytes = y.bytes ↔ x = y ∨ x.Blank ∧ y.Blank := by
  constructor
  · intro h
    by_cases hx : x.bytes = []
    · exact Or.inr ⟨x.bytes_eq_nil_iff.mp hx, y.bytes_eq_nil_iff.mp (h ▸ hx)⟩
    · have hy : y.bytes ≠ [] := h ▸ hx
      cases x <;> cases y <;> simp_all [ElementContent.bytes]
  · rintro (rfl | ⟨hx, hy⟩)
    · rfl
    · rw [x.bytes_eq_nil_iff.mpr hx, y.bytes_eq_nil_iff.mpr hy]

theorem map_bytes_eq_iff (xs ys : List ElementContent) :
    xs.map (·.bytes) = ys.map (·.bytes) ↔
      List.Forall₂ (fun x y : ElementContent => x = y ∨ x.Blank ∧ y.Blank) xs ys := by
  rw [← List.forall₂_eq_eq_eq, List.forall₂_map_left_iff, List.forall₂_map_right_iff]
  simp only [ElementContent.bytes_eq_iff]

theorem intDec_toInt_inj {m n : Int64} (h : intDec m.toInt = intDec n.toInt) : m = n := by
  have hm := toInt64_strtoul_intDec m (s := []) (by simp [EndsNumber])
  have hn := toInt64_strtoul_intDec n (s := []) (by simp [EndsNumber])
  rw [← hm, ← hn, h]

/-- Different contents of one type are delivered alike exactly if they are confused. -/
theorem result_eq_iff {a b : ReplyContent} (htype : a.type = b.type) (hne : a ≠ b) :
    a.result = b.result ↔ Confused a b := by
  cases a <;> cases b <;> simp only [ReplyContent.type, reduceCtorEq] at htype
  case string.string s t => simpa [ReplyContent.result, Confused] using hne
  case integer.integer m n =>
    simp only [ReplyContent.result, Confused, iff_false, Prod.mk.injEq, List.cons.injEq, and_true,
      true_and]
    intro h
    exact hne (congrArg _ (intDec_toInt_inj h))
  case status.status s t => simpa [ReplyContent.result, Confused] using hne
  case error.error s t => simpa [ReplyContent.result, Confused] using hne
  case array.array xs ys =>
    have hne : xs ≠ ys := fun h => hne (congrArg _ h)
    simp [ReplyContent.result, Confused, hne, map_bytes_eq_iff]

theorem Confused.type_eq {a b : ReplyContent} (h : Confused a b) : a.type = b.type ∧ a ≠ b := by
  cases a <;> cases b <;> simp_all [Confused, ReplyContent.type]

/-- Two replies of one type with different contents, to the same pending command with a callback,
are delivered differently just if they are not confused; an array always has an entry for each
element, in order. -/
theorem delivered_ne_iff {c : RedisClient} {seq : UInt32} {e : Pending}
    (he : c.cmdSeqOrderMap_.find? (·.seq = seq) = some e) (hcb : e.order.resultCb_ = true)
    {a b : ReplyContent} {replyA replyB : RedisReply} (ha : IsReplyOf a replyA)
    (hb : IsReplyOf b replyB) :
    ((a.type = b.type → a ≠ b →
        (c.requestCallBack seq (some replyA)).2 ≠ (c.requestCallBack seq (some replyB)).2) ∧
      ∀ element, a = .array element → ∃ result : CmdResult,
        (c.requestCallBack seq (some replyA)).2 = [result] ∧
        result.cmdResult_.length = element.length ∧
        ∀ (i : Nat) (x : ElementContent), element[i]? = some x →
          result.cmdResult_[i]? = some x.bytes) ↔
      ¬ Confused a b := by
  rw [requestCallBack_delivers he hcb ha, requestCallBack_delivers he hcb hb]
  constructor
  · rintro ⟨hdiff, -⟩ hconf
    obtain ⟨htype, hne⟩ := hconf.type_eq
    have hres := (result_eq_iff htype hne).mpr hconf
    exact hdiff htype hne (by rw [hres])
  · refine fun hconf => ⟨fun htype hne hdel => hconf ?_, ?_⟩
    · rw [List.cons.injEq, CmdResult.mk.injEq] at hdel
      exact (result_eq_iff htype hne).mp (Prod.ext hdel.1.2.1 hdel.1.2.2)
    · rintro element rfl
      refine ⟨_, rfl, by simp [ReplyContent.result], fun i x hx => ?_⟩
      simp [ReplyContent.result, hx]

/-- A client with the pending command 0, which has a callback. -/
def pendingClient : RedisClient :=
  { RedisClient.new 10 with cmdSeqOrderMap_ := [⟨0, ⟨0, 0, 0, true⟩, false⟩], cmdSeq_ := 1 }

/-- Two arrays that differ in a string. -/
theorem delivered_ne_iff_array :
    (pendingClient.requestCallBack 0 (some (ReplyContent.array [.string [65], .nil]).toReply)).2 ≠
      (pendingClient.requestCallBack 0
        (some (ReplyContent.array [.string [66], .integer 7]).toReply)).2 := by
  have hconf : ¬ Confused (.array [.string [65], .nil]) (.array [.string [66], .integer 7]) := by
    simp [Confused, ElementContent.Blank]
  have hpending : pendingClient.cmdSeqOrderMap_.find? (·.seq = 0) = some ⟨0, ⟨0, 0, 0, true⟩, false⟩ :=
    rfl
  exact ((delivered_ne_iff hpending rfl (isReplyOf_toReply _) (isReplyOf_toReply _)).mpr hconf).1 rfl
    (by decide)

/-- `+OK` and `+QUEUED` are both delivered as `0`. -/
theorem delivered_status_alike :
    ¬ ∀ (c : RedisClient) (seq : UInt32) (e : Pending) (a b : ReplyContent)
      (replyA replyB : RedisReply), c.cmdSeqOrderMap_.find? (·.seq = seq) = some e →
      e.order.resultCb_ = true → IsReplyOf a replyA → IsReplyOf b replyB → a.type = b.type →
      a ≠ b → (c.requestCallBack seq (some replyA)).2 ≠ (c.requestCallBack seq (some replyB)).2 :=
  fun h =>
    h pendingClient 0 _ (.status [79, 75]) (.status [81, 85, 69, 85, 69, 68]) _ _ rfl rfl
      (isReplyOf_toReply _) (isReplyOf_toReply _) rfl (by decide) rfl

end RedisAsyn
end CmakeFrame
