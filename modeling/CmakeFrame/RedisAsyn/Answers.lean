import CmakeFrame.RedisAsyn.LibeventIo
import Mathlib.Data.List.Perm.Subperm
import Mathlib.Data.List.Dedup

/-!
# Every command is answered once

A command that `libeventIoOrder` accepts waits in the order queue, then in `cmdSeqOrderMap_`, and
leaves with a result. `clearCmdReqBuf` breaks this: it gives results and leaves the commands in the
map, where a reply, a timeout or a second disconnect finds them again.

* `fresh`: the commands of the map that still have to get a result; `Settles`: what a call of the
  client takes out of them, it gives a result for. One lemma for each call.
* `Meets`: the steps that do not come upon an element that `clearCmdReqBuf` left behind (and run
  into no other limit of the code).
* `Inv.next`, `answered_once`: in every run of such steps each command gets one result.
* `clearedOrder_answered_twice`: a run in which a command gets two.
-/

namespace CmakeFrame
namespace RedisAsyn

open Lib

/-! ## The commands that wait for a result -/

/-- A command with a callback that has no result yet. -/
def Pending.isFresh (e : Pending) : Bool := e.order.resultCb_ && !e.cleared

/-- The pending commands that still have to get a result. -/
def RedisClient.fresh (c : RedisClient) : List OrderNode :=
  (c.cmdSeqOrderMap_.filter Pending.isFresh).map (·.order)

/-- `clearCmdReqBuf` has left nothing behind. -/
def RedisClient.Untouched (c : RedisClient) : Prop := ∀ e ∈ c.cmdSeqOrderMap_, e.cleared = false

instance (c : RedisClient) : Decidable c.Untouched := by
  unfold RedisClient.Untouched
  infer_instance

/-- With the new commands `d`, a call of the client turns fresh commands into results, and nothing
else. -/
def Settles (c : RedisClient) (d : List OrderNode) (r : RedisClient × List CmdResult) : Prop :=
  ∀ o : OrderNode, o.resultCb_ = true →
    c.fresh.count o + d.count o = r.1.fresh.count o + (r.2.map (·.order)).count o

/-- A client with something to settle, or one that can get it, will be freed. -/
def RedisClient.NeedsFree (c : RedisClient) : Prop :=
  c.state_ = .conn ∨ c.fresh ≠ [] → c.freeState_ = .needFree

theorem Settles.refl {c c' : RedisClient} (h : c'.fresh = c.fresh) : Settles c [] (c', []) := by
  intro o _
  simp [h]

theorem Settles.trans {c c' c'' : RedisClient} {d : List OrderNode} {rs rs' : List CmdResult}
    (h : Settles c d (c', rs)) (h' : Settles c' [] (c'', rs')) : Settles c d (c'', rs ++ rs') := by
  intro o ho
  have h1 := h o ho
  have h2 := h' o ho
  simp only [List.map_append, List.count_append, List.count_nil] at h1 h2 ⊢
  omega

/-! ## The calls of the client -/

namespace RedisClient

variable {c : RedisClient}

theorem fresh_congr {c c' : RedisClient} (h : c'.cmdSeqOrderMap_ = c.cmdSeqOrderMap_) :
    c'.fresh = c.fresh := by
  unfold fresh
  rw [h]

/-- A client that loses pending commands needs no more freeing than before. -/
theorem NeedsFree.mono {c c' : RedisClient} (h : c.NeedsFree) (hs : c'.state_ = c.state_)
    (hf : c'.freeState_ = c.freeState_) (hm : c'.cmdSeqOrderMap_.Sublist c.cmdSeqOrderMap_) :
    c'.NeedsFree := by
  rintro (hc | hne)
  · rw [hf]
    exact h (.inl (hs ▸ hc))
  · rw [hf]
    refine h (.inr fun h0 => hne ?_)
    simp only [fresh, List.map_eq_nil_iff, List.filter_eq_nil_iff] at h0 ⊢
    exact fun e he => h0 e (hm.subset he)

theorem clearCmdReqBuf_fresh : c.clearCmdReqBuf.1.fresh = [] := by
  simp only [clearCmdReqBuf, fresh, List.filter_map, List.map_map, List.map_eq_nil_iff,
    List.filter_eq_nil_iff, Pending.isFresh, Function.comp_apply]
  intro e _
  cases e.order.resultCb_ <;> simp

theorem clearCmdReqBuf_settles (h : c.Untouched) : Settles c [] c.clearCmdReqBuf := by
  have hf : c.fresh = c.clearCmdReqBuf.2.map (·.order) := by
    have : c.cmdSeqOrderMap_.filter Pending.isFresh =
        c.cmdSeqOrderMap_.filter (·.order.resultCb_) := by
      refine List.filter_congr fun e he => ?_
      simp [Pending.isFresh, h e he]
    simp [fresh, this, clearCmdReqBuf, Function.comp_def]
  intro o _
  rw [clearCmdReqBuf_fresh, hf]
  simp

/-- `disConnect` behind its guard. -/
theorem disConnect_of_needFree (isFree : Bool) (h : c.freeState_ = .needFree) :
    (c.disConnect isFree).1.cmdSeqOrderMap_ = c.clearCmdReqBuf.1.cmdSeqOrderMap_ ∧
      (c.disConnect isFree).2 = c.clearCmdReqBuf.2 ∧ (c.disConnect isFree).1.state_ = .init := by
  unfold disConnect
  rw [h]
  cases isFree <;> exact ⟨rfl, rfl, rfl⟩

theorem disConnect_of_already {isFree : Bool} (h : c.freeState_ = .already) :
    c.disConnect isFree = (c, []) := by
  unfold disConnect
  rw [h]

theorem disConnect_done (c : RedisClient) (isFree : Bool) :
    (c.disConnect isFree).1.releaseState_ = c.releaseState_ ∧
      (c.disConnect isFree).1.freeState_ = .already := by
  unfold disConnect
  split
  · rename_i h
    exact ⟨rfl, h⟩
  · cases isFree <;> exact ⟨rfl, rfl⟩

theorem disConnect_settles (isFree : Bool) (h : c.freeState_ = .needFree → c.Untouched) :
    Settles c [] (c.disConnect isFree) := by
  cases hf : c.freeState_ with
  | already =>
    rw [disConnect_of_already hf]
    exact Settles.refl rfl
  | needFree =>
    obtain ⟨h1, h2, -⟩ := disConnect_of_needFree isFree hf
    have hs := clearCmdReqBuf_settles (h hf)
    intro o ho
    rw [hs o ho, fresh_congr h1, h2]

theorem disConnect_needsFree (isFree : Bool) (h : c.NeedsFree) : (c.disConnect isFree).1.NeedsFree := by
  cases hf : c.freeState_ with
  | already =>
    rw [disConnect_of_already hf]
    exact h
  | needFree =>
    obtain ⟨h1, -, h3⟩ := disConnect_of_needFree isFree hf
    rintro (hc | hne)
    · rw [h3] at hc
      cases hc
    · rw [fresh_congr h1, clearCmdReqBuf_fresh] at hne
      exact absurd rfl hne

/-- The element of a new sequence number is the new command. -/
theorem requestCmd_settles {ret : Int} {order : OrderNode} {nowSecond : UInt64}
    (h : ret = 0 → ∀ e ∈ c.cmdSeqOrderMap_, e.seq ≠ c.cmdSeq_) :
    Settles c [order] (c.requestCmd ret order nowSecond) := by
  intro o ho
  unfold requestCmd
  by_cases hr : ret = 0
  · have hany : c.cmdSeqOrderMap_.any (·.seq = c.cmdSeq_) = false := by
      simpa using h hr
    have hp := (List.perm_orderedInsert (fun a b : Pending => a.seq ≤ b.seq)
      ⟨c.cmdSeq_, order, false⟩ c.cmdSeqOrderMap_).filter Pending.isFresh |>.map (·.order)
    simp only [hr, ne_eq, not_true_eq_false, if_false, fresh, SeqOrderNodeMap.insertNew, hany,
      Bool.false_eq_true, List.map_nil, List.count_nil, Nat.add_zero]
    rw [hp.count_eq]
    by_cases hcb : order.resultCb_ = true
    · simp [Pending.isFresh, hcb, List.count_cons]
    · have hne : order ≠ o := fun e => hcb (e ▸ ho)
      simp [Pending.isFresh, hcb, hne]
  · simp [hr, fresh]

theorem requestCmd_needsFree {ret : Int} {order : OrderNode} {nowSecond : UInt64}
    (h : c.freeState_ = .needFree) : (c.requestCmd ret order nowSecond).1.NeedsFree := by
  intro _
  unfold requestCmd
  simp only
  split <;> exact h

/-- What `checkOutSecondCmd` does, the time of the last `PING` apart. -/
theorem checkOutSecondCmd_eq (epoch nowSecond : UInt64) : ∃ second,
    c.checkOutSecondCmd epoch nowSecond =
      ({ c with
        lastSecond_ := second
        cmdSeqOrderMap_ := c.cmdSeqOrderMap_.filter fun e => !isOut (checkSecond epoch nowSecond) e },
      (c.cmdSeqOrderMap_.filter fun e =>
        isOut (checkSecond epoch nowSecond) e && e.order.resultCb_).map
          fun e => ⟨e.order, CMD_OUTTIME_CODE, []⟩) := by
  unfold checkOutSecondCmd
  dsimp only
  split
  · exact ⟨_, rfl⟩
  · exact ⟨c.lastSecond_, rfl⟩

/-- What leaves the map with a timeout is what `checkOutSecondCmd` gives results for. -/
theorem checkOutSecondCmd_settles {epoch nowSecond : UInt64}
    (h : ∀ e ∈ c.cmdSeqOrderMap_, isOut (checkSecond epoch nowSecond) e = true → e.cleared = false) :
    Settles c [] (c.checkOutSecondCmd epoch nowSecond) := by
  obtain ⟨second, heq⟩ := c.checkOutSecondCmd_eq epoch nowSecond
  rw [heq]
  generalize isOut (checkSecond epoch nowSecond) = out at h
  have hres : (c.cmdSeqOrderMap_.filter out).filter Pending.isFresh =
      c.cmdSeqOrderMap_.filter fun e => out e && e.order.resultCb_ := by
    rw [List.filter_filter]
    refine List.filter_congr fun e he => ?_
    cases ho : out e with
    | false => simp
    | true => simp [Pending.isFresh, h e he ho]
  have hp := (List.filter_append_perm out c.cmdSeqOrderMap_).filter Pending.isFresh |>.map (·.order)
  intro o _
  simp only [fresh, List.map_map, Function.comp_def, ← hres]
  rw [← hp.count_eq]
  simp only [List.filter_append, List.map_append, List.count_append, List.count_nil]
  omega

theorem checkOutSecondCmd_needsFree (epoch nowSecond : UInt64) (h : c.NeedsFree) :
    (c.checkOutSecondCmd epoch nowSecond).1.NeedsFree := by
  obtain ⟨second, heq⟩ := c.checkOutSecondCmd_eq epoch nowSecond
  rw [heq]
  exact h.mono rfl rfl List.filter_sublist

theorem requestCallBack_settles {seq : UInt32} {reply : Option RedisReply}
    (h : ∀ e ∈ c.cmdSeqOrderMap_, e.seq = seq → e.cleared = false) :
    Settles c [] (c.requestCallBack seq reply) := by
  unfold requestCallBack
  cases hf : c.cmdSeqOrderMap_.find? (·.seq = seq) with
  | none => exact Settles.refl rfl
  | some e =>
    obtain ⟨hseq, as, bs, hm, has⟩ := List.find?_eq_some_iff_append.mp hf
    have herase : c.cmdSeqOrderMap_.eraseP (·.seq = seq) = as ++ bs := by
      rw [hm, List.eraseP_append_right _ (by simpa using has)]
      simp [of_decide_eq_true hseq]
    have hcl : e.cleared = false := h e (by simp [hm]) (by simpa using hseq)
    intro o ho
    simp only [fresh, herase]
    rw [hm]
    by_cases hcb : e.order.resultCb_ = true
    · simp [Pending.isFresh, hcb, hcl, List.count_cons]
      omega
    · simp [Pending.isFresh, hcb]

theorem cmdCallback_settles {seq : UInt32} {reply : Option RedisReply}
    (h : reply ≠ none → ∀ e ∈ c.cmdSeqOrderMap_, e.seq = seq → e.cleared = false) :
    Settles c [] (c.cmdCallback seq reply) := by
  cases reply with
  | none => exact Settles.refl rfl
  | some reply => exact requestCallBack_settles (h (by simp))

theorem cmdCallback_needsFree {seq : UInt32} {reply : Option RedisReply} (h : c.NeedsFree) :
    (c.cmdCallback seq reply).1.NeedsFree := by
  cases reply with
  | none => exact h
  | some reply =>
    simp only [cmdCallback, requestCallBack]
    split
    · exact h
    · exact h.mono rfl rfl List.eraseP_sublist

theorem destroy_fresh : c.destroy.1.fresh = [] := rfl

theorem destroy_settles (h : c.freeState_ = .needFree → c.Untouched) (hn : c.NeedsFree) :
    Settles c [] c.destroy := by
  cases hf : c.freeState_ with
  | already =>
    have hfresh : c.fresh = [] := by
      by_contra hne
      rw [hn (.inr hne)] at hf
      cases hf
    intro o _
    rw [destroy_fresh, hfresh, destroy, hf]
    simp
  | needFree =>
    have hs := clearCmdReqBuf_settles (h hf)
    intro o ho
    rw [hs o ho, clearCmdReqBuf_fresh, destroy_fresh, destroy, hf]

end RedisClient

/-! ## The steps that meet the condition -/

/-- The steps that do not come upon an element that `clearCmdReqBuf` left in the map: no reply and
no timeout for it, no second disconnect and no destructor that clears it. Besides, a connection
comes up only while the client is to be freed, the number of a new command is not in the map, the
count of commands does not overflow, and no callback comes to a client that is gone. -/
def Meets (s : IoState) : IoAct → Prop
  | .order _ _ _ resultCb_ _ => resultCb_ = true → s.asyncCmdNum ≠ Int32.maxValue
  | .handleOrder o =>
    match s.io.orderDeque_ with
    | [] => True
    | .conn :: _ => s.cli.state_ = .conn → s.cli.freeState_ = .needFree → s.cli.Untouched
    | node :: _ => s.sends o node = true → ∀ e ∈ s.cli.cmdSeqOrderMap_, e.seq ≠ s.cli.cmdSeq_
  | .handleSecond epoch =>
    s.io.isSecond = true → some () ∈ s.io.ioRedisClients_ →
      if s.cli.releaseState_ then s.cli.freeState_ = .needFree → s.cli.Untouched
      else ∀ e ∈ s.cli.cmdSeqOrderMap_,
        RedisClient.isOut (RedisClient.checkSecond epoch s.io.nowSecond_) e = true → e.cleared = false
  | .connectTimeout =>
    s.destroyed = false ∧ (s.cli.state_ = .init → s.cli.freeState_ = .needFree → s.cli.Untouched)
  | .connectCallback _ ok =>
    s.destroyed = false ∧
      if ok then s.cli.freeState_ = .needFree else s.cli.freeState_ = .needFree → s.cli.Untouched
  | .disconnectCallback =>
    s.destroyed = false ∧ (s.cli.freeState_ = .needFree → s.cli.Untouched)
  | .cmdCallback seq reply =>
    s.destroyed = false ∧
      (reply ≠ none → ∀ e ∈ s.cli.cmdSeqOrderMap_, e.seq = seq → e.cleared = false)
  | .destroy => s.cli.freeState_ = .needFree → s.cli.Untouched
  | .connOrder _ | .wakeup _ | .setReleaseState | .cmdReplyCallPool => True

instance (s : IoState) (a : IoAct) : Decidable (Meets s a) := by
  unfold Meets
  split <;> try infer_instance
  split <;> infer_instance

/-! ## The invariant -/

/-- The commands of the order queue. -/
def waiting : List RedisCliOrderNode → List OrderNode
  | [] => []
  | .conn :: nodes => waiting nodes
  | .cmd _ order :: nodes => order :: waiting nodes

/-- Every accepted command is in the order queue, or in the map without a result, or has its
result. -/
structure Inv (s : IoState) : Prop where
  count : ∀ o : OrderNode, o.resultCb_ = true → s.accepted.count o =
    (waiting s.io.orderDeque_).count o + s.cli.fresh.count o + s.inserted.count o
  needs : s.cli.NeedsFree
  queue : s.inserted = s.taken ++ s.queue_.map (·.order)
  num : s.asyncCmdNum.toInt = s.accepted.length - (s.taken.filter (·.resultCb_)).length
  cb : ∀ o ∈ s.accepted, o.resultCb_ = true
  ids : ∀ o ∈ s.accepted, o.id < s.orders
  nodup : s.accepted.Nodup
  dead : s.destroyed = true → waiting s.io.orderDeque_ = [] ∧ s.cli.fresh = []
  late : s.late = false

/-! ## One call of the client -/

theorem count_waiting_cons (node : RedisCliOrderNode) (nodes : List RedisCliOrderNode) (o : OrderNode) :
    (waiting (node :: nodes)).count o = (waiting [node]).count o + (waiting nodes).count o := by
  cases node <;> simp [waiting, List.count_cons, Nat.add_comm]

theorem waiting_append (nodes nodes' : List RedisCliOrderNode) :
    waiting (nodes ++ nodes') = waiting nodes ++ waiting nodes' := by
  induction nodes with
  | nil => rfl
  | cons node nodes ih => cases node <;> simp [waiting, ih]

/-- A node of the order queue. -/
theorem handleNode_settles {s : IoState} {o : OrderIo} {node : RedisCliOrderNode}
    {rest : List RedisCliOrderNode} (hq : s.io.orderDeque_ = node :: rest)
    (hm : Meets s (.handleOrder o)) (hn : s.cli.NeedsFree) :
    Settles s.cli (waiting [node]) (LibeventIo.handleNode o s.io.nowSecond_ s.cli node) ∧
      (LibeventIo.handleNode o s.io.nowSecond_ s.cli node).1.NeedsFree := by
  cases node with
  | conn =>
    simp only [Meets, hq] at hm
    cases hst : s.cli.state_ with
    | init =>
      simp only [LibeventIo.handleNode, hst]
      have hmap : (s.cli.connectServer o.connect).2.cmdSeqOrderMap_ = s.cli.cmdSeqOrderMap_ := by
        unfold RedisClient.connectServer
        split <;> rfl
      refine ⟨Settles.refl (RedisClient.fresh_congr hmap), ?_⟩
      unfold RedisClient.connectServer
      split
      · exact hn
      · exact hn
      · exact hn
      · exact hn
      · exact fun _ => rfl
    | conn =>
      simp only [LibeventIo.handleNode, hst]
      exact ⟨RedisClient.disConnect_settles true (hm hst), RedisClient.disConnect_needsFree true hn⟩
  | cmd outSecond_ cmdOrd_ =>
    simp only [Meets, hq] at hm
    simp only [LibeventIo.handleNode]
    split
    · refine ⟨fun o' _ => ?_, hn⟩
      simp [waiting]
    · rename_i hout
      cases hst : s.cli.state_ with
      | init =>
        refine ⟨fun o' _ => ?_, hn⟩
        simp [waiting]
      | conn =>
        refine ⟨RedisClient.requestCmd_settles fun hr => hm ?_,
          RedisClient.requestCmd_needsFree (hn (.inl hst))⟩
        exact decide_eq_true ⟨hout, hst, hr⟩

/-- The loop over the table of clients: each turn settles, and leaves nothing behind for the
next. -/
theorem checkClients_settles {epoch nowSecond_ : UInt64} (slots : List (Option Unit))
    {c : RedisClient} (hn : c.NeedsFree)
    (hm : some () ∈ slots → if c.releaseState_ then c.freeState_ = .needFree → c.Untouched
      else ∀ e ∈ c.cmdSeqOrderMap_,
        RedisClient.isOut (RedisClient.checkSecond epoch nowSecond_) e = true → e.cleared = false) :
    Settles c [] ((LibeventIo.checkClients epoch nowSecond_ slots c).1,
        (LibeventIo.checkClients epoch nowSecond_ slots c).2.1) ∧
      (LibeventIo.checkClients epoch nowSecond_ slots c).1.NeedsFree := by
  induction slots generalizing c with
  | nil => exact ⟨Settles.refl rfl, hn⟩
  | cons slot slots ih =>
    cases slot with
    | none => exact ih hn fun h => hm (List.mem_cons_of_mem _ h)
    | some u =>
      have hm' := hm (by simp)
      cases hrel : c.releaseState_ with
      | true =>
        simp only [hrel, if_true] at hm'
        simp only [LibeventIo.checkClients, hrel, if_true]
        obtain ⟨h1, h2⟩ := ih (RedisClient.disConnect_needsFree true hn) (fun _ => by
          obtain ⟨hr, hf⟩ := c.disConnect_done true
          simp [hr, hrel, hf])
        exact ⟨(RedisClient.disConnect_settles true hm').trans h1, h2⟩
      | false =>
        simp only [hrel, Bool.false_eq_true, if_false] at hm'
        simp only [LibeventIo.checkClients, hrel, Bool.false_eq_true, if_false]
        obtain ⟨h1, h2⟩ := ih (RedisClient.checkOutSecondCmd_needsFree epoch nowSecond_ hn) (fun _ => by
          obtain ⟨second, heq⟩ := c.checkOutSecondCmd_eq epoch nowSecond_
          simp +contextual [heq, hrel])
        exact ⟨(RedisClient.checkOutSecondCmd_settles hm').trans h1, h2⟩

/-! ## Every step keeps the invariant -/

variable {s : IoState}

/-- A call of the client that settles, with the commands `d` from the order queue. -/
theorem Inv.call (h : Inv s) (hd : s.destroyed = false) {d : List OrderNode}
    {r : RedisClient × List CmdResult} {io : LibeventIo} {inflight : List UInt32}
    (hs : Settles s.cli d r) (hn : r.1.NeedsFree)
    (hw : ∀ o, (waiting s.io.orderDeque_).count o = d.count o + (waiting io.orderDeque_).count o) :
    Inv { s.withCli r with io := io, inflight := inflight } where
  count o ho := by
    have h1 := h.count o ho
    have h2 := hs o ho
    have h3 := hw o
    simp only [IoState.withCli, List.count_append] at h1 h2 h3 ⊢
    omega
  needs := hn
  queue := by simp [IoState.withCli, h.queue]
  num := h.num
  cb := h.cb
  ids := h.ids
  nodup := h.nodup
  dead hdead := absurd (hdead.symm.trans hd) (by simp)
  late := h.late

/-- A call outside the order queue. -/
theorem Inv.withCli (h : Inv s) (hd : s.destroyed = false) {r : RedisClient × List CmdResult}
    (hs : Settles s.cli [] r) (hn : r.1.NeedsFree) : Inv (s.withCli r) :=
  h.call hd hs hn fun o => by simp

/-- The results of accepted commands are no more than these. -/
theorem Inv.inserted_le (h : Inv s) :
    (s.inserted.filter (·.resultCb_)).Subperm s.accepted := by
  refine List.subperm_ext_iff.mpr fun o ho => ?_
  have hcb : o.resultCb_ = true := by simpa using (List.mem_filter.mp ho).2
  rw [List.count_filter hcb, h.count o hcb]
  omega

theorem toInt_increment {n : Int32} (h : n ≠ Int32.maxValue) : (n + 1).toInt = n.toInt + 1 := by
  have hne : n.toInt ≠ Int32.maxValue.toInt := fun e => h (Int32.toInt_inj.mp e)
  have hlt := n.toInt_lt
  have hle := n.le_toInt
  rw [Int32.toInt_maxValue] at hne
  rw [Int32.toInt_add, Int32.toInt_one, Int.bmod_eq_of_le] <;> omega

theorem toInt_decrement {n : Int32} (h : 0 < n.toInt) : (n - 1).toInt = n.toInt - 1 := by
  have hlt := n.toInt_lt
  rw [Int32.toInt_sub, Int32.toInt_one, Int.bmod_eq_of_le] <;> omega

/-- A new command: it is a new object, so it is in no list yet. -/
theorem Inv.order (h : Inv s) (hd : s.destroyed = false) {cmd : OrderNode} (hid : cmd.id = s.orders)
    (hnum : cmd.resultCb_ = true → s.asyncCmdNum ≠ Int32.maxValue) (nodeOutSecond_ nowsecond : UInt64) :
    Inv (s.libeventIoOrder nodeOutSecond_ cmd nowsecond) := by
  have hw : waiting (s.io.orderDeque_ ++ [.cmd nodeOutSecond_ cmd]) =
      waiting s.io.orderDeque_ ++ [cmd] := waiting_append _ _
  have hdead : ¬ s.destroyed = true := by simp [hd]
  unfold IoState.libeventIoOrder
  by_cases hcb : cmd.resultCb_ = true
  · simp only [hcb, if_true, IoState.pushNode]
    have hnew : cmd ∉ s.accepted := fun hmem => by
      have := h.ids cmd hmem
      omega
    refine ⟨fun o ho => ?_, h.needs, h.queue, ?_, ?_, ?_, ?_, fun e => absurd e hdead, h.late⟩
    · have := h.count o ho
      simp only [hw, List.count_append]
      omega
    · rw [toInt_increment (hnum hcb), h.num]
      simp only [List.length_append, List.length_singleton]
      omega
    · intro o ho
      rcases List.mem_append.mp ho with ho | ho
      · exact h.cb o ho
      · rw [List.mem_singleton.mp ho, hcb]
    · intro o ho
      rcases List.mem_append.mp ho with ho | ho
      · exact Nat.lt_succ_of_lt (h.ids o ho)
      · rw [List.mem_singleton.mp ho, hid]
        exact Nat.lt_succ_self _
    · exact h.nodup.append (List.nodup_singleton cmd) (by simpa using hnew)
  · simp only [hcb, Bool.false_eq_true, if_false, IoState.pushNode]
    refine ⟨fun o ho => ?_, h.needs, h.queue, h.num, h.cb, fun o ho => Nat.lt_succ_of_lt (h.ids o ho),
      h.nodup, fun e => absurd e hdead, h.late⟩
    have hne : cmd ≠ o := fun e => hcb (e ▸ ho)
    rw [h.count o ho]
    simp [hw, hne]

/-- The callback pool takes a result. -/
theorem Inv.take (h : Inv s) {node : CmdResult} {rest : List CmdResult} (hq : s.queue_ = node :: rest) :
    Inv (s.takeCmdResult node rest) := by
  have hins := h.queue
  rw [hq, List.map_cons] at hins
  refine ⟨h.count, h.needs, by simp [IoState.takeCmdResult, hins], ?_, h.cb, h.ids, h.nodup, h.dead,
    h.late⟩
  have hnum := h.num
  unfold IoState.takeCmdResult
  by_cases hcb : node.order.resultCb_ = true
  · have hle := h.inserted_le.length_le
    rw [hins] at hle
    simp only [List.filter_append, List.filter_cons, hcb, if_true, List.length_append,
      List.length_cons] at hle
    simp only [hcb, if_true, List.filter_append, List.filter_cons, List.filter_nil,
      List.length_append, List.length_singleton]
    rw [toInt_decrement (by omega)]
    omega
  · simp only [hcb, List.filter_append, List.filter_cons, List.filter_nil]
    simpa using hnum

theorem Inv.pool (h : Inv s) {s' : IoState} (hs : s.nextAlive .cmdReplyCallPool = some s') : Inv s' := by
  simp only [IoState.nextAlive] at hs
  split at hs
  · cases hs
  · rename_i hq
    cases hs
    exact h.take hq

/-- A connect order: no command waits in it. -/
theorem Inv.connOrder (h : Inv s) (nowsecond : UInt64) : Inv (s.pushNode .conn nowsecond) := by
  have hw : waiting (s.io.orderDeque_ ++ [.conn]) = waiting s.io.orderDeque_ := by
    rw [waiting_append]
    exact List.append_nil _
  exact { h with
    count := fun o ho => by simpa only [IoState.pushNode, hw] using h.count o ho
    dead := fun e => by simpa only [IoState.pushNode, hw] using h.dead e }

/-- A disconnect that finds nothing left behind. -/
theorem Inv.disConnect (h : Inv s) (hd : s.destroyed = false) (isFree : Bool)
    (hu : s.cli.freeState_ = .needFree → s.cli.Untouched) :
    Inv (s.withCli (s.cli.disConnect isFree)) :=
  h.withCli hd (RedisClient.disConnect_settles isFree hu)
    (RedisClient.disConnect_needsFree isFree h.needs)

theorem Inv.connectTimeout (h : Inv s) (hd : s.destroyed = false)
    (hm : s.cli.state_ = .init → s.cli.freeState_ = .needFree → s.cli.Untouched) :
    Inv (s.withCli s.cli.connectTimeout) := by
  unfold RedisClient.connectTimeout
  split
  · rename_i hst
    exact h.disConnect hd true (hm hst)
  · exact h.withCli hd (Settles.refl rfl) h.needs

/-- The end of `handleRead`. -/
theorem Inv.handleSecond (h : Inv s) (hd : s.destroyed = false) {epoch : UInt64}
    (hm : Meets s (.handleSecond epoch)) {s' : IoState}
    (hs : s.nextAlive (.handleSecond epoch) = some s') : Inv s' := by
  simp only [IoState.nextAlive, LibeventIo.handleSecond] at hs
  split at hs
  · rename_i hsec
    cases hs
    obtain ⟨h1, h2⟩ := checkClients_settles s.io.ioRedisClients_ h.needs (hm hsec)
    exact h.call hd h1 h2 fun o => by simp
  · split at hs
    · cases hs
      exact h.call hd (Settles.refl rfl) h.needs fun o => by simp
    · cases hs
      exact h.call hd (Settles.refl rfl) h.needs fun o => by simp

/-- The destructor, when no order refers to the client: nothing is left to settle. -/
theorem Inv.destroy (h : Inv s) (hd : s.destroyed = false) (hm : Meets s .destroy)
    (hq : s.io.orderDeque_ = []) :
    Inv { s.withCli s.cli.destroy with destroyed := true } := by
  have hneeds : s.cli.destroy.1.NeedsFree := by
    rintro (hc | hc)
    · cases hc
    · exact absurd rfl hc
  exact { h.withCli hd (RedisClient.destroy_settles hm h.needs) hneeds with
    dead := fun _ => ⟨by rw [IoState.withCli, hq]; rfl, rfl⟩ }

/-- Every step of a client that exists. -/
theorem Inv.nextAlive (h : Inv s) (hd : s.destroyed = false) {a : IoAct} {s' : IoState}
    (hm : Meets s a) (hs : s.nextAlive a = some s') : Inv s' := by
  cases a with
  | order nodeOutSecond_ outSecond_ cmdOutSecond_ resultCb_ nowsecond =>
    cases hs
    exact h.order hd rfl (fun hcb => hm hcb) _ _
  | connOrder nowsecond =>
    cases hs
    exact h.connOrder nowsecond
  | wakeup nowsecond =>
    cases hs
    exact { h with }
  | handleOrder o =>
    simp only [IoState.nextAlive] at hs
    split at hs
    · cases hs
    · rename_i node rest hq
      cases hs
      obtain ⟨h1, h2⟩ := handleNode_settles hq hm h.needs
      exact h.call hd h1 h2 fun o' => by rw [hq, count_waiting_cons]
  | handleSecond epoch => exact h.handleSecond hd hm hs
  | connectTimeout =>
    cases hs
    exact h.connectTimeout hd hm.2
  | connectCallback epoch ok =>
    cases hs
    cases ok with
    | true => exact h.withCli hd (Settles.refl rfl) fun _ => hm.2
    | false => exact h.disConnect hd false hm.2
  | disconnectCallback =>
    cases hs
    exact h.disConnect hd false hm.2
  | cmdCallback seq reply =>
    simp only [IoState.nextAlive] at hs
    split at hs
    · cases hs
      exact h.call hd (RedisClient.cmdCallback_settles hm.2) (RedisClient.cmdCallback_needsFree h.needs)
        fun o => by simp [IoState.withCli]
    · cases hs
  | setReleaseState =>
    cases hs
    exact { h with }
  | cmdReplyCallPool => exact h.pool hs
  | destroy =>
    simp only [IoState.nextAlive] at hs
    split at hs
    · rename_i hq
      cases hs
      exact h.destroy hd hm hq
    · cases hs

/-- Every step that meets the condition keeps the invariant. -/
theorem Inv.next (h : Inv s) {a : IoAct} {s' : IoState} (hm : Meets s a) (hs : s.next a = some s') :
    Inv s' := by
  unfold IoState.next at hs
  split at hs
  · rename_i hd
    cases a with
    | cmdReplyCallPool => exact h.pool hs
    -- no callback comes here
    | connectTimeout | connectCallback epoch ok | disconnectCallback | cmdCallback seq reply =>
      exact absurd (hd.symm.trans hm.1) (by simp)
    | order _ _ _ _ _ | connOrder _ | wakeup _ | handleOrder _ | handleSecond _ | setReleaseState
    | destroy => cases hs
  · rename_i hd
    exact h.nextAlive (Bool.eq_false_iff.mpr hd) hm hs

theorem Inv.init (keepAliveSecond : Int32) : Inv (ioSystem keepAliveSecond).init where
  count o _ := by simp [ioSystem, waiting, RedisClient.fresh, RedisClient.new]
  needs hc := by rcases hc with hc | hc <;> simp [ioSystem, RedisClient.fresh, RedisClient.new] at hc
  queue := rfl
  num := rfl
  cb o ho := by cases ho
  ids o ho := by cases ho
  nodup := List.nodup_nil
  dead _ := ⟨rfl, rfl⟩
  late := rfl

/-! ## Answers -/

/-- The accepted commands whose result has not been delivered. -/
def IoState.undelivered (s : IoState) : List OrderNode := s.accepted.filter (· ∉ s.taken)

/-- Every accepted command was inserted into the result queue at most once, exactly once if the
client is destroyed, `asyncCmdNum` is the number of those that are not delivered, and no callback has
come to a client that is gone. -/
def Answered (s : IoState) : Prop :=
  (∀ o ∈ s.accepted, s.inserted.count o ≤ 1) ∧
    (s.destroyed = true → ∀ o ∈ s.accepted, s.inserted.count o = 1) ∧
    s.asyncCmdNum.toInt = s.undelivered.length ∧ s.late = false

theorem Inv.accepted_count (h : Inv s) {o : OrderNode} (ho : o ∈ s.accepted) :
    (waiting s.io.orderDeque_).count o + s.cli.fresh.count o + s.inserted.count o = 1 := by
  rw [← h.count o (h.cb o ho)]
  exact List.count_eq_one_of_mem h.nodup ho

/-- The delivered commands with a callback are accepted ones, each once. -/
theorem Inv.taken_perm (h : Inv s) :
    (s.taken.filter (·.resultCb_)).Perm (s.accepted.filter (· ∈ s.taken)) := by
  have hsub : (s.taken.filter (·.resultCb_)).Subperm s.accepted := by
    refine List.Subperm.trans ?_ h.inserted_le
    rw [h.queue, List.filter_append]
    exact (List.sublist_append_left _ _).subperm
  have hnd : (s.taken.filter (·.resultCb_)).Nodup := by
    obtain ⟨l, hp, hs⟩ := hsub
    exact hp.nodup_iff.mp (hs.nodup h.nodup)
  refine (List.perm_ext_iff_of_nodup hnd (h.nodup.filter _)).mpr fun o => ?_
  simp only [List.mem_filter, decide_eq_true_eq]
  constructor
  · rintro ⟨ht, hcb⟩
    exact ⟨hsub.subset (List.mem_filter.mpr ⟨ht, hcb⟩), ht⟩
  · rintro ⟨ha, ht⟩
    exact ⟨ht, h.cb o ha⟩

theorem Inv.answered (h : Inv s) : Answered s := by
  refine ⟨fun o ho => ?_, fun hd o ho => ?_, ?_, h.late⟩
  · have := h.accepted_count ho
    omega
  · have := h.accepted_count ho
    obtain ⟨hw, hf⟩ := h.dead hd
    simpa [hw, hf] using this
  · have hlen := (List.filter_append_perm (· ∈ s.taken) s.accepted).length_eq
    have hp := h.taken_perm.length_eq
    have hn := h.num
    unfold IoState.undelivered
    simp only [List.length_append, decide_not] at hlen ⊢
    omega

/-- In every run whose steps meet the condition, every command is answered once. -/
theorem answered_once (keepAliveSecond : Int32) {s : IoState}
    (h : ((ioSystem keepAliveSecond).only Meets).Reach s) : Answered s := by
  have hinv : Inv s :=
    Sys.Reach.inv_only (Inv.init keepAliveSecond) (fun _ _ _ hi hm hs => hi.next hm hs) h
  exact hinv.answered

/-- A command is sent and answered; then the client is released and destroyed. -/
def answeredSteps : List IoAct :=
  [.connOrder 100, .handleOrder ⟨.ok, 0⟩, .connectCallback 100 true, .order 103 3 103 true 100,
    .handleOrder ⟨.ok, 0⟩, .handleSecond 100, .cmdCallback 0 (some ⟨⟨.string, 0, [79, 75]⟩, []⟩),
    .cmdReplyCallPool, .setReleaseState, .wakeup 101, .handleSecond 101, .destroy]

theorem answered_once_answeredSteps : ∃ s,
    ((ioSystem 10).only Meets).run (ioSystem 10).init answeredSteps = some s ∧
      s.accepted = [⟨0, 3, 103, true⟩] ∧ s.destroyed = true ∧ Answered s := by
  refine ⟨_, rfl, by decide, by decide, ?_⟩
  exact answered_once 10 (Sys.Reach.init.run answeredSteps rfl)

/-- The server closes a connection on which a command is pending: hiredis calls back without a
reply, and `disConnect` gives the command its result. Four seconds later the loop finds the command
out of time, and gives it a second one. -/
def clearedSteps : List IoAct :=
  [.connOrder 100, .handleOrder ⟨.ok, 0⟩, .connectCallback 100 true, .order 103 3 103 true 100,
    .handleOrder ⟨.ok, 0⟩, .handleSecond 100, .cmdCallback 0 none, .disconnectCallback,
    .cmdReplyCallPool, .wakeup 104, .handleSecond 104, .cmdReplyCallPool]

theorem clearedOrder_answered_twice :
    ¬ ∀ s, (ioSystem 10).Reach s → Answered s := by
  intro h
  have hr : ∃ s, (ioSystem 10).run (ioSystem 10).init clearedSteps = some s ∧
      s.accepted = [⟨0, 3, 103, true⟩] ∧ s.inserted.count ⟨0, 3, 103, true⟩ = 2 ∧
      s.asyncCmdNum = -1 := ⟨_, rfl, by decide, by decide, by decide⟩
  obtain ⟨s, hs, ha, hc, -⟩ := hr
  have := (h s (Sys.Reach.init.run clearedSteps hs)).1 ⟨0, 3, 103, true⟩ (by rw [ha]; simp)
  omega

end RedisAsyn
end CmakeFrame
