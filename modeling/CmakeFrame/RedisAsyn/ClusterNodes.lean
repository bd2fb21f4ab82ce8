import CmakeFrame.Lib.Fill
import CmakeFrame.RedisAsyn.ClusterText
import Mathlib.Data.List.Forall2

/-!
# The slot map is the cluster's slot assignment

What `analysisClusterNodes` builds from a well-formed reply, and when it is what the reply says.

* `slotLoop_eq`, `insertSlots_eq`: the entries that a master line adds.
* `getOrNew_grew`, `slaveLoop_spec`, `masterLine_built`, `nodesLoop_built`: the clients; `Built` is
  the invariant of the loop over the lines.
* `Correct`: the slot map, the replicas and the new clients are what the reply says;
  `correct_iff`: exactly if the first master line with a migration marker or with slot 0, if there is
  one, has the address of the owner of slot 0, and the addresses are ones that `analysisSvrInfo` and
  the search for a known client can tell apart.
* `marker_takes_slot_zero`: a reply with a marker that is read wrong.
-/

namespace CmakeFrame
namespace RedisAsyn

open Lib

/-! ## The slot map of a line -/

theorem slotLoop_eq_fillLoop (cli : RedisCli) (e : UInt16) (fuel : Nat) (jj : UInt16)
    (m : SlotCliInfoMap) :
    slotLoop cli e fuel jj m = fillLoop (fun o => some (o.getD cli)) e fuel jj m := by
  induction fuel generalizing jj m with
  | zero => rfl
  | succ fuel ih =>
    have hins : m.insertNew jj cli = Function.update m jj (some ((m jj).getD cli)) := by
      funext s
      by_cases hs : s = jj
      · subst hs
        simp [SlotCliInfoMap.insertNew]
      · simp [SlotCliInfoMap.insertNew, hs]
    rw [slotLoop, fillLoop, ih, hins]

/-- The loop over a range that ends below 65535 ends, and fills the free entries of the range. -/
theorem slotLoop_eq (cli : RedisCli) {e : UInt16} (he : e.toNat < 65535) (fuel : Nat) (jj : UInt16)
    (hf : e.toNat + 1 - jj.toNat < fuel) (m : SlotCliInfoMap) :
    slotLoop cli e fuel jj m =
      some fun s => if SlotsInfo.covers s ⟨jj, e⟩ then some ((m s).getD cli) else m s := by
  rw [slotLoop_eq_fillLoop, fillLoop_eq _ he fuel jj hf]
  simp only [SlotsInfo.covers, decide_eq_true_eq]

theorem insertSlots_eq (cli : RedisCli) {rs : List SlotsInfo}
    (h : ∀ r ∈ rs, r.slotEnd_.toNat < 65535) (m : SlotCliInfoMap) :
    insertSlots cli rs m =
      some fun s => if rs.any (·.covers s) then some ((m s).getD cli) else m s := by
  induction rs generalizing m with
  | nil => rfl
  | cons r rs ih =>
    have hr := h r (by simp)
    rw [insertSlots, slotLoop_eq cli hr _ _ (by omega)]
    simp only
    rw [ih fun r' hr' => h r' (by simp [hr'])]
    congr 1
    funext s
    by_cases h1 : SlotsInfo.covers s r = true
    · simp [h1]
    · simp [h1]

/-! ## Clients -/

section Clients

variable {mgr : RedisClientMgr}

theorem RedisMasterSlave.svrInfo_of_getRedisClient {ms : RedisMasterSlave} {svr : RedisSvrInfo}
    {c : RedisCli} (h : ms.getRedisClient svr = some c) : c.svrInfo_ = svr := by
  have hslave : ms.slave_.find? (·.svrInfo_ = svr) = some c → c.svrInfo_ = svr := fun h => by
    simpa using List.find?_some h
  unfold RedisMasterSlave.getRedisClient at h
  split at h
  · split at h
    · rename_i hc
      cases h
      exact hc
    · exact hslave h
  · exact hslave h

theorem RedisClientMgr.svrInfo_of_knownCli {svr : RedisSvrInfo} {c : RedisCli}
    (h : mgr.knownCli svr = some c) : c.svrInfo_ = svr := by
  unfold RedisClientMgr.knownCli at h
  split at h
  · obtain ⟨l, node, r, -, hn, -⟩ := List.findSome?_eq_some_iff.mp h
    exact RedisMasterSlave.svrInfo_of_getRedisClient hn
  · simpa using (Option.filter_eq_some_iff.mp h).2

variable (mgr) in
/-- `c` is the client of the address: the known one, or one that was added. -/
def Fits (added : List RedisCli) (svr : RedisSvrInfo) (c : RedisCli) : Prop :=
  c.svrInfo_ = svr ∧ (mgr.knownCli svr = some c ∨ mgr.knownCli svr = none ∧ c ∈ added)

theorem Fits.mono {added added' : List RedisCli} (h : added ⊆ added') {svr : RedisSvrInfo}
    {c : RedisCli} (hf : Fits mgr added svr c) : Fits mgr added' svr c :=
  ⟨hf.1, hf.2.imp_right fun ⟨h1, h2⟩ => ⟨h1, h h2⟩⟩

variable (mgr) in
/-- The addresses that the manager has no client for. -/
def unknown (svrs : List RedisSvrInfo) : List RedisSvrInfo :=
  svrs.filter fun svr => mgr.knownCli svr = none

theorem unknown_append (svrs svrs' : List RedisSvrInfo) :
    unknown mgr (svrs ++ svrs') = unknown mgr svrs ++ unknown mgr svrs' := List.filter_append ..

variable (mgr) in
/-- The analysis has added clients for the unknown ones of `svrs`, in order, and no more. -/
structure Grew (svrs : List RedisSvrInfo) (s s' : Analysis) : Prop where
  sub : s.addRedisCli ⊆ s'.addRedisCli
  added : s'.addRedisCli.map (·.svrInfo_) = s.addRedisCli.map (·.svrInfo_) ++ unknown mgr svrs
  info : s'.tmpClusterInfo = s.tmpClusterInfo

theorem Grew.refl (s : Analysis) : Grew mgr [] s s := ⟨fun _ h => h, by simp [unknown], rfl⟩

theorem Grew.trans {svrs svrs' : List RedisSvrInfo} {s s' s'' : Analysis} (h : Grew mgr svrs s s')
    (h' : Grew mgr svrs' s' s'') : Grew mgr (svrs ++ svrs') s s'' where
  sub := fun _ hc => h'.sub (h.sub hc)
  added := by rw [h'.added, h.added, unknown_append, List.append_assoc]
  info := h'.info.trans h.info

/-- The counts of connected nodes are apart from this. -/
theorem Grew.congr {svrs : List RedisSvrInfo} {s s' s'' : Analysis} (h : Grew mgr svrs s s')
    (ha : s''.addRedisCli = s'.addRedisCli) (hi : s''.tmpClusterInfo = s'.tmpClusterInfo) :
    Grew mgr svrs s s'' :=
  ⟨ha ▸ h.sub, ha ▸ h.added, hi.trans h.info⟩

variable (mgr) in
theorem getOrNew_grew (ioThreadNum : Nat) (svr : RedisSvrInfo) (s : Analysis) :
    Grew mgr [svr] s (getOrNew mgr ioThreadNum svr s).2 ∧
      Fits mgr (getOrNew mgr ioThreadNum svr s).2.addRedisCli svr
        (getOrNew mgr ioThreadNum svr s).1 := by
  unfold getOrNew
  cases hk : mgr.knownCli svr with
  | some c =>
    refine ⟨⟨fun _ h => h, ?_, rfl⟩, RedisClientMgr.svrInfo_of_knownCli hk, .inl hk⟩
    simp [unknown, hk]
  | none =>
    refine ⟨⟨fun _ h => List.mem_append_left _ h, ?_, rfl⟩, rfl, .inr ⟨hk, ?_⟩⟩
    · simp [unknown, hk]
    · simp

end Clients

/-! ## The replicas of a master -/

section Lines

variable {mgr : RedisClientMgr} {ioThreadNum : Nat}

theorem masterId_field {n : NodeLine} {id : Bytes} (hid : NodeLine.IdOk id) :
    id = (n.id :: n.fields).getD 3 [] ↔ n.masterId = some id := by
  have hf : (n.id :: n.fields).getD 3 [] = n.masterId.getD [45] := rfl
  rw [hf]
  cases n.masterId with
  | none => simpa using hid.2.2
  | some i => simp [eq_comm]

theorem fields_length (n : NodeLine) : (n.id :: n.fields).length = 8 + n.slots.length := by
  simp [NodeLine.fields]
  omega

variable (mgr ioThreadNum) in
/-- The loop over all lines adds a client for each replica. -/
theorem slaveLoop_spec {id : Bytes} (hid : NodeLine.IdOk id) {ns : List NodeLine}
    (hw : ∀ n ∈ ns, n.Wf) (slave_ : List RedisCli) (s : Analysis) :
    ∃ cs s', slaveLoop mgr ioThreadNum id (ns.map (·.text)) slave_ s = (0, slave_ ++ cs, s') ∧
      Grew mgr ((ns.filter (·.masterId = some id)).map (·.addr.read)) s s' ∧
      List.Forall₂ (Fits mgr s'.addRedisCli)
        ((ns.filter (·.masterId = some id)).map (·.addr.read)) cs := by
  induction ns generalizing slave_ s with
  | nil => exact ⟨[], s, by simp [slaveLoop], Grew.refl s, List.Forall₂.nil⟩
  | cons n ns ih =>
    have hn := hw n (by simp)
    have ih := ih fun n' hn' => hw n' (by simp [hn'])
    have hlen : ¬ (n.id :: n.fields).length < 8 := by
      rw [fields_length]
      omega
    rw [List.map_cons, slaveLoop, split_line hn]
    simp only [if_neg hlen]
    by_cases hm : n.masterId = some id
    · rw [if_pos ((masterId_field hid).mpr hm)]
      have ha : analysisSvrInfo ((n.id :: n.fields).getD 1 []) = some n.addr.read :=
        n.addr.analysisSvrInfo_text
      obtain ⟨hg, hfit⟩ := getOrNew_grew mgr ioThreadNum n.addr.read s
      rw [ha]
      simp only
      generalize getOrNew mgr ioThreadNum n.addr.read s = r at hg hfit
      -- the replica may count as connected
      generalize hs₁ : (if r.1.state_ = .conn then { r.2 with slaveConn := r.2.slaveConn + 1 }
        else r.2) = s₁
      have hadd : s₁.addRedisCli = r.2.addRedisCli := by rw [← hs₁]; split <;> rfl
      have hinfo : s₁.tmpClusterInfo = r.2.tmpClusterInfo := by rw [← hs₁]; split <;> rfl
      obtain ⟨cs, s', heq, hg', hfits⟩ := ih (slave_ ++ [r.1]) s₁
      refine ⟨r.1 :: cs, s', by rw [heq, List.append_assoc, List.singleton_append], ?_, ?_⟩
      · simpa [List.filter_cons, hm] using (hg.congr hadd hinfo).trans hg'
      · simp only [List.filter_cons, hm, decide_true, if_true, List.map_cons]
        exact List.Forall₂.cons (hfit.mono (hadd ▸ hg'.sub)) hfits
    · rw [if_neg fun h => hm ((masterId_field hid).mp h)]
      simpa [List.filter_cons, hm] using ih slave_ s

/-! ## The masters -/

/-- The nodes and the slot map that have been built so far. -/
def Analysis.info (s : Analysis) : RedisClusterInfo := s.tmpClusterInfo.getD ⟨fun _ => none, []⟩

def RedisClusterNode.covers (s : UInt16) (node : RedisClusterNode) : Bool :=
  node.vectSlotInfo_.any (·.covers s)

variable (mgr) in
/-- `node` is what the line of the master `m` gives. -/
structure NodeFits (nodes : List NodeLine) (added : List RedisCli) (m : NodeLine)
    (node : RedisClusterNode) : Prop where
  id : node.nodeIds_ = m.id
  slots : node.vectSlotInfo_ = m.slots.map SlotToken.read
  master : ∃ c, node.clusterNode_.master_ = some c ∧ Fits mgr added m.addr.read c
  slave : List.Forall₂ (Fits mgr added) ((replicasOf nodes m).map (·.addr.read))
    node.clusterNode_.slave_

theorem NodeFits.mono {nodes : List NodeLine} {added added' : List RedisCli} (h : added ⊆ added')
    {m : NodeLine} {node : RedisClusterNode} (hf : NodeFits mgr nodes added m node) :
    NodeFits mgr nodes added' m node := by
  refine ⟨hf.id, hf.slots, ?_, hf.slave.imp fun _ _ => Fits.mono h⟩
  obtain ⟨c, h1, h2⟩ := hf.master
  exact ⟨c, h1, h2.mono h⟩

/-- The addresses of masters and of their replicas, in the order of the analysis. -/
def readAddrs (nodes ms : List NodeLine) : List RedisSvrInfo :=
  ms.flatMap fun m => (m :: replicasOf nodes m).map (·.addr.read)

variable (mgr) in
/-- What has been built when the masters `done` have been analysed. -/
structure Built (nodes done : List NodeLine) (s : Analysis) : Prop where
  vect : List.Forall₂ (NodeFits mgr nodes s.addRedisCli) done s.info.clusterVectInfo_
  slots : ∀ slot, s.info.clusterSlotMap_ slot =
    (s.info.clusterVectInfo_.find? (·.covers slot)).bind (·.clusterNode_.master_)
  added : s.addRedisCli.map (·.svrInfo_) = unknown mgr (readAddrs nodes done)

theorem exists_of_mem_right {α β : Type} {R : α → β → Prop} {as : List α} {bs : List β}
    (h : List.Forall₂ R as bs) {b : β} (hb : b ∈ bs) : ∃ a ∈ as, R a b := by
  induction h with
  | nil => cases hb
  | cons hab _ ih =>
    rcases List.mem_cons.mp hb with rfl | hb
    · exact ⟨_, by simp, hab⟩
    · obtain ⟨a, ha, hr⟩ := ih hb
      exact ⟨a, List.mem_cons_of_mem _ ha, hr⟩

theorem exists_of_mem_left {α β : Type} {R : α → β → Prop} {as : List α} {bs : List β}
    (h : List.Forall₂ R as bs) {a : α} (ha : a ∈ as) : ∃ b ∈ bs, R a b :=
  exists_of_mem_right (R := flip R) (List.Forall₂.flip h) ha

/-- One more entry behind the ones of the nodes before it. -/
theorem find?_bind_append (vs : List RedisClusterNode) (node : RedisClusterNode) {c : RedisCli}
    (hc : node.clusterNode_.master_ = some c) (hvs : ∀ v ∈ vs, v.clusterNode_.master_ ≠ none)
    (slot : UInt16) :
    ((vs ++ [node]).find? (·.covers slot)).bind (·.clusterNode_.master_) =
      if node.covers slot then
        some (((vs.find? (·.covers slot)).bind (·.clusterNode_.master_)).getD c)
      else (vs.find? (·.covers slot)).bind (·.clusterNode_.master_) := by
  rw [List.find?_append]
  cases hf : vs.find? (·.covers slot) with
  | none => by_cases hn : node.covers slot = true <;> simp [hn, hc]
  | some v =>
    obtain ⟨c', hc'⟩ := Option.ne_none_iff_exists'.mp (hvs v (List.mem_of_find?_eq_some hf))
    by_cases hn : node.covers slot = true <;> simp [hn, hc']

theorem Built.master_ne_none {nodes done : List NodeLine} {s : Analysis} (hb : Built mgr nodes done s) :
    ∀ v ∈ s.info.clusterVectInfo_, v.clusterNode_.master_ ≠ none := by
  intro v hv
  obtain ⟨m, -, hfit⟩ := exists_of_mem_right hb.vect hv
  obtain ⟨c, hc, -⟩ := hfit.master
  simp [hc]

/-- What the slot tokens of a line are read as. -/
theorem slotsInfo_fields {m : NodeLine} (hm : m.Wf) :
    ((m.id :: m.fields).drop 8).map slotsInfo = m.slots.map SlotToken.read := by
  have hdrop : (m.id :: m.fields).drop 8 = m.slots.map SlotToken.text := rfl
  rw [hdrop, List.map_map]
  exact List.map_congr_left fun t ht => SlotToken.slotsInfo_text (hm.slots t ht)

theorem insertSlots_read (cli : RedisCli) {m : NodeLine} (hm : m.Wf) (map : SlotCliInfoMap) :
    insertSlots cli (m.slots.map SlotToken.read) map = some fun s =>
      if (m.slots.map SlotToken.read).any (·.covers s) then some ((map s).getD cli) else map s := by
  refine insertSlots_eq cli (fun r hr => ?_) map
  obtain ⟨t, ht, rfl⟩ := List.mem_map.mp hr
  exact SlotToken.read_slotEnd (hm.slots t ht)

/-- What an accepted master line does: a client for the master and one for each replica, and one
more node whose slots fill the free entries. -/
theorem masterLine_spec {nodes : List NodeLine} (hw : ∀ n ∈ nodes, n.Wf) {m : NodeLine} (hm : m.Wf)
    {s s' : Analysis}
    (h : masterLine mgr ioThreadNum (nodes.map (·.text)) (m.id :: m.fields) s = some (0, s')) :
    ∃ cli cs, s.addRedisCli ⊆ s'.addRedisCli ∧
      s'.addRedisCli.map (·.svrInfo_) = s.addRedisCli.map (·.svrInfo_) ++
        unknown mgr ((m :: replicasOf nodes m).map (·.addr.read)) ∧
      NodeFits mgr nodes s'.addRedisCli m ⟨m.id, m.slots.map SlotToken.read, ⟨some cli, cs⟩⟩ ∧
      s'.info = ⟨fun slot => if (m.slots.map SlotToken.read).any (·.covers slot)
          then some ((s.info.clusterSlotMap_ slot).getD cli) else s.info.clusterSlotMap_ slot,
        s.info.clusterVectInfo_ ++ [⟨m.id, m.slots.map SlotToken.read, ⟨some cli, cs⟩⟩]⟩ := by
  unfold masterLine at h
  split at h
  · cases h
  have ha : analysisSvrInfo ((m.id :: m.fields).getD 1 []) = some m.addr.read :=
    m.addr.analysisSvrInfo_text
  rw [ha] at h
  simp only at h
  obtain ⟨hg, hfit⟩ := getOrNew_grew mgr ioThreadNum m.addr.read s
  generalize getOrNew mgr ioThreadNum m.addr.read s = r at hg hfit h
  -- the master may count as connected
  generalize hs₁ : (if r.1.state_ = .conn then { r.2 with masterConn := r.2.masterConn + 1 }
    else r.2) = s₁ at h
  have hadd : s₁.addRedisCli = r.2.addRedisCli := by rw [← hs₁]; split <;> rfl
  have hinfo : s₁.tmpClusterInfo = r.2.tmpClusterInfo := by rw [← hs₁]; split <;> rfl
  have hg₁ := hg.congr hadd hinfo
  rw [slotsInfo_fields hm, insertSlots_read _ hm] at h
  obtain ⟨cs, s₂, heq, hg₂, hfits⟩ := slaveLoop_spec mgr ioThreadNum hm.id hw [] s₁
  have hid : (m.id :: m.fields).getD 0 [] = m.id := rfl
  rw [hid, heq, hg₁.info] at h
  simp only [List.nil_append, Option.some.injEq, Prod.mk.injEq, true_and] at h
  subst h
  have hgrew := hg₁.trans hg₂
  refine ⟨r.1, cs, hgrew.sub, hgrew.added, ?_, rfl⟩
  exact ⟨rfl, rfl, ⟨r.1, rfl, hfit.mono (hadd ▸ hg₂.sub)⟩, hfits⟩

theorem masterLine_built {nodes done : List NodeLine} (hw : ∀ n ∈ nodes, n.Wf) {m : NodeLine}
    (hm : m.Wf) {s s' : Analysis} (hb : Built mgr nodes done s)
    (h : masterLine mgr ioThreadNum (nodes.map (·.text)) (m.id :: m.fields) s = some (0, s')) :
    Built mgr nodes (done ++ [m]) s' := by
  obtain ⟨cli, cs, hsub, hadded, hfit, hinfo⟩ := masterLine_spec hw hm h
  refine ⟨?_, fun slot => ?_, ?_⟩
  · rw [hinfo]
    exact List.rel_append (hb.vect.imp fun _ _ hf => hf.mono hsub) (List.Forall₂.cons hfit .nil)
  · have hnode := find?_bind_append s.info.clusterVectInfo_
      ⟨m.id, m.slots.map SlotToken.read, ⟨some cli, cs⟩⟩ rfl hb.master_ne_none slot
    rw [← hb.slots slot] at hnode
    rw [hinfo]
    exact hnode.symm
  · rw [hadded, hb.added, ← unknown_append]
    simp [readAddrs]

/-- The loop over the lines builds all masters. -/
theorem nodesLoop_built {nodes : List NodeLine} (hw : ∀ n ∈ nodes, n.Wf) {ns done : List NodeLine}
    (hns : ∀ n ∈ ns, n.Wf) {s s' : Analysis} (hb : Built mgr nodes done s)
    (h : nodesLoop mgr ioThreadNum (nodes.map (·.text)) (ns.map (·.text)) s = some (0, s')) :
    Built mgr nodes (done ++ masters ns) s' := by
  induction ns generalizing done s with
  | nil =>
    simp only [List.map_nil, nodesLoop, Option.some.injEq, Prod.mk.injEq, true_and] at h
    subst h
    simpa [masters] using hb
  | cons n ns ih =>
    have hn := hns n (by simp)
    have hns' : ∀ n' ∈ ns, n'.Wf := fun n' hn' => hns n' (List.mem_cons_of_mem n hn')
    have hlen : ¬ (n.id :: n.fields).length < 8 := by
      rw [fields_length]
      omega
    have hflags : isMasterFlags ((n.id :: n.fields).getD 2 []) = n.isMaster := isMasterFlags_text hn
    rw [List.map_cons, nodesLoop, split_line hn] at h
    simp only [if_neg hlen, hflags] at h
    by_cases hmaster : n.isMaster = true
    · rw [if_pos hmaster] at h
      split at h
      · cases h
      · rename_i ret s₁ hline
        split at h
        · rename_i hret
          subst hret
          have := ih hns' (masterLine_built hw hn hb hline) h
          simpa [masters, List.filter_cons, hmaster] using this
        · rename_i hret
          cases h
          exact absurd rfl hret
    · rw [if_neg hmaster] at h
      simpa [masters, List.filter_cons, hmaster] using ih hns' hb h

/-- What `analysisClusterNodes` has built when it returns 0. -/
theorem analysisClusterNodes_built {nodes : List NodeLine} (hw : ∀ n ∈ nodes, n.Wf) {ioIndex : UInt32}
    {created : Nat} {mgr' : RedisClientMgr} {out : Analysis}
    (h : analysisClusterNodes mgr ioThreadNum (clusterText nodes) ioIndex created =
      some (0, mgr', out)) :
    Built mgr nodes (masters nodes) out ∧ mgr'.cluterCli_ = out.tmpClusterInfo := by
  unfold analysisClusterNodes at h
  simp only at h
  split at h
  · cases h
  rw [split_clusterText hw] at h
  split at h
  · cases h
  · rename_i ret s hloop
    split at h
    · rename_i hret
      subst hret
      cases h
      refine ⟨?_, rfl⟩
      have h0 : Built mgr nodes [] ⟨ioIndex, created, [], 0, 0, none⟩ :=
        ⟨List.Forall₂.nil, fun _ => rfl, rfl⟩
      exact nodesLoop_built hw hw h0 hloop
    · rename_i hret
      cases h
      exact absurd rfl hret

/-! ## What the reply says -/

/-- The client of an address after the analysis: the known one, or else the one that was added. -/
def clientOf (mgr : RedisClientMgr) (added : List RedisCli) (svr : RedisSvrInfo) : Option RedisCli :=
  (mgr.knownCli svr).or (added.find? (·.svrInfo_ = svr))

/-- The masters, each with the nodes that name it as their master. -/
def listed (nodes : List NodeLine) : List NodeLine :=
  (masters nodes).flatMap fun m => m :: replicasOf nodes m

/-- `clusterSlotMap_[s]`. -/
def RedisClientMgr.slotCli (mgr : RedisClientMgr) (s : UInt16) : Option RedisCli :=
  mgr.cluterCli_.bind (·.clusterSlotMap_ s)

def RedisClientMgr.clusterNodes (mgr : RedisClientMgr) : List RedisClusterNode :=
  (mgr.cluterCli_.map (·.clusterVectInfo_)).getD []

/-- The manager `mgr'` is the one that the reply describes: a slot goes to the client of the master
whose plain ranges contain it and to no one if there is none, every master has its client and
the clients of its replicas, and the new clients are those of the unknown addresses, one each. -/
structure Correct (nodes : List NodeLine) (mgr mgr' : RedisClientMgr) (added : List RedisCli) :
    Prop where
  owned : ∀ m ∈ masters nodes, ∀ s, m.covers s = true →
    ∃ c, clientOf mgr added m.addr.svrInfo = some c ∧ mgr'.slotCli s = some c
  unowned : ∀ s, (∀ m ∈ masters nodes, m.covers s = false) → mgr'.slotCli s = none
  vect : List.Forall₂ (fun m node => node.nodeIds_ = m.id ∧
      (∃ c, clientOf mgr added m.addr.svrInfo = some c ∧ node.clusterNode_.master_ = some c) ∧
      (replicasOf nodes m).map (fun n => clientOf mgr added n.addr.svrInfo) =
        node.clusterNode_.slave_.map some) (masters nodes) mgr'.clusterNodes
  added : ∀ svr, (added.map (·.svrInfo_)).count svr =
    if svr ∈ unknown mgr ((listed nodes).map (·.addr.svrInfo)) then 1 else 0

/-- The first master line with a migration marker or with slot 0 has the address of the owner of
slot 0; no unknown address is listed twice; and no host has a colon. -/
structure Condition (nodes : List NodeLine) (mgr : RedisClientMgr) : Prop where
  zero : ∀ m, (masters nodes).find? (fun m => m.hasMarker || m.covers 0) = some m →
    ∃ o ∈ masters nodes, o.covers 0 = true ∧ o.addr.svrInfo = m.addr.svrInfo
  once : (unknown mgr ((listed nodes).map (·.addr.svrInfo))).Nodup
  colon : ∀ n ∈ listed nodes, 58 ∉ n.addr.host

theorem svrInfo_of_clientOf {added : List RedisCli} {svr : RedisSvrInfo} {c : RedisCli}
    (h : clientOf mgr added svr = some c) : c.svrInfo_ = svr := by
  unfold clientOf at h
  rcases Option.or_eq_some_iff.mp h with h | ⟨-, h⟩
  · exact RedisClientMgr.svrInfo_of_knownCli h
  · simpa using List.find?_some h

/-- The client that fits is the client of the address, if no address was added twice. -/
theorem Fits.clientOf {added : List RedisCli} (hn : (added.map (·.svrInfo_)).Nodup)
    {svr : RedisSvrInfo} {c : RedisCli} (h : Fits mgr added svr c) :
    RedisAsyn.clientOf mgr added svr = some c := by
  obtain ⟨hsvr, hk | ⟨hk, hc⟩⟩ := h
  · simp [RedisAsyn.clientOf, hk]
  · rw [RedisAsyn.clientOf, hk, Option.none_or]
    cases hf : added.find? (·.svrInfo_ = svr) with
    | none => exact absurd hsvr (by simpa using List.find?_eq_none.mp hf c hc)
    | some c' =>
      have hsvr' : c'.svrInfo_ = svr := by simpa using List.find?_some hf
      have := List.inj_on_of_nodup_map hn (List.mem_of_find?_eq_some hf) hc (hsvr'.trans hsvr.symm)
      rw [this]

/-- Lists that go together have their first elements with a property together. -/
theorem find?_forall₂ {α β : Type} {R : α → β → Prop} {p : α → Bool} {q : β → Bool} {as : List α}
    {bs : List β} (h : List.Forall₂ R as bs) (hpq : ∀ a ∈ as, ∀ b, R a b → q b = p a) :
    (as.find? p = none → bs.find? q = none) ∧
      ∀ a, as.find? p = some a → ∃ b, bs.find? q = some b ∧ R a b := by
  induction h with
  | nil => exact ⟨fun _ => rfl, fun a ha => by cases ha⟩
  | @cons a b as bs hab _ ih =>
    have ih := ih fun a' ha' => hpq a' (List.mem_cons_of_mem a ha')
    have hq := hpq a (by simp) b hab
    cases hp : p a with
    | true =>
      rw [hp] at hq
      simp only [List.find?_cons, hp, hq]
      refine ⟨fun h => (by cases h), fun a' ha' => ⟨b, rfl, ?_⟩⟩
      cases ha'
      exact hab
    | false =>
      rw [hp] at hq
      simpa only [List.find?_cons, hp, hq] using ih

/-! ## The slot map of the reply -/

variable {nodes : List NodeLine} {mgr' : RedisClientMgr} {out : Analysis}

/-- The slots that the line of a master is read to have. -/
def NodeLine.readCovers (s : UInt16) (m : NodeLine) : Bool := m.covers s || (m.hasMarker && s = 0)

theorem readCovers_of_ne {s : UInt16} (h : s ≠ 0) : NodeLine.readCovers s = NodeLine.covers s := by
  funext m
  simp [NodeLine.readCovers, h]

theorem readCovers_zero : NodeLine.readCovers 0 = fun m => m.hasMarker || m.covers 0 := by
  funext m
  simp [NodeLine.readCovers, Bool.or_comm]

/-- A marker is read as slot 0. -/
theorem NodeLine.any_read_covers {m : NodeLine} (hm : m.Wf) (s : UInt16) :
    (m.slots.map SlotToken.read).any (·.covers s) = m.readCovers s := by
  rw [List.any_map]
  exact SlotToken.any_read_covers hm.slots s

theorem NodeFits.covers {added : List RedisCli} {m : NodeLine} {node : RedisClusterNode} (hm : m.Wf)
    (h : NodeFits mgr nodes added m node) (s : UInt16) : node.covers s = m.readCovers s := by
  rw [RedisClusterNode.covers, h.slots]
  exact m.any_read_covers hm s

theorem Built.slotCli (hw : ∀ n ∈ nodes, n.Wf) (hb : Built mgr nodes (masters nodes) out)
    (hi : mgr'.cluterCli_ = out.tmpClusterInfo) (s : UInt16) :
    ((masters nodes).find? (NodeLine.readCovers s) = none → mgr'.slotCli s = none) ∧
      ∀ m, (masters nodes).find? (NodeLine.readCovers s) = some m →
        ∃ c, mgr'.slotCli s = some c ∧ Fits mgr out.addRedisCli m.addr.read c := by
  have hslot : mgr'.slotCli s = out.info.clusterSlotMap_ s := by
    rw [RedisClientMgr.slotCli, hi, Analysis.info]
    cases out.tmpClusterInfo <;> rfl
  obtain ⟨hnone, hsome⟩ := find?_forall₂ (q := RedisClusterNode.covers s) hb.vect
    fun m hm node hfit => hfit.covers (hw m (List.mem_of_mem_filter hm)) s
  rw [hslot, hb.slots s]
  refine ⟨fun h => by rw [hnone h]; rfl, fun m hm => ?_⟩
  obtain ⟨node, hnode, hfit⟩ := hsome m hm
  obtain ⟨c, hc, hfit⟩ := hfit.master
  exact ⟨c, by rw [hnode]; exact hc, hfit⟩

theorem Built.clusterNodes (hb : Built mgr nodes (masters nodes) out)
    (hi : mgr'.cluterCli_ = out.tmpClusterInfo) :
    List.Forall₂ (NodeFits mgr nodes out.addRedisCli) (masters nodes) mgr'.clusterNodes := by
  have : mgr'.clusterNodes = out.info.clusterVectInfo_ := by
    rw [RedisClientMgr.clusterNodes, hi, Analysis.info]
    cases out.tmpClusterInfo <;> rfl
  rw [this]
  exact hb.vect

/-- The only master whose plain ranges contain `s`. -/
theorem find?_covers (hd : WellFormed nodes) {m : NodeLine} (hm : m ∈ masters nodes) {s : UInt16}
    (hs : m.covers s = true) : (masters nodes).find? (NodeLine.covers s) = some m := by
  cases hf : (masters nodes).find? (NodeLine.covers s) with
  | none => exact absurd hs (List.find?_eq_none.mp hf m hm)
  | some o =>
    by_contra hne
    have hne : o ≠ m := fun e => hne (by rw [e])
    exact hd.disjoint.forall (List.mem_of_find?_eq_some hf) hm hne s ⟨List.find?_some hf, hs⟩

/-! ## When the manager is the one that the reply describes -/

theorem mem_listed_master {m : NodeLine} (hm : m ∈ masters nodes) : m ∈ listed nodes :=
  List.mem_flatMap.mpr ⟨m, hm, by simp⟩

theorem mem_listed_replica {m n : NodeLine} (hm : m ∈ masters nodes) (hn : n ∈ replicasOf nodes m) :
    n ∈ listed nodes :=
  List.mem_flatMap.mpr ⟨m, hm, List.mem_cons_of_mem m hn⟩

theorem mem_of_listed {n : NodeLine} (h : n ∈ listed nodes) : n ∈ nodes := by
  obtain ⟨m, hm, hn⟩ := List.mem_flatMap.mp h
  rcases List.mem_cons.mp hn with rfl | hn
  · exact List.mem_of_mem_filter hm
  · exact List.mem_of_mem_filter hn

theorem read_of_listed (hw : ∀ n ∈ nodes, n.Wf) (hcolon : ∀ n ∈ listed nodes, 58 ∉ n.addr.host) :
    ∀ n ∈ listed nodes, n.addr.read = n.addr.svrInfo := fun n hn =>
  (NodeAddr.read_eq_iff (hw n (mem_of_listed hn)).addr).mpr (hcolon n hn)

theorem readAddrs_eq (hw : ∀ n ∈ nodes, n.Wf) (hcolon : ∀ n ∈ listed nodes, 58 ∉ n.addr.host) :
    readAddrs nodes (masters nodes) = (listed nodes).map (·.addr.svrInfo) := by
  have hmap : readAddrs nodes (masters nodes) = (listed nodes).map (·.addr.read) := by
    rw [listed, List.map_flatMap, readAddrs]
  rw [hmap]
  exact List.map_congr_left (read_of_listed hw hcolon)

/-- The clients of two lists that go together, one by one. -/
theorem map_clientOf_iff {added cs : List RedisCli} {ns : List NodeLine} :
    ns.map (fun n => clientOf mgr added n.addr.svrInfo) = cs.map some ↔
      List.Forall₂ (fun n c => clientOf mgr added n.addr.svrInfo = some c) ns cs := by
  rw [← List.forall₂_eq_eq_eq, List.forall₂_map_left_iff, List.forall₂_map_right_iff]

/-- A client of the right address was looked up by the right address. -/
theorem Fits.colon {added : List RedisCli} {n : NodeLine} (hn : n.Wf) {c : RedisCli}
    (hfit : Fits mgr added n.addr.read c) (hcli : RedisAsyn.clientOf mgr added n.addr.svrInfo = some c) :
    58 ∉ n.addr.host := by
  rw [← NodeAddr.read_eq_iff hn.addr, ← hfit.1, svrInfo_of_clientOf hcli]

theorem Correct.colon (hw : ∀ n ∈ nodes, n.Wf) (hb : Built mgr nodes (masters nodes) out)
    (hi : mgr'.cluterCli_ = out.tmpClusterInfo) (hc : Correct nodes mgr mgr' out.addRedisCli) :
    ∀ n ∈ listed nodes, 58 ∉ n.addr.host := by
  intro n hn
  have hwn := hw n (mem_of_listed hn)
  obtain ⟨m, hm, hn⟩ := List.mem_flatMap.mp hn
  have hboth := List.Forall₂.mp (fun _ _ h1 h2 => And.intro h1 h2) (hb.clusterNodes hi) hc.vect
  obtain ⟨node, -, hfit, -, ⟨c, hcli, hmaster⟩, hslave⟩ := exists_of_mem_left hboth hm
  rcases List.mem_cons.mp hn with rfl | hn
  · obtain ⟨c', hc', hfit⟩ := hfit.master
    rw [hmaster] at hc'
    cases hc'
    exact hfit.colon hwn hcli
  · have hfits := List.forall₂_map_left_iff.mp hfit.slave
    have hboth := List.Forall₂.mp (fun _ _ h1 h2 => And.intro h1 h2) hfits (map_clientOf_iff.mp hslave)
    obtain ⟨c, -, hfit, hcli⟩ := exists_of_mem_left hboth hn
    exact hfit.colon hwn hcli

theorem Correct.condition (hw : WellFormed nodes) (hb : Built mgr nodes (masters nodes) out)
    (hi : mgr'.cluterCli_ = out.tmpClusterInfo) (hc : Correct nodes mgr mgr' out.addRedisCli) :
    Condition nodes mgr := by
  have hcolon := hc.colon hw.lines hb hi
  have hread := read_of_listed hw.lines hcolon
  refine ⟨fun m hm => ?_, ?_, hcolon⟩
  · obtain ⟨c, hslot, hfit⟩ := (hb.slotCli hw.lines hi 0).2 m (by rw [readCovers_zero]; exact hm)
    by_cases ho : ∃ o ∈ masters nodes, o.covers 0 = true
    · obtain ⟨o, hom, hoc⟩ := ho
      obtain ⟨c', hcli, hslot'⟩ := hc.owned o hom 0 hoc
      refine ⟨o, hom, hoc, ?_⟩
      rw [hslot] at hslot'
      cases hslot'
      have hlisted := mem_listed_master (List.mem_of_find?_eq_some hm)
      rw [← svrInfo_of_clientOf hcli, ← hread m hlisted, hfit.1]
    · have := hc.unowned 0 fun o hom => by
        by_contra hoc
        exact ho ⟨o, hom, by simpa using hoc⟩
      rw [this] at hslot
      cases hslot
  · rw [← readAddrs_eq hw.lines hcolon, ← hb.added, List.nodup_iff_count_le_one]
    intro svr
    rw [hc.added svr]
    split <;> omega

/-- The client that the analysis took for a listed line is the client of its address. -/
theorem Condition.clientOf (hw : WellFormed nodes) (hb : Built mgr nodes (masters nodes) out)
    (hc : Condition nodes mgr) {n : NodeLine} (hn : n ∈ listed nodes) {c : RedisCli}
    (hfit : Fits mgr out.addRedisCli n.addr.read c) :
    RedisAsyn.clientOf mgr out.addRedisCli n.addr.svrInfo = some c := by
  have hnodup : (out.addRedisCli.map (·.svrInfo_)).Nodup := by
    rw [hb.added, readAddrs_eq hw.lines hc.colon]
    exact hc.once
  rw [← read_of_listed hw.lines hc.colon n hn]
  exact hfit.clientOf hnodup

theorem Condition.owned (hw : WellFormed nodes) (hb : Built mgr nodes (masters nodes) out)
    (hi : mgr'.cluterCli_ = out.tmpClusterInfo) (hc : Condition nodes mgr) {m : NodeLine}
    (hm : m ∈ masters nodes) {s : UInt16} (hs : m.covers s = true) :
    ∃ c, RedisAsyn.clientOf mgr out.addRedisCli m.addr.svrInfo = some c ∧ mgr'.slotCli s = some c := by
  have hsome := (hb.slotCli hw.lines hi s).2
  by_cases h0 : s = 0
  · subst h0
    cases hf : (masters nodes).find? (NodeLine.readCovers 0) with
    | none =>
      have := List.find?_eq_none.mp hf m hm
      simp [NodeLine.readCovers, hs] at this
    | some m₀ =>
      -- the first line that fills the entry has the address of the owner, which is `m`
      obtain ⟨c, hslot, hfit⟩ := hsome m₀ hf
      obtain ⟨o, ho, hoc, haddr⟩ := hc.zero m₀ (by rw [← readCovers_zero]; exact hf)
      obtain rfl : o = m := by
        have := (find?_covers hw ho hoc).symm.trans (find?_covers hw hm hs)
        exact Option.some.inj this
      refine ⟨c, ?_, hslot⟩
      rw [haddr]
      exact hc.clientOf hw hb (mem_listed_master (List.mem_of_find?_eq_some hf)) hfit
  · obtain ⟨c, hslot, hfit⟩ := hsome m (by rw [readCovers_of_ne h0]; exact find?_covers hw hm hs)
    exact ⟨c, hc.clientOf hw hb (mem_listed_master hm) hfit, hslot⟩

theorem Condition.unowned (hw : WellFormed nodes) (hb : Built mgr nodes (masters nodes) out)
    (hi : mgr'.cluterCli_ = out.tmpClusterInfo) (hc : Condition nodes mgr) {s : UInt16}
    (hs : ∀ m ∈ masters nodes, m.covers s = false) : mgr'.slotCli s = none := by
  refine (hb.slotCli hw.lines hi s).1 ?_
  by_cases h0 : s = 0
  · subst h0
    cases hf : (masters nodes).find? (NodeLine.readCovers 0) with
    | none => rfl
    | some m₀ =>
      -- the owner that the condition gives is not there
      obtain ⟨o, ho, hoc, -⟩ := hc.zero m₀ (by rw [← readCovers_zero]; exact hf)
      rw [hs o ho] at hoc
      cases hoc
  · rw [readCovers_of_ne h0, List.find?_eq_none]
    intro m hm
    simp [hs m hm]

theorem Condition.vect (hw : WellFormed nodes) (hb : Built mgr nodes (masters nodes) out)
    (hi : mgr'.cluterCli_ = out.tmpClusterInfo) (hc : Condition nodes mgr) :
    List.Forall₂ (fun m node => node.nodeIds_ = m.id ∧
      (∃ c, RedisAsyn.clientOf mgr out.addRedisCli m.addr.svrInfo = some c ∧
        node.clusterNode_.master_ = some c) ∧
      (replicasOf nodes m).map (fun n => RedisAsyn.clientOf mgr out.addRedisCli n.addr.svrInfo) =
        node.clusterNode_.slave_.map some) (masters nodes) mgr'.clusterNodes := by
  refine ((List.forall₂_and_left (p := (· ∈ masters nodes)) _ _).mpr
    ⟨fun _ h => h, hb.clusterNodes hi⟩).imp fun m node ⟨hm, hfit⟩ => ⟨hfit.id, ?_, ?_⟩
  · obtain ⟨c, hmaster, hfit⟩ := hfit.master
    exact ⟨c, hc.clientOf hw hb (mem_listed_master hm) hfit, hmaster⟩
  · rw [map_clientOf_iff]
    refine ((List.forall₂_and_left (p := (· ∈ replicasOf nodes m)) _ _).mpr
      ⟨fun _ h => h, List.forall₂_map_left_iff.mp hfit.slave⟩).imp fun n c ⟨hn, hfit⟩ => ?_
    exact hc.clientOf hw hb (mem_listed_replica hm hn) hfit

theorem Condition.correct (hw : WellFormed nodes) (hb : Built mgr nodes (masters nodes) out)
    (hi : mgr'.cluterCli_ = out.tmpClusterInfo) (hc : Condition nodes mgr) :
    Correct nodes mgr mgr' out.addRedisCli where
  owned _ hm _ hs := hc.owned hw hb hi hm hs
  unowned _ hs := hc.unowned hw hb hi hs
  vect := hc.vect hw hb hi
  added svr := by
    rw [hb.added, readAddrs_eq hw.lines hc.colon]
    split
    · rename_i hmem
      exact List.count_eq_one_of_mem hc.once hmem
    · rename_i hmem
      exact List.count_eq_zero_of_not_mem hmem

/-- For every well-formed reply that `analysisClusterNodes` accepts: the manager is the one that
the reply describes exactly if the condition holds. -/
theorem correct_iff (hw : WellFormed nodes) {ioIndex : UInt32} {created : Nat}
    (h : analysisClusterNodes mgr ioThreadNum (clusterText nodes) ioIndex created =
      some (0, mgr', out)) :
    Correct nodes mgr mgr' out.addRedisCli ↔ Condition nodes mgr := by
  obtain ⟨hb, hi⟩ := analysisClusterNodes_built hw.lines h
  exact ⟨fun hc => hc.condition hw hb hi, fun hc => hc.correct hw hb hi⟩

end Lines

/-! ## Two masters -/

/-- A manager that has only just started. -/
def newMgr : RedisClientMgr := ⟨0, 0, none, none⟩

/-- `a1 h:1@2 myself,master - 0 0 1 connected 5`, with the marker `[1-<-b1]` behind it if `marker`. -/
def importingLine (marker : Bool) : NodeLine :=
  { id := [97, 49], addr := ⟨[104], 1, [64, 50]⟩, flags := [.myself, .master], masterId := none,
    ping := 0, pong := 0, epoch := 1, connected := true,
    slots := if marker then [.slot 5, .importing 1 [98, 49]] else [.slot 5] }

/-- `b1 g:2@3 master - 0 0 2 connected 0-1`. -/
def migratingLine : NodeLine :=
  { id := [98, 49], addr := ⟨[103], 2, [64, 51]⟩, flags := [.master], masterId := none,
    ping := 0, pong := 0, epoch := 2, connected := true, slots := [.range 0 1] }

theorem importingLine_wf (marker : Bool) : (importingLine marker).Wf where
  id := by simp [importingLine, NodeLine.IdOk]
  addr := by simp [importingLine, NodeAddr.Wf, EndsNumber, isDigit]
  flags := by simp [importingLine]
  masterId := by simp [importingLine]
  slots := by cases marker <;> simp [importingLine, SlotToken.Wf]

theorem migratingLine_wf : migratingLine.Wf where
  id := by simp [migratingLine, NodeLine.IdOk]
  addr := by simp [migratingLine, NodeAddr.Wf, EndsNumber, isDigit]
  flags := by simp [migratingLine]
  masterId := by simp [migratingLine]
  slots := by simp [migratingLine, SlotToken.Wf]

theorem twoMasters_wellFormed (marker : Bool) : WellFormed [importingLine marker, migratingLine] := by
  constructor
  · intro n hn
    simp only [List.mem_cons, List.not_mem_nil, or_false] at hn
    rcases hn with rfl | rfl
    · exact importingLine_wf marker
    · exact migratingLine_wf
  · have hm : masters [importingLine marker, migratingLine] = [importingLine marker, migratingLine] := rfl
    rw [hm, List.pairwise_pair]
    rintro s ⟨h1, h2⟩
    have h5 : s.toNat = 5 := by
      cases marker <;> simpa [NodeLine.covers, importingLine, SlotToken.covers] using h1
    have h01 : s.toNat ≤ 1 := by
      simpa [NodeLine.covers, migratingLine, SlotToken.covers] using h2
    omega

theorem noMarker_condition : Condition [importingLine false, migratingLine] newMgr where
  zero m hm := by
    have hf : (masters [importingLine false, migratingLine]).find?
        (fun m => m.hasMarker || m.covers 0) = some migratingLine := by decide
    rw [hf] at hm
    cases hm
    exact ⟨migratingLine, by decide, by decide, rfl⟩
  once := by decide
  colon := by decide

/-- Without a marker, the reply of two masters is read right. -/
theorem correct_iff_noMarker : ∃ mgr' out,
    analysisClusterNodes newMgr 1 (clusterText [importingLine false, migratingLine]) 0 0 =
      some (0, mgr', out) ∧
    Correct [importingLine false, migratingLine] newMgr mgr' out.addRedisCli := by
  have hret : (analysisClusterNodes newMgr 1
      (clusterText [importingLine false, migratingLine]) 0 0).map (·.1) = some 0 := by decide +kernel
  obtain ⟨⟨ret, mgr', out⟩, hr, hret⟩ := Option.map_eq_some_iff.mp hret
  cases hret
  exact ⟨mgr', out, hr, (correct_iff (twoMasters_wellFormed false) hr).mpr noMarker_condition⟩

/-- The marker `[1-<-b1]` of the first master takes slot 0 from the second one. -/
theorem marker_takes_slot_zero : ¬ ∀ nodes mgr mgr' out, WellFormed nodes →
    analysisClusterNodes mgr 1 (clusterText nodes) 0 0 = some (0, mgr', out) →
      Correct nodes mgr mgr' out.addRedisCli := by
  intro h
  have hrun : (analysisClusterNodes newMgr 1
      (clusterText [importingLine true, migratingLine]) 0 0).map
        (fun r => (r.1, r.2.1.slotCli 0)) = some (0, some ⟨0, ⟨[104], 1⟩, 0, .init⟩) := by
    decide +kernel
  obtain ⟨⟨ret, mgr', out⟩, hr, heq⟩ := Option.map_eq_some_iff.mp hrun
  simp only [Prod.mk.injEq] at heq
  obtain ⟨rfl, hslot⟩ := heq
  obtain ⟨c, hcli, hslot'⟩ := (h _ _ _ _ (twoMasters_wellFormed true) hr).owned migratingLine
    (by decide) 0 (by decide)
  rw [hslot] at hslot'
  cases hslot'
  exact absurd (svrInfo_of_clientOf hcli) (by decide)

end RedisAsyn
end CmakeFrame
