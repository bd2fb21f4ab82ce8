import CmakeFrame.RedisAsyn.AnalysisNodes

/-!
# The text of `CLUSTER NODES`, and what `analysisClusterNodes` reads of it

* `NodeLine`: a line; `clusterText`: the reply of the server; `WellFormed`.
* `split_clusterText`, `split_line`: `split` finds the lines and their fields.
* `isMasterFlags_text`, `analysisSvrInfo_text`, `slotsInfo_text`: what is made of the fields. A
  migration marker comes out as the range from 0 to 0.
-/

namespace CmakeFrame
namespace RedisAsyn

open Lib

/-! ## Texts without blanks -/

/-- No blanks and no control characters. -/
def Solid (t : Bytes) : Prop := ∀ c ∈ t, 32 < c

instance (t : Bytes) : Decidable (Solid t) := List.decidableBAll (32 < ·) t

@[simp] theorem solid_nil : Solid [] := by simp [Solid]

@[simp] theorem solid_cons {c : UInt8} {t : Bytes} : Solid (c :: t) ↔ 32 < c ∧ Solid t := by
  simp [Solid]

@[simp] theorem solid_append {t t' : Bytes} : Solid (t ++ t') ↔ Solid t ∧ Solid t' := by
  simp [Solid, or_imp, forall_and]

theorem Solid.notMem {t : Bytes} (h : Solid t) {c : UInt8} (hc : c ≤ 32) : c ∉ t := fun hm =>
  absurd (h c hm) (UInt8.not_lt.mpr hc)

theorem solid_natDec (n : Nat) : Solid (natDec n) := by
  intro c hc
  have := isDigit_of_mem_natDec hc
  simp only [isDigit, Bool.and_eq_true, decide_eq_true_eq] at this
  exact UInt8.lt_of_lt_of_le (by decide) this.1

theorem cstr_solid {t : Bytes} (h : Solid t) : cstr t = t := by
  refine List.takeWhile_eq_self_iff.mpr fun c hc => ?_
  have : c ≠ 0 := fun e => h.notMem (by decide : (0 : UInt8) ≤ 32) (e ▸ hc)
  simpa using this

/-! ## Lines -/

/-- The tokens behind the link state: `n`, `a-b`, `[s->-id]`, `[s-<-id]`. -/
inductive SlotToken where
  | slot (n : Nat)
  | range (a b : Nat)
  | migrating (s : Nat) (id : Bytes)
  | importing (s : Nat) (id : Bytes)
  deriving DecidableEq, Repr

namespace SlotToken

def text : SlotToken → Bytes
  | .slot n => natDec n
  | .range a b => natDec a ++ 45 :: natDec b
  | .migrating s id => 91 :: (natDec s ++ 45 :: ([62, 45] ++ id ++ [93]))
  | .importing s id => 91 :: (natDec s ++ 45 :: ([60, 45] ++ id ++ [93]))

/-- Slots are below 16384. -/
def Wf : SlotToken → Prop
  | .slot n => n ≤ 16383
  | .range a b => a ≤ b ∧ b ≤ 16383
  | .migrating s id => s ≤ 16383 ∧ Solid id
  | .importing s id => s ≤ 16383 ∧ Solid id

/-- The slots that a plain token gives. -/
def covers (s : UInt16) : SlotToken → Bool
  | .slot n => s.toNat = n
  | .range a b => a ≤ s.toNat ∧ s.toNat ≤ b
  | _ => false

def isMarker : SlotToken → Bool
  | .migrating _ _ => true
  | .importing _ _ => true
  | _ => false

end SlotToken

inductive NodeFlag where
  | myself
  | master
  | slave
  | maybeFail
  | fail
  | handshake
  | noaddr
  | nofailover
  | noflags
  deriving DecidableEq, Repr

def NodeFlag.text : NodeFlag → Bytes
  | .myself => [109, 121, 115, 101, 108, 102]
  | .master => [109, 97, 115, 116, 101, 114]
  | .slave => [115, 108, 97, 118, 101]
  | .maybeFail => [102, 97, 105, 108, 63]
  | .fail => [102, 97, 105, 108]
  | .handshake => [104, 97, 110, 100, 115, 104, 97, 107, 101]
  | .noaddr => [110, 111, 97, 100, 100, 114]
  | .nofailover => [110, 111, 102, 97, 105, 108, 111, 118, 101, 114]
  | .noflags => [110, 111, 102, 108, 97, 103, 115]

/-- The flags with commas between them. -/
def flagsText : List NodeFlag → Bytes
  | [] => []
  | f :: fs => f.text ++ fs.flatMap fun g => 44 :: g.text

/-- `host:port`, and behind it what newer servers add: `@cport`, `@cport,hostname`. -/
structure NodeAddr where
  host : Bytes
  port : UInt16
  tail : Bytes
  deriving DecidableEq, Repr

namespace NodeAddr

def text (a : NodeAddr) : Bytes := a.host ++ 58 :: (natDec a.port.toNat ++ a.tail)

/-- The address itself. -/
def svrInfo (a : NodeAddr) : RedisSvrInfo := ⟨a.host, Int32.ofNat a.port.toNat⟩

def Wf (a : NodeAddr) : Prop := Solid a.host ∧ Solid a.tail ∧ EndsNumber a.tail

end NodeAddr

/-- A line of the reply. `masterId` is none for a node that is no replica. -/
structure NodeLine where
  id : Bytes
  addr : NodeAddr
  flags : List NodeFlag
  masterId : Option Bytes
  ping : Nat
  pong : Nat
  epoch : Nat
  connected : Bool
  slots : List SlotToken
  deriving DecidableEq, Repr

namespace NodeLine

def linkText (connected : Bool) : Bytes :=
  if connected then [99, 111, 110, 110, 101, 99, 116, 101, 100]
  else [100, 105, 115, 99, 111, 110, 110, 101, 99, 116, 101, 100]

/-- The fields behind the node id. -/
def fields (n : NodeLine) : List Bytes :=
  [n.addr.text, flagsText n.flags, n.masterId.getD [45], natDec n.ping, natDec n.pong,
    natDec n.epoch, linkText n.connected] ++ n.slots.map SlotToken.text

def text (n : NodeLine) : Bytes := n.id ++ n.fields.flatMap (32 :: ·)

def isMaster (n : NodeLine) : Bool := n.flags.contains .master

/-- A node id: not empty, and not the `-` that stands for no master. -/
def IdOk (id : Bytes) : Prop := id ≠ [] ∧ Solid id ∧ id ≠ [45]

structure Wf (n : NodeLine) : Prop where
  id : IdOk n.id
  addr : n.addr.Wf
  flags : n.flags ≠ []
  masterId : ∀ i ∈ n.masterId, IdOk i
  slots : ∀ t ∈ n.slots, t.Wf

/-- The plain tokens of the line contain `s`. -/
def covers (s : UInt16) (n : NodeLine) : Bool := n.slots.any (·.covers s)

def hasMarker (n : NodeLine) : Bool := n.slots.any (·.isMarker)

/-- No slot is in the plain ranges of both. -/
def Apart (n n' : NodeLine) : Prop := ∀ s, ¬ (n.covers s = true ∧ n'.covers s = true)

instance : Std.Symm Apart := ⟨fun _ _ h s hc => h s hc.symm⟩

end NodeLine

/-- The reply of the server. -/
def clusterText (nodes : List NodeLine) : Bytes := nodes.flatMap fun n => n.text ++ [10]

def masters (nodes : List NodeLine) : List NodeLine := nodes.filter (·.isMaster)

/-- The nodes that name `m` as their master. -/
def replicasOf (nodes : List NodeLine) (m : NodeLine) : List NodeLine :=
  nodes.filter (·.masterId = some m.id)

/-- The lines are well formed, and the plain ranges of different masters are disjoint. -/
structure WellFormed (nodes : List NodeLine) : Prop where
  lines : ∀ n ∈ nodes, n.Wf
  disjoint : (masters nodes).Pairwise NodeLine.Apart

/-! ## Lines and fields -/

theorem NodeFlag.solid_text (f : NodeFlag) : f.text ≠ [] ∧ Solid f.text := by
  cases f <;> decide

theorem solid_flagsText (fs : List NodeFlag) : Solid (flagsText fs) := by
  cases fs with
  | nil => simp [flagsText]
  | cons f fs =>
    refine solid_append.mpr ⟨f.solid_text.2, fun c hc => ?_⟩
    obtain ⟨g, -, hg⟩ := List.mem_flatMap.mp hc
    rcases List.mem_cons.mp hg with rfl | hg
    · decide
    · exact g.solid_text.2 c hg

theorem SlotToken.solid_text {t : SlotToken} (h : t.Wf) : t.text ≠ [] ∧ Solid t.text := by
  cases t with
  | slot n => exact ⟨natDec_ne_nil n, solid_natDec n⟩
  | range a b => exact ⟨by simp [text], by simp [text, solid_natDec]⟩
  | migrating s id => exact ⟨by simp [text], by simp [text, solid_natDec, h.2]⟩
  | importing s id => exact ⟨by simp [text], by simp [text, solid_natDec, h.2]⟩

theorem NodeLine.solid_fields {n : NodeLine} (h : n.Wf) :
    ∀ t ∈ n.id :: n.fields, t ≠ [] ∧ Solid t := by
  intro t ht
  simp only [NodeLine.fields, List.cons_append, List.nil_append, List.mem_cons, List.mem_map] at ht
  rcases ht with rfl | rfl | rfl | rfl | rfl | rfl | rfl | rfl | ⟨u, hu, rfl⟩
  · exact ⟨h.id.1, h.id.2.1⟩
  · refine ⟨by simp [NodeAddr.text], ?_⟩
    simp [NodeAddr.text, h.addr.1, h.addr.2.1, solid_natDec]
  · refine ⟨?_, solid_flagsText _⟩
    obtain ⟨f, fs, hf⟩ := List.exists_cons_of_ne_nil h.flags
    simp [hf, flagsText, f.solid_text.1]
  · cases hm : n.masterId with
    | none => simp
    | some i =>
      obtain ⟨h1, h2, -⟩ := h.masterId i hm
      exact ⟨h1, h2⟩
  · exact ⟨natDec_ne_nil _, solid_natDec _⟩
  · exact ⟨natDec_ne_nil _, solid_natDec _⟩
  · exact ⟨natDec_ne_nil _, solid_natDec _⟩
  · cases n.connected <;> exact ⟨by decide, by decide⟩
  · exact SlotToken.solid_text (h.slots u hu)

theorem split_line {n : NodeLine} (h : n.Wf) : split n.text [32] = n.id :: n.fields :=
  split_intercalate (by decide) fun t ht =>
    ⟨(n.solid_fields h t ht).1, (n.solid_fields h t ht).2.notMem (UInt8.le_refl 32)⟩

theorem split_clusterText {nodes : List NodeLine} (h : ∀ n ∈ nodes, n.Wf) :
    split (clusterText nodes) [10] = nodes.map (·.text) := by
  have heq : clusterText nodes = (nodes.map (·.text)).flatMap (· ++ [10]) := by
    simp [clusterText, List.flatMap_map]
  rw [heq]
  refine split_flatMap (by decide) fun t ht => ?_
  obtain ⟨n, hn, rfl⟩ := List.mem_map.mp ht
  refine ⟨by simp [NodeLine.text, (h n hn).id.1], fun hm => ?_⟩
  rcases List.mem_append.mp hm with hm | hm
  · exact (h n hn).id.2.1.notMem (by decide) hm
  · obtain ⟨t, ht, hm⟩ := List.mem_flatMap.mp hm
    rcases List.mem_cons.mp hm with hm | hm
    · exact absurd hm (by decide)
    · exact (n.solid_fields (h n hn) t (List.mem_cons_of_mem _ ht)).2.notMem (by decide) hm

/-! ## Flags -/

/-- A text without the separator stands on one side of it. -/
theorem infix_append_cons {c : UInt8} {w a b : Bytes} (hc : c ∉ w) :
    w <:+: a ++ c :: b ↔ w <:+: a ∨ w <:+: b := by
  constructor
  · rintro ⟨l, r, h⟩
    rcases List.append_eq_append_iff.mp h with ⟨x, hx, -⟩ | ⟨x, hx, hr⟩
    · exact .inl ⟨l, x, hx.symm⟩
    · cases x with
      | nil =>
        left
        rw [List.append_nil] at hx
        exact ⟨l, [], by simpa using hx⟩
      | cons d x =>
        obtain ⟨rfl, rfl⟩ := List.cons.inj hr
        rcases List.append_eq_append_iff.mp hx with ⟨y, -, hw⟩ | ⟨y, hl, hw⟩
        · exact absurd (by rw [hw]; simp) hc
        · cases y with
          | nil => exact absurd (by rw [← List.nil_append w, ← hw]; simp) hc
          | cons d y =>
            obtain ⟨-, rfl⟩ := List.cons.inj hw
            exact .inr ⟨y, r, rfl⟩
  · rintro (h | h)
    · exact h.trans (List.infix_append' [] a _)
    · exact h.trans ⟨a ++ [c], [], by simp⟩

theorem NodeFlag.master_infix (f : NodeFlag) : NodeFlag.master.text <:+: f.text ↔ f = .master := by
  cases f <;> decide

theorem master_infix_flagsText {fs : List NodeFlag} (h : fs ≠ []) :
    NodeFlag.master.text <:+: flagsText fs ↔ NodeFlag.master ∈ fs := by
  cases fs with
  | nil => exact absurd rfl h
  | cons f fs =>
    clear h
    induction fs generalizing f with
    | nil => simp [flagsText, f.master_infix, eq_comm]
    | cons g fs ih =>
      have : flagsText (f :: g :: fs) = f.text ++ 44 :: flagsText (g :: fs) := by simp [flagsText]
      rw [this, infix_append_cons (by decide), f.master_infix, ih g]
      simp only [List.mem_cons]
      tauto

theorem isMasterFlags_text {n : NodeLine} (h : n.Wf) :
    isMasterFlags (flagsText n.flags) = n.isMaster := by
  rw [Bool.eq_iff_iff, isMasterFlags, cstr_solid (solid_flagsText _), findSub_isSome,
    NodeLine.isMaster, List.contains_iff_mem]
  exact master_infix_flagsText h.flags

/-! ## Numbers -/

theorem atoi_natDec {n : Nat} (hn : n < 2 ^ 31) {t : Bytes} (ht : EndsNumber t) :
    atoi (natDec n ++ t) = Int32.ofNat n := by
  have hx : (Int32.ofNat n).toInt = n := Int32.toInt_ofNat_of_lt hn
  have hi : intDec (n : Int) = natDec n := by
    rw [intDec, if_neg (by omega), Int.natAbs_natCast]
  have := atoi_intDec (Int32.ofNat n) ht
  rwa [hx, hi] at this

theorem atoi16_natDec {n : Nat} (hn : n ≤ 16383) : atoi16 (natDec n) = UInt16.ofNat n := by
  have := atoi_natDec (n := n) (by omega) (t := []) (by simp [EndsNumber])
  rw [List.append_nil] at this
  rw [atoi16, this]
  exact UInt32.toUInt16_ofNat' n

/-- `atoi` gives 0 for a text that is no number. -/
theorem atoi16_of_not_number {c : UInt8} {t : Bytes} (h1 : isSpace c = false)
    (h2 : isDigit c = false) (h3 : c ≠ 45) (h4 : c ≠ 43) : atoi16 (c :: t) = 0 := by
  have hs : scanSign (c :: t) = (false, c :: t) := by
    unfold scanSign
    rw [List.dropWhile_cons_of_neg (by simp [h1])]
    split
    · rename_i heq; cases heq; exact absurd rfl h3
    · rename_i heq; cases heq; exact absurd rfl h4
    · rfl
  simp only [atoi16, atoi, scanInt, hs, scanNat, h2, Bool.false_eq_true, if_false]
  rfl

/-! ## Addresses -/

namespace NodeAddr

/-- What `analysisSvrInfo` makes of the address. -/
def read (a : NodeAddr) : RedisSvrInfo := (analysisSvrInfo a.text).getD a.svrInfo

theorem analysisSvrInfo_text (a : NodeAddr) : analysisSvrInfo a.text = some a.read := by
  unfold read analysisSvrInfo
  rw [if_neg (by simp [text])]
  cases hf : findByte 58 a.text with
  | none => exact absurd (findByte_eq_none.mp hf) (by simp [text])
  | some i => rfl

/-- The address is read right if its host has no colon, as an IPv6 address has. -/
theorem read_eq_iff {a : NodeAddr} (h : a.Wf) : a.read = a.svrInfo ↔ 58 ∉ a.host := by
  constructor
  · intro he hm
    have hr := a.analysisSvrInfo_text
    rw [he] at hr
    unfold analysisSvrInfo at hr
    rw [if_neg (by simp [text])] at hr
    cases hf : findByte 58 a.text with
    | none => exact absurd (findByte_eq_none.mp hf) (by simp [text])
    | some i =>
      rw [hf] at hr
      have hhost : a.text.take i = a.host := congrArg RedisSvrInfo.ipAddr_ (Option.some.inj hr)
      exact (findByte_eq_some hf).2 (hhost ▸ hm)
  · intro hm
    have hf : findByte 58 a.text = some a.host.length := findByte_append hm _
    have hr := a.analysisSvrInfo_text
    unfold analysisSvrInfo at hr
    rw [if_neg (by simp [text]), hf] at hr
    have hdrop : a.text.drop (a.host.length + 1) = natDec a.port.toNat ++ a.tail := by
      simp [text, List.drop_append]
    have htake : a.text.take a.host.length = a.host := by simp [text]
    simp only [hdrop, htake, Option.some.injEq] at hr
    rw [← hr, atoi_natDec (by have := a.port.toNat_lt; omega) h.2.2]
    rfl

end NodeAddr

/-! ## Slot tokens -/

/-- The slots that a range contains. -/
def SlotsInfo.covers (s : UInt16) (r : SlotsInfo) : Bool := r.slotStart_ ≤ s ∧ s ≤ r.slotEnd_

/-- What `analysisClusterNodes` makes of a slot token. -/
def SlotToken.read : SlotToken → SlotsInfo
  | .slot n => ⟨UInt16.ofNat n, UInt16.ofNat n⟩
  | .range a b => ⟨UInt16.ofNat a, UInt16.ofNat b⟩
  | .migrating _ _ => ⟨0, 0⟩
  | .importing _ _ => ⟨0, 0⟩

/-- The first dash of a marker stands before its arrow, and neither side is a number. -/
theorem slotsInfo_marker {s : Nat} {c : UInt8} {t : Bytes} (h1 : isSpace c = false)
    (h2 : isDigit c = false) (h3 : c ≠ 45) (h4 : c ≠ 43) :
    slotsInfo (91 :: (natDec s ++ 45 :: c :: t)) = ⟨0, 0⟩ := by
  have hd : (45 : UInt8) ∉ 91 :: natDec s := by simp [notMem_natDec (c := 45) (by decide)]
  have hf : findByte 45 (91 :: natDec s ++ 45 :: c :: t) = some (91 :: natDec s).length :=
    findByte_append hd _
  have hdrop : (91 :: natDec s ++ 45 :: c :: t).drop ((91 :: natDec s).length + 1) = c :: t := by
    rw [List.drop_append]
    simp
  rw [slotsInfo, ← List.cons_append, hf]
  simp only [hdrop, List.take_left]
  rw [atoi16_of_not_number h1 h2 h3 h4, atoi16_of_not_number (by decide) (by decide) (by decide)
    (by decide)]

theorem SlotToken.slotsInfo_text {t : SlotToken} (h : t.Wf) : slotsInfo t.text = t.read := by
  cases t with
  | slot n =>
    rw [slotsInfo, text, findByte_eq_none.mpr (notMem_natDec (by decide) n)]
    simp only [atoi16_natDec h, read]
  | range a b =>
    have hf : findByte 45 (natDec a ++ 45 :: natDec b) = some (natDec a).length :=
      findByte_append (notMem_natDec (by decide) a) _
    have hdrop : (natDec a ++ 45 :: natDec b).drop ((natDec a).length + 1) = natDec b := by
      rw [List.drop_append]
      simp
    obtain ⟨hab, hb⟩ := h
    rw [slotsInfo, text, hf]
    simp only [hdrop, List.take_left, atoi16_natDec hb, atoi16_natDec (Nat.le_trans hab hb), read]
  | migrating s id => exact slotsInfo_marker (by decide) (by decide) (by decide) (by decide)
  | importing s id => exact slotsInfo_marker (by decide) (by decide) (by decide) (by decide)

theorem toNat_slot {n : Nat} (h : n ≤ 16383) : (UInt16.ofNat n).toNat = n :=
  UInt16.toNat_ofNat_of_lt (Nat.lt_of_le_of_lt h (by decide))

theorem SlotToken.read_slotEnd {t : SlotToken} (h : t.Wf) : t.read.slotEnd_.toNat < 65535 := by
  cases t with
  | slot n =>
    have hn : n ≤ 16383 := h
    rw [read, toNat_slot hn]
    omega
  | range a b =>
    obtain ⟨-, hb⟩ := h
    rw [read, toNat_slot hb]
    omega
  | migrating s id => simp [read]
  | importing s id => simp [read]

/-- A plain token is read as its slots, a marker as slot 0. -/
theorem SlotToken.read_covers {t : SlotToken} (h : t.Wf) (s : UInt16) :
    t.read.covers s = (t.covers s || (t.isMarker && s = 0)) := by
  rw [Bool.eq_iff_iff]
  cases t with
  | slot n =>
    have hn : n ≤ 16383 := h
    simp only [read, SlotsInfo.covers, covers, isMarker, UInt16.le_iff_toNat_le, toNat_slot hn,
      decide_eq_true_eq, Bool.false_and, Bool.or_false]
    omega
  | range a b =>
    obtain ⟨hab, hb⟩ := h
    simp only [read, SlotsInfo.covers, covers, isMarker, UInt16.le_iff_toNat_le, toNat_slot hb,
      toNat_slot (Nat.le_trans hab hb), decide_eq_true_eq, Bool.false_and, Bool.or_false]
  | migrating _ id =>
    simp [read, SlotsInfo.covers, covers, isMarker]
  | importing _ id =>
    simp [read, SlotsInfo.covers, covers, isMarker]

theorem SlotToken.any_read_covers {slots : List SlotToken} (h : ∀ t ∈ slots, t.Wf) (s : UInt16) :
    (slots.any fun t => t.read.covers s) =
      (slots.any (·.covers s) || (slots.any (·.isMarker) && s = 0)) := by
  induction slots with
  | nil => simp
  | cons t slots ih =>
    rw [List.any_cons, List.any_cons, List.any_cons, ih fun t' ht' => h t' (.tail _ ht'),
      read_covers (h t (.head _))]
    -- both sides are `or` of the same four
    grind

end RedisAsyn
end CmakeFrame
