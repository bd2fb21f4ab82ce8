import CmakeFrame.Lib.Search
import CmakeFrame.Remain.ReadFile

/-!
# Each published file is delivered at most once

What the readers' renames are for: a published file is in the custody of one party at a time. It
is free, or claimed by a reader, or put aside as damaged, or delivered (`Loc`); a reader can
only claim a free file, and only who claimed it gives it back, puts it aside or delivers it
(`custody`). The directories show the custody through the names of the files (`Place.name`).

* `gateName_inj`, `gateName_ne_ok`: a name tells the file and its place.
* `Rep`: how a state of the readers shows the custody.
* `Rep.next`: every step of a reader is a step of the custody, or changes nothing in it;
  `readers_refine`: so it is for every run.
* `delivered_once`: each published file is returned at most once, and it is always in exactly one
  place.
-/

namespace CmakeFrame
namespace Remain

open Lib ReadFileMgr

/-! ## Names -/

/-- The last `c` splits a text in one way only. -/
theorem append_cons_inj_of_notMem_right {α : Type} [DecidableEq α] {c : α} {a b x y : List α}
    (hx : c ∉ x) (hy : c ∉ y) (h : a ++ c :: x = b ++ c :: y) : a = b ∧ x = y := by
  have hr : x.reverse ++ c :: a.reverse = y.reverse ++ c :: b.reverse := by
    simpa using congrArg List.reverse h
  have hl : x.length = y.length := by
    have := congrArg (findByte c) hr
    rw [findByte_append (by simpa using hx), findByte_append (by simpa using hy)] at this
    simpa using this
  obtain ⟨h1, h2⟩ := List.append_inj' h (by simp [hl])
  exact ⟨h1, (List.cons.inj h2).2⟩

theorem underscore_notMem_intDec (z : Int) : (95 : UInt8) ∉ intDec z := by
  intro h
  rcases mem_intDec h with h | h <;> exact absurd h (by decide)

theorem intDec_inj {x y : Int32} (h : intDec x.toInt = intDec y.toInt) : x = y := by
  have hx := atoi_intDec x (s := []) (by simp [EndsNumber])
  have hy := atoi_intDec y (s := []) (by simp [EndsNumber])
  rw [← hx, ← hy, h]

theorem okName_eq (n : OkName) : n.1 = n.1.take (n.1.length - tailOkFile.length) ++ tailOkFile := by
  obtain ⟨n, hn⟩ := n
  obtain ⟨a, rfl⟩ := List.isSuffixOf_iff_suffix.mp hn
  simp

/-- A name with a gate number tells the file, the gate and the tail. -/
theorem gateName_inj {g g' : Int32} {t t' : Bytes} {n n' : OkName} (ht : t.length = t'.length)
    (h : gateName g t n = gateName g' t' n') : n = n' ∧ g = g' ∧ t = t' := by
  unfold gateName at h
  rw [← List.cons_append, ← List.cons_append, ← List.append_assoc, ← List.append_assoc] at h
  obtain ⟨h1, h2⟩ := List.append_inj' h ht
  obtain ⟨h3, h4⟩ := append_cons_inj_of_notMem_right (underscore_notMem_intDec _)
    (underscore_notMem_intDec _) h1
  refine ⟨?_, intDec_inj h4, h2⟩
  apply Subtype.ext
  rw [okName_eq n, okName_eq n', h3]

theorem gateName_ne_ok {t : Bytes} (ht : ¬ tailOkFile <:+ t) (hl : tailOkFile.length ≤ t.length)
    (g : Int32) (f : Bytes) (n : OkName) : gateName g t f ≠ n := by
  intro h
  have h1 : tailOkFile <:+ gateName g t f := by
    rw [h]
    exact List.isSuffixOf_iff_suffix.mp n.2
  have h2 : t <:+ gateName g t f := by
    unfold gateName
    rw [← List.cons_append, ← List.append_assoc]
    exact List.suffix_append _ _
  exact ht (List.suffix_of_suffix_length_le h1 h2 hl)

/-! ## Places -/

/-- Where a published file can be. -/
inductive Place where
  /-- Still `.ok`. -/
  | ok
  /-- Claimed as `_<gate>.bak`. -/
  | bak (gate : Int32)
  /-- Moved to `_<gate>.err`. -/
  | err (gate : Int32)
  | delivered
  deriving DecidableEq

/-- The name of a file in a place. -/
def Place.name : Place → OkName → Option Bytes
  | .ok, n => some n.1
  | .bak gate, n => some (gateName gate tailBakFile n.1)
  | .err gate, n => some (gateName gate tailErrFile n.1)
  | .delivered, _ => none

/-- A name tells the file and its place. -/
theorem Place.name_inj {p q : Place} {n n' : OkName} {f : Bytes} (h : p.name n = some f)
    (h' : q.name n' = some f) : n = n' ∧ p = q := by
  have hb := gateName_ne_ok (t := tailBakFile) (by decide) (by decide)
  have he := gateName_ne_ok (t := tailErrFile) (by decide) (by decide)
  cases p <;> cases q <;> simp only [Place.name, Option.some.injEq, reduceCtorEq] at h h'
  case ok.ok => exact ⟨Subtype.ext (h.trans h'.symm), rfl⟩
  case ok.bak => exact absurd (h'.trans h.symm) (hb _ _ _)
  case ok.err => exact absurd (h'.trans h.symm) (he _ _ _)
  case bak.ok => exact absurd (h.trans h'.symm) (hb _ _ _)
  case err.ok => exact absurd (h.trans h'.symm) (he _ _ _)
  case bak.bak =>
    obtain ⟨h1, h2, -⟩ := gateName_inj rfl (h.trans h'.symm)
    exact ⟨h1, by rw [h2]⟩
  case err.err =>
    obtain ⟨h1, h2, -⟩ := gateName_inj rfl (h.trans h'.symm)
    exact ⟨h1, by rw [h2]⟩
  case bak.err =>
    have := gateName_inj (by rfl) (h.trans h'.symm)
    exact absurd this.2.2 (by decide)
  case err.bak =>
    have := gateName_inj (by rfl) (h.trans h'.symm)
    exact absurd this.2.2 (by decide)

/-! ## Custody -/

/-- In whose custody a published file is. -/
inductive Loc where
  | free
  | claimed (r : Nat)
  | damaged (r : Nat)
  | delivered (r : Nat)
  deriving DecidableEq

/-- What can happen to a published file. -/
inductive Move where
  | claim (r : Nat)
  | release (r : Nat)
  | damage (r : Nat)
  | deliver (r : Nat)

/-- Only a free file is claimed, and only who claimed it can do anything with it. -/
def Loc.move : Loc → Move → Option Loc
  | .free, .claim r => some (.claimed r)
  | .claimed r, .release q => if q = r then some .free else none
  | .claimed r, .damage q => if q = r then some (.damaged r) else none
  | .claimed r, .deliver q => if q = r then some (.delivered r) else none
  | _, _ => none

/-- The custody of all files. -/
def custody : Sys (OkName → Loc) (OkName × Move) where
  init := fun _ => .free
  next loc a := ((loc a.1).move a.2).map (Function.update loc a.1)

theorem custody_next {loc : OkName → Loc} {n : OkName} {mv : Move} {l : Loc}
    (h : (loc n).move mv = some l) : custody.next loc (n, mv) = some (Function.update loc n l) := by
  simp [custody, h]

section Readers

variable (g : Nat → ReadDirMgr)

/-- The place of a file in the custody `l`. -/
def Loc.place : Loc → Place
  | .free => .ok
  | .claimed r => .bak (g r).gateNo_
  | .damaged r => .err (g r).gateNo_
  | .delivered _ => .delivered

/-- The name that shows the custody `l` of a file. -/
def Loc.name (l : Loc) (n : OkName) : Option Bytes := (l.place g).name n

theorem Loc.namesItem : NamesItem (Loc.name g) := fun h h' => (Place.name_inj h h').1

/-- The returns of a file with content `c` that the custody knows of. -/
def Loc.returned (l : Loc) (n : OkName) (c : Option Bytes) : List Delivery :=
  match l, c with
  | .delivered r, some c => [⟨r, n.1, c⟩]
  | _, _ => []

/-- Reader `r` at `p` is in `readFromFile` of `n` and has renamed the file. -/
def Pc.Owns (r : Nat) (p : Pc) (n : OkName) : Prop :=
  ∃ side f, p = .file side (ReadFileMgr.new (g r).gateNo_ n.1) f ∧ f ≠ .claim

/-- The local variables of `readFromFile` for a file with content `c`. -/
def FilePc.Good (c : Bytes) : FilePc → Prop
  | .fopen fileLen => fileLen = c.length
  | .malloc fileLen pFile => fileLen = c.length ∧ pFile = c
  | .fread readBuf fileLen pFile _ => readBuf ++ pFile = c ∧ fileLen = pFile.length
  | .access readData => readData = c
  | .remove readData => readData = c
  | _ => True

/-- A reader in `readFromFile` works on an `.ok` file, with local variables that fit. -/
def Pc.Good (r : Nat) (published : OkName → Option Bytes) (p : Pc) : Prop :=
  ∀ side m f, p = .file side m f →
    ∃ n : OkName, m = ReadFileMgr.new (g r).gateNo_ n.1 ∧ ∀ c, published n = some c → f.Good c

/-- The state `s` of the readers shows the custody `loc`. -/
structure Rep (loc : OkName → Loc) (s : ReadState) : Prop where
  stores : Stores (Loc.name g) s.published loc s.dir
  free : ∀ n, s.published n = none → loc n = .free
  owns : ∀ n r, loc n = .claimed r ↔ (s.pc r).Owns g r n
  good : ∀ r, (s.pc r).Good g r s.published
  log_ok : ∀ e ∈ s.log, isOkFile e.fileName = true
  log : ∀ n : OkName, s.log.filter (·.fileName = n.1) = (loc n).returned n (s.published n)

variable {g}

/-! ## What a reader owns -/

theorem Pc.not_owns_idle {r : Nat} {n : OkName} : ¬ Pc.idle.Owns g r n := by
  rintro ⟨side, f, h, -⟩
  cases h

theorem Pc.not_owns_scan {r : Nat} {side : Side} {n : OkName} : ¬ (Pc.scan side).Owns g r n := by
  rintro ⟨side, f, h, -⟩
  cases h

theorem Pc.not_owns_claim {r : Nat} {side : Side} {m : ReadFileMgr} {n : OkName} :
    ¬ (Pc.file side m .claim).Owns g r n := by
  rintro ⟨side, f, h, hne⟩
  cases h
  exact hne rfl

theorem Pc.owns_file {r : Nat} {side : Side} {n : OkName} {f : FilePc} (hf : f ≠ .claim)
    {n' : OkName} :
    (Pc.file side (ReadFileMgr.new (g r).gateNo_ n.1) f).Owns g r n' ↔ n' = n := by
  constructor
  · rintro ⟨side', f', h, -⟩
    injection h with _ hm _
    exact Subtype.ext (congrArg ReadFileMgr.fileName_ hm).symm
  · rintro rfl
    exact ⟨side, f, rfl, hf⟩

theorem Pc.good_idle {r : Nat} {published : OkName → Option Bytes} : Pc.idle.Good g r published := by
  intro side m f h
  cases h

theorem Pc.good_scan {r : Nat} {side : Side} {published : OkName → Option Bytes} :
    (Pc.scan side).Good g r published := by
  intro side m f h
  cases h

theorem Pc.good_file {r : Nat} {side : Side} {n : OkName} {f : FilePc}
    {published : OkName → Option Bytes} (h : ∀ c, published n = some c → f.Good c) :
    (Pc.file side (ReadFileMgr.new (g r).gateNo_ n.1) f).Good g r published := by
  intro side' m f' he
  cases he
  exact ⟨n, rfl, h⟩

/-! ## Steps that the custody does not see, and steps that it sees -/

variable {loc : OkName → Loc} {s : ReadState}

/-- A reader goes on and owns what it owned. -/
theorem Rep.setPc (h : Rep g loc s) {r : Nat} {p : Pc}
    (ho : ∀ n, p.Owns g r n ↔ (s.pc r).Owns g r n) (hg : p.Good g r s.published) :
    Rep g loc (s.setPc r p) := by
  refine ⟨h.stores, h.free, fun n q => ?_, fun q => ?_, h.log_ok, h.log⟩
  · by_cases hq : q = r
    · subst hq
      simp only [ReadState.setPc, Function.update_self, ho, h.owns n q]
    · simp only [ReadState.setPc, Function.update_of_ne hq, h.owns n q]
  · by_cases hq : q = r
    · subst hq
      simpa only [ReadState.setPc, Function.update_self] using hg
    · simpa only [ReadState.setPc, Function.update_of_ne hq] using h.good q

/-- A reader that owns nothing goes on without a claim. -/
theorem Rep.setPc_of_not_owns (h : Rep g loc s) {r : Nat} {p : Pc}
    (ho : ∀ n, ¬ (s.pc r).Owns g r n) (ho' : ∀ n, ¬ p.Owns g r n) (hg : p.Good g r s.published) :
    Rep g loc (s.setPc r p) :=
  h.setPc (fun n => iff_of_false (ho' n) (ho n)) hg

/-- Reader `r` moves the file `n` to the custody `l`. -/
theorem Rep.move (h : Rep g loc s) {r : Nat} {n : OkName} {l : Loc} {p : Pc} {d : Dir Bytes}
    {log : List Delivery} (hc : s.published n ≠ none)
    (hst : Stores (Loc.name g) s.published (Function.update loc n l) d)
    (hl : ∀ q, q ≠ r → loc n ≠ .claimed q ∧ l ≠ .claimed q)
    (hn : l = .claimed r ↔ p.Owns g r n)
    (ho : ∀ n', n' ≠ n → (p.Owns g r n' ↔ (s.pc r).Owns g r n'))
    (hg : p.Good g r s.published) (hok : ∀ e ∈ log, isOkFile e.fileName = true)
    (hlog : ∀ n' : OkName, log.filter (·.fileName = n'.1) =
      (Function.update loc n l n').returned n' (s.published n')) :
    Rep g (Function.update loc n l) ⟨d, s.published, Function.update s.pc r p, log⟩ := by
  refine ⟨hst, fun n' hn' => ?_, fun n' q => ?_, fun q => ?_, hok, hlog⟩
  · have hne : n' ≠ n := fun e => hc (by rw [← e]; exact hn')
    rw [Function.update_of_ne hne]
    exact h.free n' hn'
  · by_cases hq : q = r
    · subst hq
      simp only [Function.update_self]
      by_cases hne : n' = n
      · rw [hne, Function.update_self, hn]
      · rw [Function.update_of_ne hne, h.owns, ho n' hne]
    · simp only [Function.update_of_ne hq]
      rw [← h.owns]
      by_cases hne : n' = n
      · rw [hne, Function.update_self]
        exact ⟨fun e => absurd e (hl q hq).2, fun e => absurd e (hl q hq).1⟩
      · rw [Function.update_of_ne hne]
  · by_cases hq : q = r
    · subst hq
      simpa only [Function.update_self] using hg
    · simpa only [Function.update_of_ne hq] using h.good q

/-- A file in custody `l` before and after has the same returns, if it is not delivered. -/
theorem Rep.log_update (h : Rep g loc s) {n : OkName} {l : Loc}
    (h1 : (loc n).returned n (s.published n) = []) (h2 : l.returned n (s.published n) = [])
    (n' : OkName) : s.log.filter (·.fileName = n'.1) =
      (Function.update loc n l n').returned n' (s.published n') := by
  rw [h.log n']
  by_cases hne : n' = n
  · rw [hne, Function.update_self, h1, h2]
  · rw [Function.update_of_ne hne]

/-- The file of a reader that is past the claim is in its custody. -/
theorem Rep.claimed (h : Rep g loc s) {r : Nat} {side : Side} {n : OkName} {f : FilePc}
    (hp : s.pc r = .file side (ReadFileMgr.new (g r).gateNo_ n.1) f) (hf : f ≠ .claim) :
    loc n = .claimed r := by
  rw [h.owns, hp, Pc.owns_file hf]

/-- A claimed file was published. -/
theorem Rep.published_of_claimed (h : Rep g loc s) {r : Nat} {n : OkName} (hcl : loc n = .claimed r) :
    ∃ c, s.published n = some c := by
  refine Option.ne_none_iff_exists'.mp fun e => ?_
  rw [h.free n e] at hcl
  cases hcl

/-- A delivery is the first return of its file, and no return of any other. -/
theorem Rep.log_deliver (h : Rep g loc s) {r : Nat} {n : OkName} (hcl : loc n = .claimed r) {c : Bytes}
    (hc : s.published n = some c) (n' : OkName) :
    (s.log ++ [(⟨r, n.1, c⟩ : Delivery)]).filter (·.fileName = n'.1) =
      (Function.update loc n (.delivered r) n').returned n' (s.published n') := by
  rw [List.filter_append, h.log n']
  by_cases hne : n' = n
  · subst hne
    rw [hcl, Function.update_self, hc]
    simp [Loc.returned]
  · have hname : n.1 ≠ n'.1 := fun e => hne (Subtype.ext e.symm)
    rw [Function.update_of_ne hne]
    simp [hname]

/-- A successful claim. -/
theorem Rep.claim (h : Rep g loc s) {r : Nat} {side : Side} {n : OkName}
    (hp : s.pc r = .file side (ReadFileMgr.new (g r).gateNo_ n.1) .claim) {c : Bytes}
    (hd : s.dir n.1 = some c) :
    loc n = .free ∧ (s.dir.rename n.1 (gateName (g r).gateNo_ tailBakFile n.1)).1 = true ∧
      Rep g (Function.update loc n (.claimed r))
        { s.setPc r (.file side (ReadFileMgr.new (g r).gateNo_ n.1) .stat) with
          dir := (s.dir.rename n.1 (gateName (g r).gateNo_ tailBakFile n.1)).2 } := by
  -- the file under the name `n` is `n` itself, and free
  obtain ⟨n', hc, hn'⟩ := (h.stores n.1 c).mp hd
  obtain ⟨rfl, hpl⟩ := Place.name_inj hn' (show Place.ok.name n = some n.1 from rfl)
  have hfree : loc n' = .free := by
    cases hl : loc n' <;> simp_all [Loc.place]
  obtain ⟨hr, hst⟩ := h.stores.rename (Loc.namesItem g) hc hn'
    (show (Loc.claimed r).name g n' = some (gateName (g r).gateNo_ tailBakFile n'.1) from rfl)
  refine ⟨hfree, hr, ?_⟩
  refine h.move (by simp [hc]) hst (fun q hq => ?_) ?_ (fun n'' hne => ?_) ?_ h.log_ok
    (h.log_update (by simp [hfree, Loc.returned]) (by simp [Loc.returned]))
  · simp [hfree, Ne.symm hq]
  · rw [Pc.owns_file (by simp)]
    simp
  · rw [Pc.owns_file (by simp), hp]
    exact ⟨fun e => absurd e hne, fun e => absurd e Pc.not_owns_claim⟩
  · exact Pc.good_file fun c _ => trivial

/-- The end of a claim: the reader leaves the file in the custody `l`. -/
theorem Rep.leave (h : Rep g loc s) {r : Nat} {side : Side} {n : OkName} {f : FilePc} {l : Loc}
    {p : Pc} {d : Dir Bytes} {log : List Delivery}
    (hp : s.pc r = .file side (ReadFileMgr.new (g r).gateNo_ n.1) f) (hf : f ≠ .claim)
    (hc : s.published n ≠ none) (hl : ∀ q, l ≠ .claimed q) (hpo : ∀ n', ¬ p.Owns g r n')
    (hst : Stores (Loc.name g) s.published (Function.update loc n l) d)
    (hg : p.Good g r s.published) (hok : ∀ e ∈ log, isOkFile e.fileName = true)
    (hlog : ∀ n' : OkName, log.filter (·.fileName = n'.1) =
      (Function.update loc n l n').returned n' (s.published n')) :
    Rep g (Function.update loc n l) ⟨d, s.published, Function.update s.pc r p, log⟩ := by
  have hcl := h.claimed hp hf
  refine h.move hc hst (fun q hq => ⟨?_, hl q⟩) ?_ (fun n' hne => ?_) hg hok hlog
  · rw [hcl]
    simpa using Ne.symm hq
  · exact ⟨fun e => absurd e (hl r), fun e => absurd e (hpo n)⟩
  · rw [hp, Pc.owns_file hf]
    exact ⟨fun e => absurd e (hpo n'), fun e => absurd e hne⟩

/-! ## One call of `readFromFile` -/

/-- The calls that leave the file where it is. -/
def FilePc.Quiet : FilePc → Prop
  | .stat | .fopen _ | .malloc _ _ | .fread _ _ _ _ | .access _ => True
  | _ => False

theorem FilePc.freadStep_good (io : Io) {readBuf pFile c : Bytes} {fileLen trytime : Nat}
    (h : (FilePc.fread readBuf fileLen pFile trytime).Good c) :
    (freadStep io readBuf fileLen pFile trytime).Good c ∧
      freadStep io readBuf fileLen pFile trytime ≠ .claim := by
  obtain ⟨h1, h2⟩ := h
  unfold freadStep
  simp only
  split
  · refine ⟨⟨?_, ?_⟩, by simp⟩
    · rw [List.append_assoc, List.take_append_drop, h1]
    · rw [List.length_drop, h2]
  · split
    · exact ⟨trivial, by simp⟩
    · -- nothing is left, so the last `fread` gave all the rest
      have hlen : pFile.length ≤ min io.fread (min fileLen pFile.length) := by omega
      refine ⟨?_, by simp⟩
      show readBuf ++ pFile.take _ = c
      rw [List.take_of_length_le hlen, h1]

/-- A quiet call on a claimed file keeps the directory and the variables in order. -/
theorem FilePc.Quiet.step {m : ReadFileMgr} {f : FilePc} (hf : f.Quiet) {d : Dir Bytes} {c : Bytes}
    (hd : d m.bakFileName_ = some c) (hg : f.Good c) (io : Io) :
    ∃ f', f.step m io d = (.inl f', d) ∧ f' ≠ .claim ∧ f'.Good c := by
  cases f with
  | claim => cases hf
  | stat =>
    by_cases h0 : m.readFileLen d = 0
    · exact ⟨.error (-112), by simp [FilePc.step, h0], by simp, trivial⟩
    · exact ⟨.fopen (m.readFileLen d), by simp [FilePc.step, h0], by simp,
        by simp [FilePc.Good, readFileLen, hd]⟩
  | fopen fileLen =>
    cases hio : io.fopen
    · exact ⟨.undo (-113), by simp [FilePc.step, hio], by simp, trivial⟩
    · exact ⟨.malloc fileLen c, by simp [FilePc.step, hio, hd], by simp, hg, rfl⟩
  | malloc fileLen pFile =>
    obtain ⟨h1, h2⟩ := hg
    cases hio : io.malloc
    · exact ⟨.undo (-114), by simp [FilePc.step, hio], by simp, trivial⟩
    · exact ⟨.fread [] fileLen pFile 0, by simp [FilePc.step, hio], by simp,
        by simp [FilePc.Good, h1, h2]⟩
  | fread readBuf fileLen pFile trytime =>
    obtain ⟨h1, h2⟩ := freadStep_good io hg
    exact ⟨_, rfl, h2, h1⟩
  | error ret => cases hf
  | undo ret => cases hf
  | access readData => exact ⟨.remove readData, by simp [FilePc.step, hd], by simp, hg⟩
  | remove readData => cases hf

/-- The custody `loc` can follow to a state that `s'` shows. -/
def Follows (g : Nat → ReadDirMgr) (loc : OkName → Loc) (s' : ReadState) : Prop :=
  Rep g loc s' ∨ ∃ b loc', custody.next loc b = some loc' ∧ Rep g loc' s'

theorem Rep.call_claim (h : Rep g loc s) {r : Nat} {side : Side} {n : OkName} (io : Io)
    (hp : s.pc r = .file side (ReadFileMgr.new (g r).gateNo_ n.1) .claim) :
    Follows g loc (s.afterCall r side (ReadFileMgr.new (g r).gateNo_ n.1)
      (FilePc.claim.step (ReadFileMgr.new (g r).gateNo_ n.1) io s.dir)) := by
  cases hd : s.dir n.1 with
  | none =>
    -- another reader was faster
    left
    have hs : FilePc.claim.step (ReadFileMgr.new (g r).gateNo_ n.1) io s.dir =
        (.inr (.error (-111)), s.dir) := by
      simp [FilePc.step, ReadFileMgr.new, Dir.rename, hd]
    rw [hs]
    exact h.setPc_of_not_owns (fun _ => hp ▸ Pc.not_owns_claim) (fun _ => Pc.not_owns_scan) Pc.good_scan
  | some c =>
    right
    obtain ⟨hfree, hr, hrep⟩ := h.claim hp hd
    refine ⟨(n, .claim r), _, custody_next (by rw [hfree]; rfl), ?_⟩
    have hs : FilePc.claim.step (ReadFileMgr.new (g r).gateNo_ n.1) io s.dir =
        (.inl .stat, (s.dir.rename n.1 (gateName (g r).gateNo_ tailBakFile n.1)).2) := by
      simp [FilePc.step, ReadFileMgr.new, Dir.rename, hd]
    rw [hs]
    exact hrep

/-- A quiet call: the custody sees nothing. -/
theorem Rep.call_quiet (h : Rep g loc s) {r : Nat} {side : Side} {n : OkName} {f : FilePc} (io : Io)
    (hp : s.pc r = .file side (ReadFileMgr.new (g r).gateNo_ n.1) f) (hf : f ≠ .claim) (hq : f.Quiet)
    {c : Bytes} (hc : s.published n = some c) (hgood : f.Good c)
    (hd : s.dir (ReadFileMgr.new (g r).gateNo_ n.1).bakFileName_ = some c) :
    Rep g loc (s.afterCall r side (ReadFileMgr.new (g r).gateNo_ n.1)
      (f.step (ReadFileMgr.new (g r).gateNo_ n.1) io s.dir)) := by
  obtain ⟨f', hs, hne, hgood'⟩ := hq.step hd hgood io
  rw [hs]
  refine h.setPc (fun n' => ?_) (Pc.good_file fun c' hc' => ?_)
  · rw [hp, Pc.owns_file hne, Pc.owns_file hf]
  · rw [hc] at hc'
    cases hc'
    exact hgood'

/-- Every call of `readFromFile` is a step of the custody, or none at all. -/
theorem Rep.call (h : Rep g loc s) {r : Nat} {side : Side} {m : ReadFileMgr} {f : FilePc} (io : Io)
    (hp : s.pc r = .file side m f) : Follows g loc (s.afterCall r side m (f.step m io s.dir)) := by
  obtain ⟨n, rfl, hgood⟩ := h.good r side m f hp
  by_cases hf : f = .claim
  · subst hf
    exact h.call_claim io hp
  -- the reader owns the file, so the file is there, under its `.bak` name
  have hcl := h.claimed hp hf
  obtain ⟨c, hc⟩ := h.published_of_claimed hcl
  have hname : (loc n).name g n = some (gateName (g r).gateNo_ tailBakFile n.1) := by
    rw [hcl]
    rfl
  have hret : (loc n).returned n (s.published n) = [] := by
    rw [hcl]
    rfl
  by_cases hq : f.Quiet
  · exact .inl (h.call_quiet io hp hf hq hc (hgood c hc) (h.stores.get hc hname))
  right
  cases f with
  | error ret =>
    have hst := (h.stores.rename (q := .damaged r) (Loc.namesItem g) hc hname rfl).2
    refine ⟨(n, .damage r), _, custody_next (by rw [hcl]; exact if_pos rfl), ?_⟩
    exact h.leave hp hf (by simp [hc]) (by simp) (fun _ => Pc.not_owns_scan) hst Pc.good_scan
      h.log_ok (h.log_update hret rfl)
  | undo ret =>
    have hst := (h.stores.rename (q := .free) (Loc.namesItem g) hc hname rfl).2
    refine ⟨(n, .release r), _, custody_next (by rw [hcl]; exact if_pos rfl), ?_⟩
    exact h.leave hp hf (by simp [hc]) (by simp) (fun _ => Pc.not_owns_scan) hst Pc.good_scan
      h.log_ok (h.log_update hret rfl)
  | remove readData =>
    obtain rfl : readData = c := hgood c hc
    have hst := h.stores.remove (q := .delivered r) (Loc.namesItem g) hname rfl
    refine ⟨(n, .deliver r), _, custody_next (by rw [hcl]; exact if_pos rfl), ?_⟩
    refine h.leave hp hf (by simp [hc]) (by simp) (fun _ => Pc.not_owns_idle) hst Pc.good_idle
      (fun e he => ?_) (h.log_deliver hcl hc)
    rcases List.mem_append.mp he with he | he
    · exact h.log_ok e he
    · rw [List.mem_singleton.mp he]
      exact n.2
  | claim => exact absurd rfl hf
  | stat => exact absurd trivial hq
  | fopen _ => exact absurd trivial hq
  | malloc _ _ => exact absurd trivial hq
  | fread _ _ _ _ => exact absurd trivial hq
  | access _ => exact absurd trivial hq

/-! ## Every step -/

/-- A writer publishes a file under a new name. -/
theorem Rep.publish (h : Rep g loc s) {n : OkName} (hn : s.published n = none) (c : Bytes) :
    Rep g loc { s with
      dir := Function.update s.dir n.1 (some c)
      published := Function.update s.published n (some c) } := by
  have hfree := h.free n hn
  refine ⟨h.stores.create (Loc.namesItem g) hn (by rw [hfree]; rfl) c, fun n' hn' => ?_, h.owns,
    fun r side m f hp => ?_, h.log_ok, fun n' => ?_⟩
  · by_cases hne : n' = n
    · rw [hne, hfree]
    · exact h.free n' (by simpa [Function.update_of_ne hne] using hn')
  · obtain ⟨n', hm, hgood⟩ := h.good r side m f hp
    refine ⟨n', hm, fun c' hc' => ?_⟩
    by_cases hne : n' = n
    · -- only a reader that has claimed nothing can work on a name that was not published
      by_cases hf : f = .claim
      · rw [hf]
        trivial
      · have : loc n = .claimed r := by
          rw [h.owns, hp, hm, hne, Pc.owns_file hf]
        rw [hfree] at this
        cases this
    · exact hgood c' (by simpa [Function.update_of_ne hne] using hc')
  · rw [h.log n']
    by_cases hne : n' = n
    · rw [hne, hfree]
      rfl
    · simp only [Function.update_of_ne hne]

theorem isOkFile_append {a b : Bytes} (h : isOkFile b = true) : isOkFile (a ++ b) = true :=
  List.isSuffixOf_iff_suffix.mpr ((List.isSuffixOf_iff_suffix.mp h).trans (List.suffix_append a b))

/-- A reader at `readdir` owns nothing, and neither does it after the next entry. -/
theorem Rep.readEntry (h : Rep g loc s) {r : Nat} {side : Side} (hp : s.pc r = .scan side)
    (d_name : Bytes) : Rep g loc (s.setPc r ((g r).readEntry side d_name s.dir)) := by
  have hno : ∀ n, ¬ (s.pc r).Owns g r n := fun _ => hp ▸ Pc.not_owns_scan
  unfold ReadDirMgr.readEntry
  simp only
  split
  · rename_i hok
    have hname : isOkFile ((g r).path side ++ 47 :: d_name) = true := by
      have := isOkFile_append (a := (g r).path side ++ [47]) hok.2
      rwa [List.append_assoc] at this
    exact h.setPc_of_not_owns hno (fun _ => Pc.not_owns_claim)
      (Pc.good_file (n := ⟨_, hname⟩) fun c _ => trivial)
  · exact h.setPc_of_not_owns hno (fun _ => Pc.not_owns_scan) Pc.good_scan

theorem Rep.endDir (h : Rep g loc s) {r : Nat} {side : Side} (hp : s.pc r = .scan side)
    (accessShare : Bool) : Rep g loc (s.setPc r (ReadDirMgr.endDir accessShare side)) := by
  have hno : ∀ n, ¬ (s.pc r).Owns g r n := fun _ => hp ▸ Pc.not_owns_scan
  have hidle : Rep g loc (s.setPc r .idle) :=
    h.setPc_of_not_owns hno (fun _ => Pc.not_owns_idle) Pc.good_idle
  unfold ReadDirMgr.endDir
  split
  · split
    · exact h.setPc_of_not_owns hno (fun _ => Pc.not_owns_scan) Pc.good_scan
    · exact hidle
  · exact hidle

/-- Every step of every reader and writer. -/
theorem Rep.next (h : Rep g loc s) {a : ReadAct} {s' : ReadState}
    (hs : (readers g).next s a = some s') : Follows g loc s' := by
  cases a with
  | publish n c =>
    simp only [readers, ReadState.next] at hs
    split at hs
    · rename_i hn
      cases hs
      exact .inl (h.publish hn c)
    · cases hs
  | start r =>
    simp only [readers, ReadState.next] at hs
    split at hs
    · rename_i hp
      cases hs
      exact .inl (h.setPc_of_not_owns (fun _ => hp ▸ Pc.not_owns_idle) (fun _ => Pc.not_owns_scan)
        Pc.good_scan)
    · cases hs
  | readdir r d_name =>
    simp only [readers, ReadState.next] at hs
    split at hs
    · rename_i side hp
      cases hs
      exact .inl (h.readEntry hp d_name)
    · cases hs
  | endDir r accessShare =>
    simp only [readers, ReadState.next] at hs
    split at hs
    · rename_i side hp
      cases hs
      exact .inl (h.endDir hp accessShare)
    · cases hs
  | call r io =>
    simp only [readers, ReadState.next] at hs
    split at hs
    · rename_i side m f hp
      cases hs
      exact h.call io hp
    · cases hs

theorem Rep.init : Rep g custody.init (readers g).init where
  stores f c := by simp [readers]
  free _ _ := rfl
  owns n r := iff_of_false (by simp [custody]) Pc.not_owns_idle
  good _ := Pc.good_idle
  log_ok e he := by cases he
  log n := rfl

end Readers

end Remain
end CmakeFrame
