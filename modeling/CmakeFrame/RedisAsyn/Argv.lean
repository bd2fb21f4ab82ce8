import CmakeFrame.Lib.Words
import CmakeFrame.RedisAsyn.Command

/-!
# The arguments of a command

`requestCmd` gives the text of a command to hiredis as a format, without arguments.

* `redisvFormatCommand`: the arguments that a format comes to. `PrintfLike`: what is assumed of its
  directives.
* `CmdOrder.requestCmd`: the call.
* `formatLoop_literal`, `formatLoop_size`: a text that is copied, and how many bytes any other has
  left.
* `sentAsWritten_iff`: the commands that are sent as they were written.
-/

namespace CmakeFrame
namespace RedisAsyn

open Lib

/-! ## Formats -/

/-- A directive: the bytes behind the `%` that belong to it, what it expands to, and how many
variadic arguments are read for it. -/
structure Directive where
  taken : Nat
  text : Bytes
  reads : Nat
  deriving DecidableEq, Repr

/-- What is assumed of hiredis: `%%` is a `%`, any other directive reads its argument, and a `%` with
nothing behind it is copied unless the format is refused. -/
structure PrintfLike (directive : Bytes → Option Directive) : Prop where
  percent : ∀ rest, directive (37 :: rest) = some ⟨1, [37], 0⟩
  argument : ∀ b rest d, b ≠ 37 → directive (b :: rest) = some d → d.reads ≠ 0
  last : ∀ d, directive [] = some d → d = ⟨0, [37], 0⟩

/-- `curarg` is the argument that is being read, and `touched` whether it has begun. -/
structure Formatting where
  argv : List Bytes
  curarg : Bytes
  touched : Bool
  reads : Nat
  deriving DecidableEq, Repr

namespace Formatting

def endArg (s : Formatting) : Formatting :=
  if s.touched then { s with argv := s.argv ++ [s.curarg], curarg := [], touched := false } else s

def put (s : Formatting) (text : Bytes) : Formatting :=
  { s with curarg := s.curarg ++ text, touched := true }

def read (s : Formatting) (n : Nat) : Formatting := { s with reads := s.reads + n }

end Formatting

/-- The loop over a format. `directive` is what the text behind a `%` begins with (`none`: the format
is refused), and `skip` how many bytes still belong to the last one. -/
def formatLoop (directive : Bytes → Option Directive) : Bytes → Nat → Formatting → Option Formatting
  | [], _, s => some s
  | _ :: c, skip + 1, s => formatLoop directive c skip s
  | b :: c, 0, s =>
    if b = 37 then
      match directive c with
      | none => none
      | some d => formatLoop directive c d.taken ((s.put d.text).read d.reads)
    else if b = 32 then formatLoop directive c 0 s.endArg
    else formatLoop directive c 0 (s.put [b])

/-- What is sent for a format: the arguments, split at the spaces of the format, and how many
variadic arguments have been read. -/
def redisvFormatCommand (directive : Bytes → Option Directive) (format : Bytes) :
    Option (List Bytes × Nat) :=
  (formatLoop directive (cstr format) 0 ⟨[], [], false, 0⟩).map fun s => (s.endArg.argv, s.reads)

/-- `redisAsyncCommand(client_, cmdCallback, priv, order->cmdMsg_.c_str())`: no variadic argument is
passed. -/
def CmdOrder.requestCmd (directive : Bytes → Option Directive) (order : CmdOrder) :
    Option (List Bytes × Nat) :=
  redisvFormatCommand directive order.cmdMsg_

/-- The arguments are the words of the command, and no variadic one has been read. -/
def SentAsWritten (directive : Bytes → Option Directive) (q : QueuedCmd) (cmdStr : Bytes) : Prop :=
  q.cmdOrd_.requestCmd directive = some (words 32 cmdStr, 0)

/-- Every `%` is the last byte, and is copied there. -/
def Literal (directive : Bytes → Option Directive) (c : Bytes) : Prop :=
  ∀ pre post, c = pre ++ 37 :: post → post = [] ∧ directive [] ≠ none

/-! ## The loop -/

namespace Formatting

/-- The bytes of the arguments. -/
def size (s : Formatting) : Nat := s.argv.flatten.length + s.curarg.length

@[simp]
theorem endArg_size (s : Formatting) : s.endArg.size = s.size := by
  unfold endArg
  split <;> simp [size]

@[simp]
theorem put_size (s : Formatting) (text : Bytes) : (s.put text).size = s.size + text.length := by
  simp [size, put, Nat.add_assoc]

@[simp]
theorem read_size (s : Formatting) (n : Nat) : (s.read n).size = s.size := rfl

@[simp]
theorem endArg_reads (s : Formatting) : s.endArg.reads = s.reads := by
  unfold endArg
  split <;> rfl

@[simp]
theorem put_reads (s : Formatting) (text : Bytes) : (s.put text).reads = s.reads := rfl

@[simp]
theorem read_reads (s : Formatting) (n : Nat) : (s.read n).reads = s.reads + n := rfl

/-- An argument has begun when it has a byte. -/
def Wf (s : Formatting) : Prop := s.touched = true ↔ s.curarg ≠ []

theorem Wf.put {s : Formatting} {text : Bytes} (h : text ≠ []) : (s.put text).Wf := by
  simp [Formatting.put, Formatting.Wf, h]

theorem Wf.endArg {s : Formatting} (h : s.Wf) :
    s.endArg.Wf ∧ s.endArg.curarg = [] ∧
      s.endArg.argv = s.argv ++ if s.curarg = [] then [] else [s.curarg] := by
  unfold Formatting.Wf at h
  unfold Formatting.endArg Formatting.Wf
  by_cases ht : s.touched = true
  · simp [ht, h.mp ht]
  · have hc : s.curarg = [] := by
      by_contra hc
      exact ht (h.mpr hc)
    simp [ht, hc]

end Formatting

variable {directive : Bytes → Option Directive}

theorem Literal.tail {b : UInt8} {c : Bytes} (h : Literal directive (b :: c)) :
    Literal directive c :=
  fun pre post heq => h (b :: pre) post (by rw [heq, List.cons_append])

theorem Literal.cons {b : UInt8} {c : Bytes} (hb : b ≠ 37) (h : Literal directive c) :
    Literal directive (b :: c) := by
  intro pre post heq
  cases pre with
  | nil => exact absurd (List.cons.inj heq).1 hb
  | cons a pre => exact h pre post (List.cons.inj heq).2

/-- A `%` at the end. -/
theorem literal_percent (h : directive [] ≠ none) : Literal directive [37] := by
  intro pre post heq
  cases pre with
  | nil => exact ⟨(List.cons.inj heq).2.symm, h⟩
  | cons a pre => simp at heq

/-- A text without `%` in front. -/
theorem Literal.append {l c : Bytes} (hl : 37 ∉ l) (h : Literal directive c) :
    Literal directive (l ++ c) := by
  induction l with
  | nil => exact h
  | cons b l ih =>
    obtain ⟨hb, hl⟩ := not_or.mp (List.mem_cons.not.mp hl)
    exact (ih hl).cons (Ne.symm hb)

variable (hd : PrintfLike directive)
include hd

/-- A text that is copied comes to its words. -/
theorem formatLoop_literal {c : Bytes} (h : Literal directive c) {s : Formatting} (hs : s.Wf) :
    ∃ s', formatLoop directive c 0 s = some s' ∧ s'.reads = s.reads ∧
      s'.endArg.argv = s.argv ++ wordsFrom 32 s.curarg c := by
  induction c generalizing s with
  | nil => exact ⟨s, rfl, rfl, by rw [wordsFrom_nil]; exact hs.endArg.2.2⟩
  | cons b c ih =>
    rw [formatLoop]
    by_cases hb : b = 37
    · obtain ⟨rfl, hsome⟩ := h [] c (by rw [hb, List.nil_append])
      obtain ⟨d, hdir⟩ := Option.ne_none_iff_exists'.mp hsome
      rw [if_pos hb, hdir, hd.last d hdir]
      refine ⟨_, rfl, rfl, ?_⟩
      have hwf : ((s.put [37]).read 0).Wf := Formatting.Wf.put (by simp)
      rw [hwf.endArg.2.2, hb, wordsFrom_cons (by decide), wordsFrom_nil]
      rfl
    · rw [if_neg hb]
      by_cases hsp : b = 32
      · obtain ⟨hwf, hcur, hargv⟩ := hs.endArg
        obtain ⟨s', heq, hreads, hs'⟩ := ih h.tail hwf
        refine ⟨s', by rw [if_pos hsp, heq], by rw [hreads, Formatting.endArg_reads], ?_⟩
        rw [hs', hcur, hargv, hsp, wordsFrom_sep, wordsFrom_nil_left, List.append_assoc]
      · have hwf : (s.put [b]).Wf := Formatting.Wf.put (List.cons_ne_nil b [])
        obtain ⟨s', heq, hreads, hs'⟩ := ih h.tail hwf
        refine ⟨s', by rw [if_neg hsp, heq], hreads, ?_⟩
        rw [hs', wordsFrom_cons hsp]
        rfl

omit hd in
theorem formatLoop_reads {c : Bytes} {skip : Nat} {s s' : Formatting}
    (h : formatLoop directive c skip s = some s') : s.reads ≤ s'.reads := by
  induction c generalizing skip s with
  | nil =>
    cases h
    exact Nat.le_refl _
  | cons b c ih =>
    cases skip with
    | succ skip => exact ih h
    | zero =>
      rw [formatLoop] at h
      split at h
      · split at h
        · cases h
        · rename_i d _
          exact (Nat.le_add_right s.reads d.reads).trans (ih h)
      · split at h
        · have hle := ih h
          rwa [Formatting.endArg_reads] at hle
        · have hle := ih h
          rwa [Formatting.put_reads] at hle

/-- A `%`, if no argument is read for it: it is the last byte and is copied, or it begins a `%%`. -/
theorem formatLoop_percent {c : Bytes} {s s' : Formatting}
    (h : formatLoop directive (37 :: c) 0 s = some s') (hreads : s'.reads = 0) :
    (c = [] ∧ directive [] ≠ none ∧ s'.size = s.size + 1) ∨
      ∃ c' s₁, c = 37 :: c' ∧ formatLoop directive c' 0 s₁ = some s' ∧ s₁.size = s.size + 1 := by
  rw [formatLoop, if_pos rfl] at h
  cases hdir : directive c with
  | none =>
    rw [hdir] at h
    cases h
  | some d =>
    rw [hdir] at h
    simp only at h
    have hzero : d.reads = 0 := by
      have hle := formatLoop_reads h
      rw [Formatting.read_reads] at hle
      omega
    cases c with
    | nil =>
      rw [hd.last d hdir] at h
      cases h
      exact .inl ⟨rfl, hdir ▸ Option.some_ne_none d, by simp⟩
    | cons b c =>
      by_cases hb : b = 37
      · rw [hb, hd.percent, Option.some_inj] at hdir
        rw [← hdir, formatLoop] at h
        exact .inr ⟨c, _, by rw [hb], h, by simp⟩
      · exact absurd hzero (hd.argument b c d hb hdir)

/-- Without an argument read, the arguments have no more bytes than the text, spaces apart, and as
many just if the text is copied. -/
theorem formatLoop_size {c : Bytes} {s s' : Formatting}
    (h : formatLoop directive c 0 s = some s') (hreads : s'.reads = 0) :
    s'.size ≤ s.size + (c.filter (· ≠ 32)).length ∧
      (s'.size = s.size + (c.filter (· ≠ 32)).length → Literal directive c) := by
  induction hn : c.length using Nat.strong_induction_on generalizing c s with
  | _ n ih =>
    cases c with
    | nil =>
      cases h
      exact ⟨Nat.le_refl _, fun _ pre post heq => by simp at heq⟩
    | cons b c =>
      subst hn
      by_cases hb : b = 37
      · subst hb
        rcases formatLoop_percent hd h hreads with ⟨rfl, hcopied, hsize⟩ | ⟨c', s₁, rfl, h, hsize⟩
        · exact ⟨hsize.le, fun _ => literal_percent hcopied⟩
        · have hle := (ih c'.length (by simp) h rfl).1
          have hlen : ((37 :: 37 :: c').filter (· ≠ 32)).length =
              (c'.filter (· ≠ 32)).length + 2 := by
            simp
          rw [hlen]
          exact ⟨by omega, fun heq => by omega⟩
      rw [formatLoop, if_neg hb] at h
      by_cases hsp : b = 32
      · rw [if_pos hsp] at h
        obtain ⟨hle, hlit⟩ := ih c.length (by simp) h rfl
        rw [Formatting.endArg_size] at hle hlit
        have hlen : (b :: c).filter (· ≠ 32) = c.filter (· ≠ 32) := by simp [hsp]
        rw [hlen]
        exact ⟨hle, fun heq => (hlit heq).cons hb⟩
      · rw [if_neg hsp] at h
        obtain ⟨hle, hlit⟩ := ih c.length (by simp) h rfl
        rw [Formatting.put_size, List.length_singleton] at hle hlit
        have hlen : ((b :: c).filter (· ≠ 32)).length = (c.filter (· ≠ 32)).length + 1 := by
          simp [hsp]
        rw [hlen]
        exact ⟨by omega, fun heq => (hlit (by omega)).cons hb⟩

/-! ## Commands -/

omit hd in
/-- A text with a NUL has more bytes than its C string, spaces apart. -/
theorem length_filter_cstr (s : Bytes) :
    ((cstr s).filter (· ≠ 32)).length ≤ (s.filter (· ≠ 32)).length ∧
      (((cstr s).filter (· ≠ 32)).length = (s.filter (· ≠ 32)).length → 0 ∉ s) := by
  induction s with
  | nil => exact ⟨Nat.le_refl _, fun _ => List.not_mem_nil⟩
  | cons b s ih =>
    obtain ⟨hle, hno⟩ := ih
    by_cases hb : b = 0
    · have hlen : ((b :: s).filter (· ≠ 32)).length = (s.filter (· ≠ 32)).length + 1 := by
        simp [hb]
      have hcstr : cstr (b :: s) = [] := by simp [cstr, hb]
      rw [hlen, hcstr]
      exact ⟨Nat.zero_le _, fun heq => absurd heq (Nat.succ_ne_zero _).symm⟩
    · have hcstr : cstr (b :: s) = b :: cstr s := by simp [cstr, hb]
      have hmem : 0 ∉ b :: s ↔ 0 ∉ s := by simp [Ne.symm hb]
      rw [hcstr, hmem]
      by_cases hsp : b = 32
      · rw [List.filter_cons_of_neg (by simp [hsp]), List.filter_cons_of_neg (by simp [hsp])]
        exact ⟨hle, hno⟩
      · rw [List.filter_cons_of_pos (by simp [hsp]), List.filter_cons_of_pos (by simp [hsp]),
          List.length_cons, List.length_cons]
        exact ⟨Nat.succ_le_succ hle, fun heq => hno (Nat.succ.inj heq)⟩

/-- A format comes to the words of a text, without an argument read, exactly if the text has no NUL
and every `%` in it is copied. -/
theorem redisvFormatCommand_words_iff (s : Bytes) :
    redisvFormatCommand directive s = some (words 32 s, 0) ↔ 0 ∉ s ∧ Literal directive s := by
  unfold redisvFormatCommand
  constructor
  · intro h
    obtain ⟨s', hloop, hsent⟩ := Option.map_eq_some_iff.mp h
    obtain ⟨hargv, hreads⟩ := Prod.mk.inj hsent
    obtain ⟨hle, hlit⟩ := formatLoop_size hd hloop hreads
    obtain ⟨hcstr, hnul⟩ := length_filter_cstr s
    have hsize : (s.filter (· ≠ 32)).length ≤ s'.size := by
      rw [← flatten_words, ← hargv, ← Formatting.endArg_size]
      exact Nat.le_add_right _ _
    have hzero : (⟨[], [], false, 0⟩ : Formatting).size = 0 := rfl
    rw [hzero] at hle hlit
    have hno := hnul (by omega)
    rw [cstr_eq_self hno] at hlit hle
    exact ⟨hno, hlit (by omega)⟩
  · rintro ⟨hno, hlit⟩
    obtain ⟨s', hloop, hreads, hargv⟩ :=
      formatLoop_literal hd hlit (s := ⟨[], [], false, 0⟩) (by simp [Formatting.Wf])
    rw [cstr_eq_self hno, hloop, Option.map_some, hargv, hreads, wordsFrom_nil_left]
    rfl

/-- For any command that `redisAsyncCommand` accepts: it is sent as it was written, and no argument
that was not passed is read, exactly if it has no NUL, and no `%` but for a last byte that hiredis
copies. -/
theorem sentAsWritten_iff {self : RedisAsync} {asyFd : Int32} {cb : Bool} {outSecond : Int32}
    {priv : UInt64} {key cmdStr : Bytes} {q : QueuedCmd}
    (hq : self.redisAsyncCommand asyFd cb outSecond priv key cmdStr = .ok q) :
    SentAsWritten directive q cmdStr ↔ 0 ∉ cmdStr ∧
      ∀ pre post, cmdStr = pre ++ 37 :: post → post = [] ∧ directive [] ≠ none := by
  rw [SentAsWritten, CmdOrder.requestCmd, (redisAsyncCommand_ok hq).1]
  exact redisvFormatCommand_words_iff hd cmdStr

omit hd

/-- The directives without a length or a width: `%s` with the string `arg`, `%d` with a 7, a `%` at
the end. Other formats are refused. -/
def plainDirective (arg : Bytes) : Bytes → Option Directive
  | [] => some ⟨0, [37], 0⟩
  | b :: _ =>
    if b = 37 then some ⟨1, [37], 0⟩
    else if b = 115 then some ⟨1, arg, 1⟩
    else if b = 100 then some ⟨1, [55], 1⟩
    else none

theorem plainDirective_printfLike (arg : Bytes) : PrintfLike (plainDirective arg) where
  percent rest := rfl
  argument b rest d hb h := by
    simp only [plainDirective, if_neg hb] at h
    split at h
    · cases h
      exact Nat.one_ne_zero
    · split at h
      · cases h
        exact Nat.one_ne_zero
      · cases h
  last d h := by
    cases h
    rfl

/-- A server that runs, with its client connected. -/
def runningAsync : RedisAsync :=
  ⟨[some ⟨⟨0, 0, some ⟨0, ⟨[97], 1⟩, 0, .conn⟩, none⟩, .single, .runing, [], none⟩], 0⟩

theorem runningAsync_accepts (cmdStr : Bytes) (h : cmdStr ≠ []) :
    ∃ q, runningAsync.redisAsyncCommand 0 true 5 0 [107] cmdStr = .ok q := by
  refine ⟨runningAsync.queuedCmd ⟨0, ⟨[97], 1⟩, 0, .conn⟩ true 5 0 cmdStr, ?_⟩
  rw [redisAsyncCommand_eq (by decide) (by decide) h (by decide) rfl]
  simp [RedisAsyn.redisAsyncCommand, h, RedisMgr.cmdClient, Except.map]

/-- `SET  k 5%` is sent as `SET`, `k` and `5%`. -/
theorem sentAsWritten_iff_lastPercent :
    ∃ q, runningAsync.redisAsyncCommand 0 true 5 0 [107] [83, 69, 84, 32, 32, 107, 32, 53, 37] =
        .ok q ∧
      SentAsWritten (plainDirective []) q [83, 69, 84, 32, 32, 107, 32, 53, 37] := by
  obtain ⟨q, hq⟩ := runningAsync_accepts [83, 69, 84, 32, 32, 107, 32, 53, 37] (by simp)
  refine ⟨q, hq, (sentAsWritten_iff (plainDirective_printfLike []) hq).mpr ⟨by decide, ?_⟩⟩
  have hlast : Literal (plainDirective []) [37] := literal_percent (Option.some_ne_none _)
  exact hlast.append (l := [83, 69, 84, 32, 32, 107, 32, 53]) (by decide)

/-- `GET %s` reads an argument that was not passed. -/
theorem percent_reads_argument :
    ¬ ∀ (directive : Bytes → Option Directive), PrintfLike directive →
      ∀ (self : RedisAsync) (cmdStr : Bytes) (q : QueuedCmd),
        self.redisAsyncCommand 0 true 5 0 [107] cmdStr = .ok q →
        SentAsWritten directive q cmdStr := by
  intro h
  obtain ⟨q, hq⟩ := runningAsync_accepts [71, 69, 84, 32, 37, 115] (by simp)
  have hsent := h (plainDirective []) (plainDirective_printfLike []) runningAsync _ q hq
  rw [SentAsWritten, CmdOrder.requestCmd, (redisAsyncCommand_ok hq).1] at hsent
  exact absurd hsent (by decide)

end RedisAsyn
end CmakeFrame
