import Mathlib.Data.List.Basic
import Mathlib.Data.List.Infix
import Mathlib.Tactic.Common

/-!
# Codecs that work on streams

A codec turns a content into a member, a text that is recognised to be complete where it ends. An
encoder and a decoder keep a state; each call takes a beginning of the input that it is offered and
gives as much as there is room for.

* `Format`: the complete members; no member goes on as another one.
* `Call`, `Encoder`, `Decoder`: what a call does, and what is relied on. An encoder gives a beginning
  of the member of whatever it will have taken; a decoder gives a beginning of the content of whatever
  member it reads. A call that could do something does something.
* `Encoder.Feeds`: the calls of an encoder that is not told to finish.
* `Format.unique`, `Encoder.running_short`, `Decoder.not_corrupt`: members of one text, output that is
  no member, input that is a beginning of one.
* `Machine`: what reads a text byte by byte; `Machine.format`, `Machine.decoder`, `Encoder.ofMember`:
  the codec that it makes with a function for the members.
-/

namespace CmakeFrame
namespace Lib

/-- The complete members, with their contents. -/
structure Format where
  content : List UInt8 → Option (List UInt8)
  content_nil : content [] = none
  prefix_free : ∀ {z e d d' : List UInt8}, content z = some d → content (z ++ e) = some d' → e = []

/-- What a call returns. -/
inductive ZCode
  | Z_OK
  | Z_STREAM_END
  | Z_BUF_ERROR
  | Z_DATA_ERROR
deriving DecidableEq

/-- What a call comes to: how much of the input it has taken, and what it gives. -/
structure Call (σ : Type) where
  state : σ
  taken : Nat
  given : List UInt8
  code : ZCode

/-- An encoder. `call s i r finish` is a call with the input `i` and room for `r` bytes; `fed` and
`out` are all that was taken and given up to a state. -/
structure Encoder (F : Format) where
  σ : Type
  start : σ
  call : σ → List UInt8 → Nat → Bool → Call σ
  fed : σ → List UInt8
  out : σ → List UInt8
  member : List UInt8 → List UInt8
  content_member : ∀ d, F.content (member d) = some d
  fed_start : fed start = []
  out_start : out start = []
  taken_le : ∀ s i r f, (call s i r f).taken ≤ i.length
  given_le : ∀ s i r f, (call s i r f).given.length ≤ r
  fed_call : ∀ s i r f, fed (call s i r f).state = fed s ++ i.take (call s i r f).taken
  out_call : ∀ s i r f, out (call s i r f).state = out s ++ (call s i r f).given
  /-- Before it is told to finish, all that it gives is a beginning of any member to come. -/
  runs : ∀ s i r, (∀ e, out s <+: member (fed s ++ e)) →
    ∀ e, out (call s i r false).state <+: member (fed (call s i r false).state ++ e)
  finishes : ∀ s i r, out s <+: member (fed s ++ i) →
    out (call s i r true).state <+: member (fed s ++ i)
  end_iff : ∀ s i r f, (call s i r f).code = .Z_STREAM_END ↔
    f = true ∧ (call s i r f).taken = i.length ∧ out (call s i r f).state = member (fed s ++ i)
  progress : ∀ s i r f, (call s i r f).code = .Z_OK →
    0 < (call s i r f).taken ∨ (call s i r f).given ≠ []
  blocked : ∀ s i r f, (call s i r f).code = .Z_BUF_ERROR → r = 0 ∨ f = false ∧ i = []
  no_data_error : ∀ s i r f, (call s i r f).code ≠ .Z_DATA_ERROR

/-- A decoder. `corrupt` says of what input an error is reported. -/
structure Decoder (F : Format) where
  σ : Type
  start : σ
  call : σ → List UInt8 → Nat → Call σ
  fed : σ → List UInt8
  out : σ → List UInt8
  corrupt : List UInt8 → Prop
  fed_start : fed start = []
  out_start : out start = []
  taken_le : ∀ s i r, (call s i r).taken ≤ i.length
  given_le : ∀ s i r, (call s i r).given.length ≤ r
  fed_call : ∀ s i r, fed (call s i r).state = fed s ++ i.take (call s i r).taken
  out_call : ∀ s i r, out (call s i r).state = out s ++ (call s i r).given
  out_prefix : ∀ s e d, F.content (fed s ++ e) = some d → out s <+: d
  corrupt_append : ∀ c e, corrupt c → corrupt (c ++ e)
  corrupt_content : ∀ c, corrupt c → F.content c = none
  /-- The end is reported where the member is complete, and all its content has been given by then. -/
  end_iff : ∀ s i r, (call s i r).code = .Z_STREAM_END ↔
    ∃ d, F.content (fed (call s i r).state) = some d
  end_out : ∀ s i r d, F.content (fed (call s i r).state) = some d → out (call s i r).state = d
  corrupt_iff : ∀ s i r, (call s i r).code = .Z_DATA_ERROR ↔ corrupt (fed (call s i r).state)
  progress : ∀ s i r, (call s i r).code = .Z_OK → 0 < (call s i r).taken ∨ (call s i r).given ≠ []
  blocked : ∀ s i r, (call s i r).code = .Z_BUF_ERROR → r = 0 ∨ i = []

namespace Format

variable {F : Format}

/-- A text begins with at most one member. -/
theorem unique {l z z' d d' : List UInt8} (hz : z <+: l) (hz' : z' <+: l)
    (h : F.content z = some d) (h' : F.content z' = some d') : z = z' := by
  rcases List.prefix_or_prefix_of_prefix hz hz' with ⟨e, rfl⟩ | ⟨e, rfl⟩
  · rw [F.prefix_free h h', List.append_nil]
  · rw [F.prefix_free h' h, List.append_nil]

/-- A proper beginning of a member is none. -/
theorem content_short {z m d : List UInt8} (hz : z <+: m) (hm : F.content m = some d)
    (hlt : z.length < m.length) : F.content z = none := by
  rw [← Option.not_isSome_iff_eq_none]
  intro hsome
  obtain ⟨d', hd'⟩ := Option.isSome_iff_exists.mp hsome
  rw [unique hz List.prefix_rfl hd' hm] at hlt
  exact Nat.lt_irrefl _ hlt

end Format

namespace Encoder

variable {F : Format} (E : Encoder F)

/-- From `s`, with the input `i` and room for `r` bytes, the encoder comes by calls that are not told
to finish to `s'`, with the input `i'` and room for `r'` bytes left. -/
inductive Feeds : E.σ → List UInt8 → Nat → E.σ → List UInt8 → Nat → Prop
  | refl (s : E.σ) (i : List UInt8) (r : Nat) : Feeds s i r s i r
  | step {s s' : E.σ} {i i' : List UInt8} {r r' : Nat}
      (hok : (E.call s i r false).code = .Z_OK)
      (h : Feeds (E.call s i r false).state (i.drop (E.call s i r false).taken)
        (r - (E.call s i r false).given.length) s' i' r') : Feeds s i r s' i' r'

/-- With room for `r` bytes the encoder has none left while there is input. -/
def Overruns (d : List UInt8) (r : Nat) : Prop :=
  ∃ s i, i ≠ [] ∧ E.Feeds E.start d r s i 0

variable {E} {s s' : E.σ} {i i' : List UInt8} {r r' : Nat}

/-- Input that is left was there before. -/
theorem Feeds.ne_nil (h : E.Feeds s i r s' i' r') (hi : i' ≠ []) : i ≠ [] := by
  induction h with
  | refl => exact hi
  | step _ _ ih =>
    intro hnil
    exact ih hi (by rw [hnil, List.drop_nil])

/-- The output of an encoder that has not been told to finish is no member. -/
theorem running_short {c o : List UInt8} (h : ∀ e, o <+: E.member (c ++ e)) :
    F.content o = none := by
  rw [← Option.not_isSome_iff_eq_none]
  intro hsome
  obtain ⟨d, hd⟩ := Option.isSome_iff_exists.mp hsome
  -- with a byte more to come it would be another member's text
  have hlast : ∀ e, d = c ++ e := by
    intro e
    have hmember := E.content_member (c ++ e)
    rw [← F.unique (h e) List.prefix_rfl hd hmember, hd] at hmember
    exact Option.some.inj hmember
  have hlen := congrArg List.length ((hlast []).symm.trans (hlast [0]))
  simp at hlen

end Encoder

namespace Decoder

variable {F : Format} {D : Decoder F}

/-- A beginning of a member is not corrupt. -/
theorem not_corrupt {c z d : List UInt8} (hc : c <+: z) (hz : F.content z = some d) :
    ¬ D.corrupt c := by
  intro h
  obtain ⟨e, rfl⟩ := hc
  rw [D.corrupt_content _ (D.corrupt_append c e h)] at hz
  cases hz

end Decoder

/-! ## Codecs of machines -/

/-- What a machine makes of the text that it has read. -/
inductive Mark
  | going
  | complete
  | broken
deriving DecidableEq

/-- The code for a text by its mark. -/
def Mark.code : Mark → ZCode
  | .going => .Z_OK
  | .complete => .Z_STREAM_END
  | .broken => .Z_DATA_ERROR

theorem Mark.code_injective : Function.Injective Mark.code := by
  intro m m' h
  cases m <;> cases m' <;> first | rfl | cases h

/-- What reads a text byte by byte and gives at most one byte for each. Behind a complete text there
is nothing more that is right. -/
structure Machine (π : Type) where
  start : π
  step : π → UInt8 → π
  out : π → List UInt8
  mark : π → Mark
  out_start : out start = []
  mark_start : mark start = .going
  out_step : ∀ p b, ∃ g, out (step p b) = out p ++ g ∧ g.length ≤ 1
  stops : ∀ p b, mark p ≠ .going → mark (step p b) = .broken

namespace Machine

variable {π : Type} (M : Machine π)

/-- The state behind a text. -/
def run (z : List UInt8) : π := z.foldl M.step M.start

theorem run_append (z e : List UInt8) : M.run (z ++ e) = e.foldl M.step (M.run z) :=
  List.foldl_append

theorem out_prefix (p : π) (e : List UInt8) : M.out p <+: M.out (e.foldl M.step p) := by
  induction e generalizing p with
  | nil => exact List.prefix_rfl
  | cons b e ih =>
    obtain ⟨g, hg, -⟩ := M.out_step p b
    have hstep : M.out p <+: M.out (M.step p b) := ⟨g, hg.symm⟩
    exact hstep.trans (ih (M.step p b))

theorem mark_broken {p : π} (h : M.mark p = .broken) (e : List UInt8) :
    M.mark (e.foldl M.step p) = .broken := by
  induction e generalizing p with
  | nil => exact h
  | cons b e ih => exact ih (M.stops p b (by rw [h]; decide))

/-- The texts that the machine finds complete. -/
def format : Format where
  content z := if M.mark (M.run z) = .complete then some (M.out (M.run z)) else none
  content_nil := if_neg (by rw [show M.run [] = M.start from rfl, M.mark_start]; decide)
  prefix_free := by
    intro z e d d' h h'
    split at h
    · next hz =>
      split at h'
      · next he =>
        cases e with
        | nil => rfl
        | cons b e =>
          rw [M.run_append, List.foldl_cons,
            M.mark_broken (M.stops _ b (by rw [hz]; decide)) e] at he
          cases he
      · cases h'
    · cases h

theorem content_eq_some {z d : List UInt8} :
    M.format.content z = some d ↔ M.mark (M.run z) = .complete ∧ M.out (M.run z) = d := by
  show (if _ then _ else none) = some d ↔ _
  split
  · next h => rw [Option.some.injEq, and_iff_right h]
  · next h => exact ⟨nofun, fun h' => absurd h'.1 h⟩

/-- The code for a text as the machine finds it. -/
def code (z : List UInt8) : ZCode := (M.mark (M.run z)).code

theorem code_eq_iff {z : List UInt8} (m : Mark) : M.code z = m.code ↔ M.mark (M.run z) = m :=
  Mark.code_injective.eq_iff

theorem code_ne_buf (z : List UInt8) : M.code z ≠ .Z_BUF_ERROR := by
  unfold code
  cases M.mark (M.run z) <;> nofun

/-- A call with the machine behind the text `z`: it reads one byte if there is room for what it
gives. -/
def call (z i : List UInt8) (r : Nat) : Call (List UInt8) :=
  if M.mark (M.run z) ≠ .going then ⟨z, 0, [], M.code z⟩
  else match i with
    | [] => ⟨z, 0, [], .Z_BUF_ERROR⟩
    | b :: _ =>
      let given := (M.out (M.run (z ++ [b]))).drop (M.out (M.run z)).length
      if given.length ≤ r then ⟨z ++ [b], 1, given, M.code (z ++ [b])⟩
      else ⟨z, 0, [], .Z_BUF_ERROR⟩

/-- A call reads nothing and tells the state, or reads nothing for want of input or of room, or reads
one byte. -/
theorem call_cases (z i : List UInt8) (r : Nat) :
    (M.mark (M.run z) ≠ .going ∧ M.call z i r = ⟨z, 0, [], M.code z⟩) ∨
    (M.mark (M.run z) = .going ∧ (r = 0 ∨ i = []) ∧ M.call z i r = ⟨z, 0, [], .Z_BUF_ERROR⟩) ∨
    (∃ b i' g, i = b :: i' ∧ g.length ≤ r ∧ M.out (M.run (z ++ [b])) = M.out (M.run z) ++ g ∧
      M.call z i r = ⟨z ++ [b], 1, g, M.code (z ++ [b])⟩) := by
  unfold call
  split
  · next h => exact .inl ⟨h, rfl⟩
  · next h =>
    have hgoing : M.mark (M.run z) = .going := not_not.mp h
    cases i with
    | nil => exact .inr (.inl ⟨hgoing, .inr rfl, rfl⟩)
    | cons b i =>
      obtain ⟨g, hg, hlen⟩ := M.out_step (M.run z) b
      have hout : M.out (M.run (z ++ [b])) = M.out (M.run z) ++ g := by
        rw [M.run_append]
        exact hg
      have hdrop : (M.out (M.run (z ++ [b]))).drop (M.out (M.run z)).length = g := by
        rw [hout, List.drop_left]
      dsimp only
      rw [hdrop]
      split
      · next hr => exact .inr (.inr ⟨b, i, g, rfl, hr, hout, rfl⟩)
      · next hr => exact .inr (.inl ⟨hgoing, .inl (by omega), rfl⟩)

/-- What a call tells of what has been read by then. -/
theorem call_code (z i : List UInt8) (r : Nat) :
    ((M.call z i r).code = .Z_STREAM_END ↔ M.mark (M.run (M.call z i r).state) = .complete) ∧
    ((M.call z i r).code = .Z_DATA_ERROR ↔ M.mark (M.run (M.call z i r).state) = .broken) := by
  obtain ⟨-, hcall⟩ | ⟨hgoing, -, hcall⟩ | ⟨b, i', g, -, -, -, hcall⟩ := M.call_cases z i r
  · rw [hcall]
    exact ⟨M.code_eq_iff .complete, M.code_eq_iff .broken⟩
  · rw [hcall, hgoing]
    exact ⟨⟨nofun, nofun⟩, ⟨nofun, nofun⟩⟩
  · rw [hcall]
    exact ⟨M.code_eq_iff .complete, M.code_eq_iff .broken⟩

/-- The machine as a decoder. -/
def decoder : Decoder M.format where
  σ := List UInt8
  start := []
  call := M.call
  fed z := z
  out z := M.out (M.run z)
  corrupt z := M.mark (M.run z) = .broken
  fed_start := rfl
  out_start := M.out_start
  taken_le z i r := by
    obtain ⟨-, hcall⟩ | ⟨-, -, hcall⟩ | ⟨b, i', g, rfl, -, -, hcall⟩ := M.call_cases z i r
    · exact hcall ▸ Nat.zero_le _
    · exact hcall ▸ Nat.zero_le _
    · rw [hcall]
      exact Nat.succ_le_succ (Nat.zero_le _)
  given_le z i r := by
    obtain ⟨-, hcall⟩ | ⟨-, -, hcall⟩ | ⟨b, i', g, -, hr, -, hcall⟩ := M.call_cases z i r
    · exact hcall ▸ Nat.zero_le _
    · exact hcall ▸ Nat.zero_le _
    · rw [hcall]
      exact hr
  fed_call z i r := by
    obtain ⟨-, hcall⟩ | ⟨-, -, hcall⟩ | ⟨b, i', g, rfl, -, -, hcall⟩ := M.call_cases z i r <;>
      simp [hcall]
  out_call z i r := by
    obtain ⟨-, hcall⟩ | ⟨-, -, hcall⟩ | ⟨b, i', g, rfl, -, hout, hcall⟩ := M.call_cases z i r
    · simp [hcall]
    · simp [hcall]
    · rw [hcall]
      exact hout
  out_prefix z e d h := by
    rw [← (M.content_eq_some.mp h).2, M.run_append]
    exact M.out_prefix _ e
  corrupt_append c e h := by
    rw [M.run_append]
    exact M.mark_broken h e
  corrupt_content c h := if_neg (by rw [h]; decide)
  end_iff z i r := by
    rw [(M.call_code z i r).1]
    exact ⟨fun h => ⟨_, M.content_eq_some.mpr ⟨h, rfl⟩⟩, fun ⟨_, h⟩ => (M.content_eq_some.mp h).1⟩
  end_out z i r d h := (M.content_eq_some.mp h).2
  corrupt_iff z i r := (M.call_code z i r).2
  progress z i r h := by
    obtain ⟨hmark, hcall⟩ | ⟨-, -, hcall⟩ | ⟨b, i', g, -, -, -, hcall⟩ := M.call_cases z i r
    · rw [hcall] at h
      exact absurd ((M.code_eq_iff .going).mp h) hmark
    · rw [hcall] at h
      cases h
    · exact .inl (by rw [hcall]; exact Nat.one_pos)
  blocked z i r h := by
    obtain ⟨-, hcall⟩ | ⟨-, hblocked, -⟩ | ⟨b, i', g, -, -, -, hcall⟩ := M.call_cases z i r
    · rw [hcall] at h
      exact absurd h (M.code_ne_buf z)
    · exact hblocked
    · rw [hcall] at h
      exact absurd h (M.code_ne_buf _)

end Machine

namespace Encoder

variable {F : Format}

/-- What an encoder takes that writes `head` first: nothing until the head is out. -/
def takenOf (head o i : List UInt8) (r : Nat) (f : Bool) : List UInt8 :=
  if f ∨ (head.drop o.length).length < r then i else []

/-- It keeps what is behind the head back until it is told to finish the member `m`. -/
def givenOf (head m o : List UInt8) (r : Nat) : Bool → List UInt8
  | false => (head.drop o.length).take r
  -- a state that no run comes to still makes progress
  | true => (if o <+: m then m.drop o.length else [0]).take r

/-- The code of a call, by whether the member is complete. -/
def codeOf (taken given : List UInt8) (complete : Bool) : ZCode :=
  if complete then .Z_STREAM_END
  else if taken = [] ∧ given = [] then .Z_BUF_ERROR else .Z_OK

/-- A call behind the input `s.1` and the output `s.2`. -/
def callOf (head : List UInt8) (member : List UInt8 → List UInt8) (s : List UInt8 × List UInt8)
    (i : List UInt8) (r : Nat) (f : Bool) : Call (List UInt8 × List UInt8) :=
  let taken := takenOf head s.2 i r f
  let given := givenOf head (member (s.1 ++ i)) s.2 r f
  ⟨(s.1 ++ taken, s.2 ++ given), taken.length, given,
    codeOf taken given (f && s.2 ++ given = member (s.1 ++ i))⟩

section

variable {head m o i taken given : List UInt8} {r : Nat} {f complete : Bool}

theorem takenOf_prefix : takenOf head o i r f <+: i := by
  unfold takenOf
  split
  · exact List.prefix_rfl
  · exact List.nil_prefix

theorem givenOf_length : (givenOf head m o r f).length ≤ r := by
  cases f with
  | false => exact List.length_take_le r _
  | true => exact List.length_take_le r _

theorem codeOf_eq_end : codeOf taken given complete = .Z_STREAM_END ↔ complete = true := by
  unfold codeOf
  split
  · next h => exact ⟨fun _ => h, fun _ => rfl⟩
  · next h => split <;> simp [h]

theorem codeOf_eq_ok (h : codeOf taken given complete = .Z_OK) : taken ≠ [] ∨ given ≠ [] := by
  unfold codeOf at h
  split at h
  · cases h
  · split at h
    · cases h
    · next hne => exact not_and_or.mp hne

theorem codeOf_eq_buf (h : codeOf taken given complete = .Z_BUF_ERROR) :
    complete = false ∧ taken = [] ∧ given = [] := by
  unfold codeOf at h
  split at h
  · cases h
  · next hc =>
    split at h
    · next hnil => exact ⟨eq_false_of_ne_true hc, hnil⟩
    · cases h

theorem codeOf_ne_error : codeOf taken given complete ≠ .Z_DATA_ERROR := by
  unfold codeOf
  split
  · nofun
  · split <;> nofun

/-- Before it is told to finish, nothing moves without room or without input. -/
theorem blocked_feeding (ht : takenOf head o i r false = []) (hg : givenOf head m o r false = []) :
    r = 0 ∨ i = [] := by
  unfold takenOf at ht
  split at ht
  · exact .inr ht
  · next hr =>
    rw [Bool.false_eq_true, false_or] at hr
    rcases List.take_eq_nil_iff.mp hg with hzero | hdrop
    · exact .inl hzero
    · rw [hdrop] at hr
      exact .inl (Nat.eq_zero_of_not_pos hr)

/-- Told to finish, it gives something as long as there is room and the member is not complete. -/
theorem blocked_finishing (hne : o ≠ m) (hg : givenOf head m o r true = []) : r = 0 := by
  refine (List.take_eq_nil_iff.mp hg).resolve_right fun hdrop => ?_
  split at hdrop
  · next hpre =>
    obtain ⟨t, rfl⟩ := hpre
    rw [List.drop_left] at hdrop
    rw [hdrop, List.append_nil] at hne
    exact hne rfl
  · cases hdrop

theorem prefix_feeding (m' : List UInt8) (hhead : head <+: m) (ho : o <+: m) :
    o ++ givenOf head m' o r false <+: m ∨ givenOf head m' o r false = [] := by
  rcases Nat.le_total o.length head.length with hle | hle
  · -- the head is not out yet
    have hs : o = head.take o.length :=
      List.prefix_iff_eq_take.mp (List.prefix_of_prefix_length_le ho hhead hle)
    have hout : o ++ givenOf head m' o r false = head.take (o.length + r) := by
      rw [List.take_add, ← hs]
      rfl
    rw [hout]
    exact .inl ((List.take_prefix _ _).trans hhead)
  · right
    rw [givenOf, List.drop_eq_nil_of_le hle, List.take_nil]

theorem prefix_finishing (ho : o <+: m) : o ++ givenOf head m o r true <+: m := by
  rw [givenOf, if_pos ho]
  obtain ⟨t, rfl⟩ := ho
  rw [List.drop_left, List.prefix_append_right_inj]
  exact List.take_prefix r t

end

/-- The encoder for members that all begin with `head`. -/
def ofMember (F : Format) (head : List UInt8) (member : List UInt8 → List UInt8)
    (hmember : ∀ d, F.content (member d) = some d) (hhead : ∀ d, head <+: member d) :
    Encoder F where
  σ := List UInt8 × List UInt8
  start := ([], [])
  call := callOf head member
  fed s := s.1
  out s := s.2
  member := member
  content_member := hmember
  fed_start := rfl
  out_start := rfl
  taken_le s i r f := takenOf_prefix.length_le
  given_le s i r f := givenOf_length
  fed_call s i r f := by
    show s.1 ++ takenOf head s.2 i r f = s.1 ++ i.take (takenOf head s.2 i r f).length
    rw [← List.prefix_iff_eq_take.mp takenOf_prefix]
  out_call s i r f := rfl
  runs s i r h e := by
    show s.2 ++ givenOf head (member (s.1 ++ i)) s.2 r false <+:
      member (s.1 ++ takenOf head s.2 i r false ++ e)
    rw [List.append_assoc]
    rcases prefix_feeding (member (s.1 ++ i)) (hhead _) (h _) with hpre | hnil
    · exact hpre
    · rw [hnil, List.append_nil]
      exact h _
  finishes s i r h := prefix_finishing h
  end_iff s i r f := by
    refine codeOf_eq_end.trans ?_
    rw [Bool.and_eq_true, decide_eq_true_iff]
    refine and_congr_right fun hf => ?_
    subst hf
    exact (and_iff_right rfl).symm
  progress s i r f h := (codeOf_eq_ok h).imp_left List.length_pos_iff.mpr
  blocked s i r f h := by
    obtain ⟨hcomplete, htaken, hgiven⟩ := codeOf_eq_buf h
    cases f with
    | false => exact (blocked_feeding htaken hgiven).imp_right fun hi => ⟨rfl, hi⟩
    | true =>
      rw [Bool.true_and, decide_eq_false_iff_not, hgiven, List.append_nil] at hcomplete
      exact .inl (blocked_finishing hcomplete hgiven)
  no_data_error s i r f := codeOf_ne_error

end Encoder

end Lib
end CmakeFrame
