import CmakeFrame.Lib.Decimal
import CmakeFrame.Lib.StreamCodec

/-!
# `gzcompress` and `gzdecompress`

The wrappers of zlib in `common/gzip.cpp`. zlib is an encoder and a decoder with the laws of
`Lib.StreamCodec`; whether its init and its end functions succeed is an input of a call.

* `ZStream`: the `z_stream` of a call; `ZStream.deflate`, `ZStream.inflate`: one call of zlib.
* `deflateInput`, `deflateFinish`, `gzcompress`; `inflateLoop`, `gzdecompress`: the functions.
* `Result.Compressed`, `Result.Decompressed`: what they promise.
* `CompressFits`, `DecompressFits`: when the promises are kept.
* `Feeding`, `Finishing`: the invariants of the two loops of `gzcompress`; `Ending`: the ways it ends;
  `gzcompress_spec`.
-/

namespace CmakeFrame
namespace Gzip

open Lib

/-! ## The functions -/

/-- A `z_stream`. `next_in` is what is left of the memory that the pointer points into, `out` what
has been written, so that `total_out` is its length. `inside` says that no call was offered bytes
behind that memory. -/
structure ZStream (σ : Type) where
  state : σ
  next_in : Bytes
  avail_in : Nat
  total_in : Nat
  avail_out : Nat
  out : Bytes
  inside : Bool

namespace ZStream

variable {σ : Type}

def total_out (st : ZStream σ) : Nat := st.out.length

/-- What a call is offered. -/
def input (st : ZStream σ) : Bytes := st.next_in.take st.avail_in

/-- The stream after a call. -/
def after (st : ZStream σ) (c : Call σ) : ZStream σ where
  state := c.state
  next_in := st.next_in.drop c.taken
  avail_in := st.avail_in - c.taken
  total_in := st.total_in + c.taken
  avail_out := st.avail_out - c.given.length
  out := st.out ++ c.given
  inside := st.inside && st.avail_in ≤ st.next_in.length

end ZStream

variable {F : Format}

/-- `deflate(&c_stream, Z_FINISH)`, or with `Z_NO_FLUSH`. -/
def deflate (E : Encoder F) (st : ZStream E.σ) (finish : Bool) : ZStream E.σ × ZCode :=
  let c := E.call st.state st.input st.avail_out finish
  (st.after c, c.code)

/-- `inflate(&d_stream, Z_NO_FLUSH)`. -/
def inflate (D : Decoder F) (st : ZStream D.σ) : ZStream D.σ × ZCode :=
  let c := D.call st.state st.input st.avail_out
  (st.after c, c.code)

/-- What the init function of zlib returns, and the end function: `deflateEnd` for a stream that is
not complete, `inflateEnd` for any. -/
structure Zlib where
  initOk : Bool
  endOk : Bool

/-- What a call comes to: what it returns, what it has written, `*nzdata` or `*ndata` behind it,
whether all reads were inside, and whether a stream that was opened has been ended. -/
structure Result where
  ret : Int
  written : Bytes
  size : Nat
  inside : Bool
  ended : Bool

/-- The output by the size that is told. -/
def Result.output (r : Result) : Bytes := r.written.take r.size

/-- An exit before a stream is open. -/
def notOpened (size : Nat) : Result := ⟨-1, [], size, true, true⟩

/-- From `end:` on. -/
def endStream {σ : Type} (endOk : Bool) (size : Nat) (st : ZStream σ) : Result :=
  if endOk then ⟨0, st.out, st.total_out, st.inside, true⟩
  else ⟨-1, st.out, size, st.inside, true⟩

/-- The first loop of `gzcompress`. -/
def deflateInput (E : Encoder F) (nzdata : Nat) : (fuel : Nat) → ZStream E.σ →
    Option (ZStream E.σ × ZCode)
  | 0, _ => none
  | fuel + 1, st =>
    if st.avail_in ≠ 0 ∧ st.total_out < nzdata then
      if (deflate E st false).2 = .Z_OK then deflateInput E nzdata fuel (deflate E st false).1
      else some (deflate E st false)
    else some (st, .Z_OK)

/-- The second loop. -/
def deflateFinish (E : Encoder F) : (fuel : Nat) → ZStream E.σ → Option (ZStream E.σ × ZCode)
  | 0, _ => none
  | fuel + 1, st =>
    if (deflate E st true).2 = .Z_OK then deflateFinish E fuel (deflate E st true).1
    else some (deflate E st true)

/-- The stream that `gzcompress` begins with. Its `avail_in` and `avail_out` have 32 bits. -/
def deflateStart (E : Encoder F) (bytes : Bytes) (nzdata : Nat) : ZStream E.σ :=
  ⟨E.start, bytes, bytes.length % 2 ^ 32, 0, nzdata % 2 ^ 32, [], true⟩

/-- `gzcompress` of the `ndata` bytes at `data`, null or not. A loop gets as many turns as there are
bytes that could be moved. -/
def gzcompress (E : Encoder F) (zlib : Zlib) (data : Option Bytes) (nzdata : Nat) : Option Result :=
  match data with
  | none => some (notOpened nzdata)
  | some bytes =>
    if bytes = [] ∨ zlib.initOk = false then some (notOpened nzdata)
    else do
      let turns := bytes.length % 2 ^ 32 + nzdata % 2 ^ 32 + 1
      let (st, code) ← deflateInput E nzdata turns (deflateStart E bytes nzdata)
      if code ≠ .Z_OK then some (endStream zlib.endOk nzdata st)
      else if st.avail_in ≠ 0 then
        some ⟨(st.avail_in : Int).bmod (2 ^ 32), st.out, nzdata, st.inside, false⟩
      else do
        let (st, code) ← deflateFinish E turns st
        some (endStream (code = .Z_STREAM_END || zlib.endOk) nzdata st)

/-- `inflate` with small buffers forced: one byte of input, and room for one. -/
def inflateByte (D : Decoder F) (st : ZStream D.σ) : ZStream D.σ × ZCode :=
  inflate D { st with avail_in := 1, avail_out := 1 }

/-- A zlib header, for the input behind an error. -/
def dummy_head : Bytes :=
  [0x8 + 0x7 * 0x10, UInt8.ofNat (((0x8 + 0x7 * 0x10) * 0x100 + 30) / 31 * 31 &&& 0xFF)]

/-- The second call after an error. -/
def inflateHead (D : Decoder F) (st : ZStream D.σ) : ZStream D.σ × ZCode :=
  inflate D { st with next_in := dummy_head, avail_in := 2 }

/-- The loop of `gzdecompress`. -/
def inflateLoop (D : Decoder F) (nzdata ndata : Nat) : (fuel : Nat) → ZStream D.σ →
    Option (ZStream D.σ)
  | 0, _ => none
  | fuel + 1, st =>
    if st.total_out < ndata ∧ st.total_in < nzdata then
      let call := inflateByte D st
      match call.2 with
      | .Z_OK => inflateLoop D nzdata ndata fuel call.1
      | .Z_STREAM_END => some call.1
      | .Z_DATA_ERROR =>
        let again := inflateHead D call.1
        if again.2 = .Z_OK then inflateLoop D nzdata ndata fuel again.1 else some again.1
      | .Z_BUF_ERROR => some call.1
    else some st

/-- The stream that `gzdecompress` begins with. -/
def inflateStart (D : Decoder F) (zdata : Bytes) : ZStream D.σ :=
  ⟨D.start, zdata, 0, 0, 0, [], true⟩

def gzdecompress (D : Decoder F) (zlib : Zlib) (zdata : Bytes) (ndata : Nat) : Option Result :=
  if zlib.initOk = false then some (notOpened ndata)
  else (inflateLoop D zdata.length ndata (zdata.length + ndata + 1) (inflateStart D zdata)).map
    (endStream zlib.endOk ndata)

/-! ## What is promised -/

/-- `gzcompress` returns 0 only with a complete member of all the input, and ends its stream. -/
structure Result.Compressed (F : Format) (data : Option Bytes) (r : Result) : Prop where
  content : r.ret = 0 → ∃ bytes, data = some bytes ∧ F.content r.output = some bytes
  ended : r.ended = true

/-- `gzdecompress` returns 0 only with all the content of a member that the input begins with, and
ends its stream. -/
structure Result.Decompressed (F : Format) (zdata : Bytes) (r : Result) : Prop where
  content : r.ret = 0 → ∃ z, z <+: zdata ∧ F.content z = some r.output
  ended : r.ended = true

/-- The input has a length of 32 bits and its member fits; or what is compressed does not fit, and
`deflateEnd` tells, which it is only asked if all the input has been taken or the capacity has more
than 32 bits. -/
def MemberFits (E : Encoder F) (zlib : Zlib) (bytes : Bytes) (nzdata : Nat) : Prop :=
  let d := bytes.take (bytes.length % 2 ^ 32)
  let room := nzdata % 2 ^ 32
  (bytes.length < 2 ^ 32 ∧ (E.member bytes).length ≤ room) ∨
  (room < (E.member d).length ∧ zlib.endOk = false ∧ (nzdata < 2 ^ 32 → ¬ E.Overruns d room))

/-- No stream is opened, or the member fits. -/
def CompressFits (E : Encoder F) (zlib : Zlib) (data : Option Bytes) (nzdata : Nat) : Prop :=
  data = none ∨ data = some [] ∨ zlib.initOk = false ∨
    ∃ bytes, data = some bytes ∧ MemberFits E zlib bytes nzdata

/-- The input begins with a member whose content fits, or zlib fails. -/
def DecompressFits (F : Format) (zlib : Zlib) (zdata : Bytes) (ndata : Nat) : Prop :=
  zlib.initOk = false ∨ zlib.endOk = false ∨
    ∃ z d, z <+: zdata ∧ F.content z = some d ∧ d.length ≤ ndata

/-! ## Compressing -/

section

variable {E : Encoder F} {st st' : ZStream E.σ} {d m : Bytes} {room nzdata fuel : Nat} {code : ZCode}

theorem ZStream.input_length {σ : Type} {st : ZStream σ} (h : st.avail_in ≤ st.next_in.length) :
    st.input.length = st.avail_in := by
  rw [ZStream.input, List.length_take, Nat.min_eq_left h]

theorem ZStream.input_after {σ : Type} (st : ZStream σ) (c : Call σ) :
    (st.after c).input = st.input.drop c.taken := List.drop_take.symm

theorem ZStream.inside_after {σ : Type} (st : ZStream σ) (h : st.inside = true)
    (havail : st.avail_in ≤ st.next_in.length) (c : Call σ) : (st.after c).inside = true := by
  show (st.inside && decide (st.avail_in ≤ st.next_in.length)) = true
  rw [h, decide_eq_true havail]
  rfl

theorem ZStream.room_after {σ : Type} (st : ZStream σ) {c : Call σ}
    (h : c.given.length ≤ st.avail_out) :
    (st.after c).out.length + (st.after c).avail_out = st.out.length + st.avail_out := by
  show (st.out ++ c.given).length + (st.avail_out - c.given.length) = _
  rw [List.length_append]
  omega

/-- What the first loop keeps of the input `d`, which goes into `room` bytes. -/
structure Feeding (E : Encoder F) (d : Bytes) (room : Nat) (st : ZStream E.σ) : Prop where
  input : E.fed st.state ++ st.input = d
  avail : st.avail_in ≤ st.next_in.length
  inside : st.inside = true
  out : E.out st.state = st.out
  room : st.out.length + st.avail_out = room
  runs : ∀ e, st.out <+: E.member (E.fed st.state ++ e)

theorem Feeding.start (E : Encoder F) (bytes : Bytes) (nzdata : Nat) :
    Feeding E (bytes.take (bytes.length % 2 ^ 32)) (nzdata % 2 ^ 32) (deflateStart E bytes nzdata) where
  input := by
    show E.fed E.start ++ _ = _
    rw [E.fed_start]
    rfl
  avail := Nat.mod_le _ _
  inside := rfl
  out := E.out_start
  room := Nat.zero_add _
  runs _ := List.nil_prefix

theorem Feeding.call (h : Feeding E d room st) : Feeding E d room (deflate E st false).1 where
  input := by
    show E.fed (E.call _ _ _ _).state ++ (st.after _).input = d
    rw [E.fed_call, ZStream.input_after, List.append_assoc, List.take_append_drop, h.input]
  avail := by
    show st.avail_in - _ ≤ (st.next_in.drop _).length
    rw [List.length_drop]
    exact Nat.sub_le_sub_right h.avail _
  inside := ZStream.inside_after st h.inside h.avail _
  out := by
    show E.out (E.call _ _ _ _).state = st.out ++ _
    rw [E.out_call, h.out]
  room := (ZStream.room_after st (E.given_le _ _ _ _)).trans h.room
  runs e := by
    have hruns := E.runs st.state st.input st.avail_out (by rw [h.out]; exact h.runs) e
    rw [E.out_call, h.out] at hruns
    exact hruns

/-- Before the encoder is told to finish there is more to come. -/
theorem Feeding.content (h : Feeding E d room st) : F.content st.out = none :=
  Encoder.running_short h.runs

theorem Feeding.length_lt (h : Feeding E d room st) : st.out.length < (E.member d).length := by
  have hpre : st.out <+: E.member d := by
    rw [← h.input]
    exact h.runs _
  refine lt_of_le_of_ne hpre.length_le fun heq => ?_
  have hcontent := h.content
  rw [hpre.eq_of_length heq, E.content_member] at hcontent
  cases hcontent

theorem Feeding.input_ne_nil (h : Feeding E d room st) (havail : st.avail_in ≠ 0) :
    st.input ≠ [] := by
  rw [← List.length_pos_iff, ZStream.input_length h.avail]
  exact Nat.pos_of_ne_zero havail

/-- A call with input only fails without room. -/
theorem Feeding.fails (h : Feeding E d room st) (havail : st.avail_in ≠ 0)
    (hcode : (deflate E st false).2 ≠ .Z_OK) :
    st.avail_out = 0 ∧ (deflate E st false).1.out = st.out := by
  have hzero : st.avail_out = 0 := by
    cases hc : (E.call st.state st.input st.avail_out false).code with
    | Z_OK => exact absurd hc hcode
    | Z_STREAM_END => exact absurd ((E.end_iff _ _ _ _).mp hc).1 (by decide)
    | Z_BUF_ERROR =>
      exact (E.blocked _ _ _ _ hc).resolve_right fun hnil => h.input_ne_nil havail hnil.2
    | Z_DATA_ERROR => exact absurd hc (E.no_data_error _ _ _ _)
  refine ⟨hzero, ?_⟩
  have hgiven := E.given_le st.state st.input st.avail_out false
  rw [hzero, Nat.le_zero, List.length_eq_zero_iff] at hgiven
  show st.out ++ (E.call st.state st.input st.avail_out false).given = st.out
  rw [hzero, hgiven, List.append_nil]

/-- A call that succeeds moves a byte. -/
theorem Feeding.moves (h : Feeding E d room st) (hcode : (deflate E st false).2 = .Z_OK) :
    (deflate E st false).1.avail_in + (deflate E st false).1.avail_out <
      st.avail_in + st.avail_out := by
  have htaken := E.taken_le st.state st.input st.avail_out false
  have hgiven := E.given_le st.state st.input st.avail_out false
  rw [ZStream.input_length h.avail] at htaken
  have hprogress := E.progress _ _ _ _ hcode
  rw [← List.length_pos_iff] at hprogress
  show st.avail_in - (E.call st.state st.input st.avail_out false).taken +
    (st.avail_out - (E.call st.state st.input st.avail_out false).given.length) < _
  omega

/-- The first loop ends: where its condition fails, after the calls that came to that, or without
room. -/
theorem deflateInput_spec (nzdata : Nat) (h : Feeding E d room st)
    (hfuel : st.avail_in + st.avail_out < fuel) :
    ∃ st' code, deflateInput E nzdata fuel st = some (st', code) ∧ Feeding E d room st' ∧
      ((code = .Z_OK ∧ ¬ (st'.avail_in ≠ 0 ∧ st'.total_out < nzdata) ∧
          E.Feeds st.state st.input st.avail_out st'.state st'.input st'.avail_out) ∨
        (code ≠ .Z_OK ∧ st'.total_out = room ∧ room < nzdata)) := by
  induction fuel generalizing st with
  | zero => exact absurd hfuel (Nat.not_lt_zero _)
  | succ fuel ih =>
    rw [deflateInput]
    split
    · next hcond =>
      split
      · next hcode =>
        have hmoves := h.moves hcode
        obtain ⟨st', code, hloop, hst, hend⟩ := ih h.call (by omega)
        refine ⟨st', code, hloop, hst, hend.imp_left fun ⟨hok, hexit, hfeeds⟩ => ?_⟩
        rw [show (deflate E st false).1.input = _ from ZStream.input_after _ _] at hfeeds
        exact ⟨hok, hexit, .step hcode hfeeds⟩
      · next hcode =>
        obtain ⟨hzero, hout⟩ := h.fails hcond.1 hcode
        have hroom := h.room
        rw [hzero, Nat.add_zero] at hroom
        refine ⟨_, _, rfl, h.call, .inr ⟨hcode, ?_, hroom ▸ hcond.2⟩⟩
        rw [ZStream.total_out]
        exact (congrArg List.length hout).trans hroom
    · next hcond => exact ⟨st, .Z_OK, rfl, h, .inl ⟨rfl, hcond, .refl _ _ _⟩⟩

theorem ZStream.avail_of_input {σ : Type} {st : ZStream σ} (h : st.input ≠ []) : st.avail_in ≠ 0 := by
  intro hzero
  exact h (by rw [ZStream.input, hzero, List.take_zero])

/-- Where the room is the capacity and the encoder runs out of it, the loop leaves input. -/
theorem deflateInput_left {s s' : E.σ} {i i' : Bytes} {r r' : Nat} (h : E.Feeds s i r s' i' r')
    (hi : i' ≠ []) (hr : r' = 0) (hs : st.state = s) (hin : st.input = i) (hout : st.avail_out = r)
    (hroom : st.out.length + st.avail_out = nzdata)
    (hloop : deflateInput E nzdata fuel st = some (st', code)) : st'.avail_in ≠ 0 := by
  induction h generalizing st fuel with
  | refl s i r =>
    cases fuel with
    | zero => cases hloop
    | succ fuel =>
      have hexit : ¬ (st.avail_in ≠ 0 ∧ st.total_out < nzdata) := by
        rintro ⟨-, hlt⟩
        rw [ZStream.total_out] at hlt
        omega
      rw [deflateInput, if_neg hexit] at hloop
      cases hloop
      exact ZStream.avail_of_input (hin ▸ hi)
  | @step s s' i i' r r' hok h ih =>
    have hne : st.avail_in ≠ 0 := by
      refine ZStream.avail_of_input ?_
      rw [hin]
      exact Encoder.Feeds.ne_nil (.step hok h) hi
    cases fuel with
    | zero => cases hloop
    | succ fuel =>
      subst hs hin hout
      rw [deflateInput] at hloop
      split at hloop
      · rw [if_pos (show (deflate E st false).2 = .Z_OK from hok)] at hloop
        refine ih hi hr rfl (ZStream.input_after _ _) rfl ?_ hloop
        exact (ZStream.room_after st (E.given_le _ _ _ _)).trans hroom
      · cases hloop
        exact hne

/-- What the second loop keeps, which writes the member `m`. -/
structure Finishing (E : Encoder F) (m : Bytes) (room : Nat) (st : ZStream E.σ) : Prop where
  avail : st.avail_in = 0
  member : E.member (E.fed st.state) = m
  inside : st.inside = true
  out : E.out st.state = st.out
  room : st.out.length + st.avail_out = room
  runs : st.out <+: m

theorem Finishing.start (h : Feeding E d room st) (havail : st.avail_in = 0) :
    Finishing E (E.member d) room st where
  avail := havail
  member := by
    rw [← h.input, ZStream.input, havail, List.take_zero, List.append_nil]
  inside := h.inside
  out := h.out
  room := h.room
  runs := by
    rw [← h.input]
    exact h.runs _

theorem Finishing.input_eq (h : Finishing E m room st) : st.input = [] := by
  rw [ZStream.input, h.avail, List.take_zero]

theorem Finishing.taken_eq (h : Finishing E m room st) :
    (E.call st.state st.input st.avail_out true).taken = 0 := by
  have htaken := E.taken_le st.state st.input st.avail_out true
  rw [h.input_eq] at htaken ⊢
  exact Nat.le_zero.mp htaken

theorem Finishing.call (h : Finishing E m room st) : Finishing E m room (deflate E st true).1 where
  avail := by
    show st.avail_in - _ = 0
    rw [h.avail, Nat.zero_sub]
  member := by
    show E.member (E.fed (E.call _ _ _ _).state) = m
    rw [E.fed_call, h.input_eq, List.take_nil, List.append_nil, h.member]
  inside := ZStream.inside_after st h.inside (h.avail ▸ Nat.zero_le _) _
  out := by
    show E.out (E.call _ _ _ _).state = st.out ++ _
    rw [E.out_call, h.out]
  room := (ZStream.room_after st (E.given_le _ _ _ _)).trans h.room
  runs := by
    have hmember : E.member (E.fed st.state ++ st.input) = m := by
      rw [h.input_eq, List.append_nil, h.member]
    have hruns := E.finishes st.state st.input st.avail_out (by rw [h.out, hmember]; exact h.runs)
    rw [hmember, E.out_call, h.out] at hruns
    exact hruns

theorem Finishing.end_iff (h : Finishing E m room st) :
    (deflate E st true).2 = .Z_STREAM_END ↔ (deflate E st true).1.out = m := by
  have hend := E.end_iff st.state st.input st.avail_out true
  rw [h.taken_eq, E.out_call, h.out, congrArg List.length h.input_eq, and_iff_right rfl,
    List.length_nil, and_iff_right rfl] at hend
  rw [show E.fed st.state ++ st.input = E.fed st.state from by
    rw [h.input_eq, List.append_nil], h.member] at hend
  exact hend

/-- The second loop ends, with the end of the stream or without room. -/
theorem deflateFinish_spec (h : Finishing E m room st) (hfuel : st.avail_out < fuel) :
    ∃ st' code, deflateFinish E fuel st = some (st', code) ∧ Finishing E m room st' ∧
      (code = .Z_STREAM_END ↔ st'.out = m) ∧ (code = .Z_STREAM_END ∨ st'.avail_out = 0) := by
  induction fuel generalizing st with
  | zero => exact absurd hfuel (Nat.not_lt_zero _)
  | succ fuel ih =>
    rw [deflateFinish]
    split
    · next hcode =>
      have hgiven := (E.progress _ _ _ _ hcode).resolve_left (by rw [h.taken_eq]; decide)
      rw [← List.length_pos_iff] at hgiven
      have hle := E.given_le st.state st.input st.avail_out true
      refine ih h.call ?_
      show st.avail_out - (E.call st.state st.input st.avail_out true).given.length < fuel
      omega
    · next hcode =>
      refine ⟨_, _, rfl, h.call, h.end_iff, ?_⟩
      cases hc : (E.call st.state st.input st.avail_out true).code with
      | Z_OK => exact absurd hc hcode
      | Z_STREAM_END => exact .inl rfl
      | Z_BUF_ERROR =>
        right
        have hzero := (E.blocked _ _ _ _ hc).resolve_right fun hf => absurd hf.1 (by decide)
        show st.avail_out - _ = 0
        rw [hzero, Nat.zero_sub]
      | Z_DATA_ERROR => exact absurd hc (E.no_data_error _ _ _ _)

theorem endStream_output {σ : Type} {st : ZStream σ} {ok : Bool} {size : Nat}
    (h : (endStream ok size st).ret = 0) : ok = true ∧ (endStream ok size st).output = st.out := by
  unfold endStream at h ⊢
  cases ok with
  | false => cases h
  | true => exact ⟨rfl, List.take_length⟩

theorem endStream_written {σ : Type} {st : ZStream σ} {ok : Bool} {size : Nat} :
    (endStream ok size st).written = st.out := by
  cases ok <;> rfl

theorem endStream_inside {σ : Type} {st : ZStream σ} {ok : Bool} {size : Nat} :
    (endStream ok size st).inside = st.inside ∧ (endStream ok size st).ended = true := by
  cases ok <;> exact ⟨rfl, rfl⟩

end

/-- How `gzcompress` with an open stream and room for `room` bytes ends: with the member, with a
part of it in an ended stream, or in a stream that is not ended. -/
inductive Ending (E : Encoder F) (endOk : Bool) (d : Bytes) (nzdata : Nat) (r : Result) : Prop
  | complete (fits : (E.member d).length ≤ nzdata % 2 ^ 32) (ret : r.ret = 0)
      (output : r.output = E.member d) (ended : r.ended = true)
  | cut (short : nzdata % 2 ^ 32 < (E.member d).length)
      (taken : nzdata < 2 ^ 32 → ¬ E.Overruns d (nzdata % 2 ^ 32))
      (ret : r.ret = 0 ↔ endOk = true) (output : r.ret = 0 → F.content r.output = none)
      (ended : r.ended = true)
  | left (short : nzdata % 2 ^ 32 < (E.member d).length) (capacity : nzdata < 2 ^ 32)
      (runsOut : E.Overruns d (nzdata % 2 ^ 32)) (ended : r.ended = false)

section

variable {E : Encoder F} {zlib : Zlib} {bytes d : Bytes} {nzdata room : Nat}

theorem endStream_ret {σ : Type} {st : ZStream σ} {ok : Bool} {size : Nat} :
    (endStream ok size st).ret = 0 ↔ ok = true := by
  cases ok with
  | false => exact ⟨nofun, nofun⟩
  | true => exact ⟨fun _ => rfl, fun _ => rfl⟩

/-- The first call that fails has no room, which the loop only comes to with a capacity of more than
32 bits. -/
theorem ending_failed {st : ZStream E.σ} (hst : Feeding E d (nzdata % 2 ^ 32) st)
    (hout : st.total_out = nzdata % 2 ^ 32) (hlt : nzdata % 2 ^ 32 < nzdata) :
    Ending E zlib.endOk d nzdata (endStream zlib.endOk nzdata st) := by
  refine .cut ?_ (fun hcap => ?_) endStream_ret (fun hret => ?_) endStream_inside.2
  · rw [← hout]
    exact hst.length_lt
  · omega
  · rw [(endStream_output hret).2]
    exact hst.content

/-- The loop leaves input only where the capacity has been used up. -/
theorem ending_left {st : ZStream E.σ} (hst : Feeding E d (nzdata % 2 ^ 32) st)
    (havail : st.avail_in ≠ 0) (hexit : ¬ (st.avail_in ≠ 0 ∧ st.total_out < nzdata))
    (hfeeds : E.Feeds E.start d (nzdata % 2 ^ 32) st.state st.input st.avail_out) :
    Ending E zlib.endOk d nzdata
      ⟨(st.avail_in : Int).bmod (2 ^ 32), st.out, nzdata, st.inside, false⟩ := by
  have hroom := hst.room
  have hout : ¬ st.out.length < nzdata := fun hlt => hexit ⟨havail, hlt⟩
  have hlt := hst.length_lt
  have hzero : st.avail_out = 0 := by omega
  refine .left (by omega) (by omega) ⟨st.state, st.input, hst.input_ne_nil havail, ?_⟩ rfl
  rw [hzero] at hfeeds
  exact hfeeds

/-- With all input taken the member is written, or as much of it as there is room for. -/
theorem ending_finished {st : ZStream E.σ} {code : ZCode}
    (hst : Finishing E (E.member d) (nzdata % 2 ^ 32) st)
    (hcode : code = .Z_STREAM_END ↔ st.out = E.member d)
    (hend : code = .Z_STREAM_END ∨ st.avail_out = 0)
    (htaken : nzdata < 2 ^ 32 → ¬ E.Overruns d (nzdata % 2 ^ 32)) :
    Ending E zlib.endOk d nzdata
      (endStream (code = .Z_STREAM_END || zlib.endOk) nzdata st) := by
  have hroom := hst.room
  by_cases hc : code = .Z_STREAM_END
  · have hout := hcode.mp hc
    rw [decide_eq_true hc, Bool.true_or]
    refine .complete ?_ rfl ?_ endStream_inside.2
    · rw [← hout]
      omega
    · rw [← hout]
      exact (endStream_output rfl).2
  · have hzero := hend.resolve_left hc
    have hshort : st.out.length < (E.member d).length :=
      lt_of_le_of_ne hst.runs.length_le fun heq => hc (hcode.mpr (hst.runs.eq_of_length heq))
    rw [decide_eq_false hc, Bool.false_or]
    refine .cut (by omega) htaken endStream_ret (fun hret => ?_) endStream_inside.2
    rw [(endStream_output hret).2]
    exact Format.content_short hst.runs (E.content_member d) hshort

theorem gzcompress_ending (E : Encoder F) (nzdata : Nat) (hbytes : bytes ≠ [])
    (hinit : zlib.initOk = true) :
    ∃ r, gzcompress E zlib (some bytes) nzdata = some r ∧ r.inside = true ∧
      Ending E zlib.endOk (bytes.take (bytes.length % 2 ^ 32)) nzdata r := by
  have hopen : ¬ (bytes = [] ∨ zlib.initOk = false) := by
    rintro (hnil | hfail)
    · exact hbytes hnil
    · rw [hinit] at hfail
      cases hfail
  have hfuel : (deflateStart E bytes nzdata).avail_in + (deflateStart E bytes nzdata).avail_out <
      bytes.length % 2 ^ 32 + nzdata % 2 ^ 32 + 1 := Nat.lt_succ_self _
  obtain ⟨st, code, hloop, hst, hend⟩ :=
    deflateInput_spec nzdata (Feeding.start E bytes nzdata) hfuel
  unfold gzcompress
  dsimp only
  rw [if_neg hopen, hloop, Option.bind_eq_bind, Option.bind_some]
  dsimp only
  obtain ⟨rfl, hexit, hfeeds⟩ | ⟨hcode, hout, hlt⟩ := hend
  · rw [if_neg (not_not.mpr rfl)]
    by_cases havail : st.avail_in = 0
    · have hroom := hst.room
      have hturns : st.avail_out < bytes.length % 2 ^ 32 + nzdata % 2 ^ 32 + 1 := by omega
      obtain ⟨st', code, hfinish, hst', hcode, hend⟩ :=
        deflateFinish_spec (.start hst havail) hturns
      rw [if_neg (not_not.mpr havail), hfinish, Option.bind_some]
      refine ⟨_, rfl, endStream_inside.1.trans hst'.inside, ending_finished hst' hcode hend ?_⟩
      rintro hcap ⟨s, i, hi, hruns⟩
      -- the loop would have left input
      refine deflateInput_left hruns hi rfl rfl rfl rfl ?_ hloop havail
      exact (Nat.zero_add _).trans (Nat.mod_eq_of_lt hcap)
    · rw [if_pos havail]
      exact ⟨_, rfl, hst.inside, ending_left hst havail hexit hfeeds⟩
  · rw [if_pos hcode]
    exact ⟨_, rfl, endStream_inside.1.trans hst.inside, ending_failed hst hout hlt⟩

theorem take_mod_eq_iff : bytes.take (bytes.length % 2 ^ 32) = bytes ↔ bytes.length < 2 ^ 32 := by
  rw [List.take_eq_self_iff]
  omega

/-- The three ways to end, against the promise. -/
theorem Ending.compressed_iff {r : Result}
    (h : Ending E zlib.endOk (bytes.take (bytes.length % 2 ^ 32)) nzdata r) :
    r.Compressed F (some bytes) ↔ MemberFits E zlib bytes nzdata := by
  cases h with
  | complete fits ret output ended =>
    constructor
    · intro h
      obtain ⟨_, hdata, hcontent⟩ := h.content ret
      rw [← hdata, output, E.content_member, Option.some.injEq] at hcontent
      rw [hcontent] at fits
      exact .inl ⟨take_mod_eq_iff.mp hcontent, fits⟩
    · rintro (⟨hlt, -⟩ | ⟨short, -, -⟩)
      · refine ⟨fun _ => ⟨bytes, rfl, ?_⟩, ended⟩
        rw [output, E.content_member, take_mod_eq_iff.mpr hlt]
      · exact absurd fits (Nat.not_le_of_lt short)
  | cut short taken ret output ended =>
    constructor
    · intro h
      refine .inr ⟨short, ?_, taken⟩
      rw [← Bool.not_eq_true, ← ret]
      intro hret
      obtain ⟨_, -, hcontent⟩ := h.content hret
      rw [output hret] at hcontent
      cases hcontent
    · rintro (⟨hlt, fits⟩ | ⟨-, hend, -⟩)
      · rw [take_mod_eq_iff.mpr hlt] at short
        exact absurd fits (Nat.not_le_of_lt short)
      · refine ⟨fun hret => ?_, ended⟩
        rw [ret, hend] at hret
        cases hret
  | left short capacity runsOut ended =>
    constructor
    · intro h
      rw [h.ended] at ended
      cases ended
    · rintro (⟨hlt, fits⟩ | ⟨-, -, htaken⟩)
      · rw [take_mod_eq_iff.mpr hlt] at short
        exact absurd fits (Nat.not_le_of_lt short)
      · exact absurd runsOut (htaken capacity)

theorem gzcompress_refused (h : bytes = [] ∨ zlib.initOk = false) :
    gzcompress E zlib (some bytes) nzdata = some (notOpened nzdata) := if_pos h

/-- `gzcompress` returns, reads inside its input, and keeps its promise exactly if the member fits or
the failure is told. -/
theorem gzcompress_spec (E : Encoder F) (zlib : Zlib) (data : Option Bytes) (nzdata : Nat) :
    ∃ r, gzcompress E zlib data nzdata = some r ∧ r.inside = true ∧
      (r.Compressed F data ↔ CompressFits E zlib data nzdata) := by
  have hrefused : (notOpened nzdata).Compressed F data := ⟨nofun, rfl⟩
  cases data with
  | none => exact ⟨_, rfl, rfl, fun _ => .inl rfl, fun _ => hrefused⟩
  | some bytes =>
    by_cases hnil : bytes = []
    · subst hnil
      exact ⟨_, gzcompress_refused (.inl rfl), rfl, fun _ => .inr (.inl rfl), fun _ => hrefused⟩
    · cases hinit : zlib.initOk with
      | false =>
        exact ⟨_, gzcompress_refused (.inr hinit), rfl, fun _ => .inr (.inr (.inl hinit)),
          fun _ => hrefused⟩
      | true =>
        obtain ⟨r, hr, hinside, hending⟩ := gzcompress_ending E nzdata hnil hinit
        refine ⟨r, hr, hinside, hending.compressed_iff.trans ⟨fun h => ?_, ?_⟩⟩
        · exact .inr (.inr (.inr ⟨bytes, rfl, h⟩))
        · rintro (hnone | hempty | hfail | ⟨_, hdata, h⟩)
          · cases hnone
          · exact absurd (Option.some.inj hempty) hnil
          · rw [hinit] at hfail
            cases hfail
          · rw [Option.some.inj hdata]
            exact h

end

end Gzip
end CmakeFrame
