import CmakeFrame.Common.Gzip

/-!
# Decompressing, and both wrappers of zlib

The loop of `gzdecompress` gives `inflate` one byte at a time and room for one. As long as there is no
error it reads the input from the beginning, so that it comes to the end of a member if the input
begins with one.

* `Reading`: the invariant of the loop; `Before`, `Whole`: what becomes of a member that the input
  begins with; `gzdecompress_spec`.
* `RoundTrip`, `ContentFits`: what both functions promise of a text, and when it comes back.
* `gzip_wrappers_right_iff`: when the promises are kept.
* `scanner`, `gzipEncoder`: a codec with the laws.
-/

namespace CmakeFrame
namespace Gzip

open Lib

variable {F : Format}

/-! ## Decompressing -/

section

variable {D : Decoder F} {zlib : Zlib} {zdata : Bytes} {ndata fuel : Nat} {st : ZStream D.σ}

/-- What the loop keeps as long as there was no error: it has read a beginning of the input. -/
structure Reading (D : Decoder F) (zdata : Bytes) (ndata : Nat) (st : ZStream D.σ) : Prop where
  fed : D.fed st.state = zdata.take st.total_in
  next : st.next_in = zdata.drop st.total_in
  inside : st.inside = true
  out : D.out st.state = st.out
  length : st.out.length ≤ ndata

/-- A member that the input begins with is not complete after `n` bytes. -/
def Before (F : Format) (zdata : Bytes) (n : Nat) : Prop :=
  ∀ z d, z <+: zdata → F.content z = some d → n < z.length

/-- What is left behind the loop: the content of a member that fits. -/
def Whole (F : Format) (zdata : Bytes) (ndata : Nat) (out : Bytes) : Prop :=
  ∀ z d, z <+: zdata → F.content z = some d → d.length ≤ ndata → out = d

theorem Before.start : Before F zdata 0 := by
  intro z d _ hz
  refine List.length_pos_iff.mpr fun hnil => ?_
  rw [hnil, F.content_nil] at hz
  cases hz

theorem Reading.start (D : Decoder F) (zdata : Bytes) (ndata : Nat) :
    Reading D zdata ndata (inflateStart D zdata) where
  fed := D.fed_start
  next := rfl
  inside := rfl
  out := D.out_start
  length := Nat.zero_le _

/-- A call of one byte reads on. -/
theorem Reading.call (h : Reading D zdata ndata st) (hout : st.total_out < ndata)
    (hin : st.total_in < zdata.length) : Reading D zdata ndata (inflateByte D st).1 where
  fed := by
    have htaken := (D.taken_le st.state (st.next_in.take 1) 1).trans (List.length_take_le 1 _)
    show D.fed (D.call st.state (st.next_in.take 1) 1).state = zdata.take (st.total_in + _)
    rw [D.fed_call, h.fed, h.next, List.take_take, Nat.min_eq_left (h.next ▸ htaken), List.take_add]
    rfl
  next := by
    show st.next_in.drop _ = zdata.drop (st.total_in + _)
    rw [h.next, List.drop_drop]
  inside := by
    have havail : 1 ≤ st.next_in.length := by
      rw [h.next, List.length_drop]
      omega
    exact ZStream.inside_after { st with avail_in := 1, avail_out := 1 } h.inside havail _
  out := by
    show D.out (D.call st.state (st.next_in.take 1) 1).state = st.out ++ _
    rw [D.out_call, h.out]
    rfl
  length := by
    have hgiven := D.given_le st.state (st.next_in.take 1) 1
    show (st.out ++ (D.call st.state (st.next_in.take 1) 1).given).length ≤ ndata
    rw [ZStream.total_out] at hout
    rw [List.length_append]
    omega

theorem inflateByte_total_in (D : Decoder F) (st : ZStream D.σ) :
    (inflateByte D st).1.total_in ≤ st.total_in + 1 := by
  have htaken := (D.taken_le st.state (st.next_in.take 1) 1).trans (List.length_take_le 1 _)
  exact Nat.add_le_add_left htaken _

theorem inflateByte_room (D : Decoder F) (st : ZStream D.σ) :
    (inflateByte D st).1.out.length + (inflateByte D st).1.avail_out = st.total_out + 1 :=
  ZStream.room_after { st with avail_in := 1, avail_out := 1 } (D.given_le _ _ _)

theorem inflateByte_end_iff (D : Decoder F) (st : ZStream D.σ) :
    (inflateByte D st).2 = .Z_STREAM_END ↔
      ∃ d, F.content (D.fed (inflateByte D st).1.state) = some d := D.end_iff _ _ _

theorem inflateByte_corrupt_iff (D : Decoder F) (st : ZStream D.σ) :
    (inflateByte D st).2 = .Z_DATA_ERROR ↔ D.corrupt (D.fed (inflateByte D st).1.state) :=
  D.corrupt_iff _ _ _

/-- A call that succeeds moves a byte. -/
theorem inflateByte_moves (hcode : (inflateByte D st).2 = .Z_OK) :
    st.total_in + st.total_out < (inflateByte D st).1.total_in + (inflateByte D st).1.total_out := by
  have hprogress := D.progress st.state (st.next_in.take 1) 1 hcode
  rw [← List.length_pos_iff] at hprogress
  show st.total_in + st.out.length < st.total_in + (D.call st.state (st.next_in.take 1) 1).taken +
    (st.out ++ (D.call st.state (st.next_in.take 1) 1).given).length
  rw [List.length_append]
  omega

/-- With a byte to read and room for one a call is not blocked. -/
theorem Reading.not_blocked (h : Reading D zdata ndata st) (hin : st.total_in < zdata.length) :
    (inflateByte D st).2 ≠ .Z_BUF_ERROR := by
  intro hcode
  rcases D.blocked st.state (st.next_in.take 1) 1 hcode with hroom | hempty
  · cases hroom
  · have hlen := congrArg List.length hempty
    rw [h.next, List.length_take, List.length_drop, List.length_nil] at hlen
    omega

/-- After an error the second call fails as well, so that nothing behind `dummy_head` is read. -/
theorem inflateHead_fails (h : st.inside = true) (hcorrupt : D.corrupt (D.fed st.state)) :
    (inflateHead D st).2 ≠ .Z_OK ∧ (inflateHead D st).1.inside = true ∧
      (inflateHead D st).1.out.length ≤ st.out.length + st.avail_out := by
  refine ⟨fun hcode => ?_, ?_, ?_⟩
  · have herror : (D.call st.state dummy_head st.avail_out).code = .Z_DATA_ERROR := by
      rw [D.corrupt_iff, D.fed_call]
      exact D.corrupt_append _ _ hcorrupt
    rw [show (D.call st.state dummy_head st.avail_out).code = .Z_OK from hcode] at herror
    cases herror
  · exact ZStream.inside_after { st with next_in := dummy_head, avail_in := 2 } h
      (Nat.le_refl 2) _
  · have hroom := ZStream.room_after { st with next_in := dummy_head, avail_in := 2 }
      (D.given_le st.state dummy_head st.avail_out)
    exact (Nat.le_add_right _ _).trans hroom.le

/-- The input that has been read is a beginning of any member that is not complete. -/
theorem Reading.fed_prefix (h : Reading D zdata ndata st) {z d : Bytes} (hz : z <+: zdata)
    (hle : st.total_in ≤ z.length) (hd : F.content z = some d) :
    D.fed st.state <+: z ∧ ∃ e, F.content (D.fed st.state ++ e) = some d := by
  have hpre : D.fed st.state <+: z := by
    rw [h.fed, List.prefix_iff_eq_take.mp hz]
    exact List.take_prefix_take_left hle
  obtain ⟨e, rfl⟩ := hpre
  exact ⟨⟨e, rfl⟩, e, hd⟩

/-- A call that is told to be no end leaves every member incomplete. -/
theorem Before.step (hb : Before F zdata st.total_in) {st' : ZStream D.σ}
    (h : Reading D zdata ndata st') (hle : st'.total_in ≤ st.total_in + 1)
    (hend : ¬ ∃ d, F.content (D.fed st'.state) = some d) : Before F zdata st'.total_in := by
  intro z d hz hd
  have hlt := hb z d hz hd
  refine lt_of_le_of_ne (by omega) fun heq => hend ⟨d, ?_⟩
  rw [h.fed, heq, ← List.prefix_iff_eq_take.mp hz]
  exact hd

/-- Where the loop stops for the room or for the end of the input. -/
theorem Reading.whole_exit (h : Reading D zdata ndata st) (hb : Before F zdata st.total_in)
    (hexit : ¬ (st.total_out < ndata ∧ st.total_in < zdata.length)) :
    Whole F zdata ndata st.out := by
  intro z d hz hd hle
  have hlt := hb z d hz hd
  have hzlen := hz.length_le
  obtain ⟨-, e, he⟩ := h.fed_prefix hz hlt.le hd
  have hpre := D.out_prefix _ _ _ he
  rw [h.out] at hpre
  refine hpre.eq_of_length ?_
  have hplen := hpre.length_le
  rw [ZStream.total_out] at hexit
  omega

/-- Where the end of the stream is told. -/
theorem Reading.whole_end (h : Reading D zdata ndata st) {d' : Bytes}
    (hcontent : F.content (D.fed st.state) = some d') (hout : st.out = d') :
    Whole F zdata ndata st.out := by
  intro z d hz hd _
  have hfed : D.fed st.state <+: zdata := by
    rw [h.fed]
    exact List.take_prefix _ _
  rw [F.unique hfed hz hcontent hd, hd] at hcontent
  rw [hout]
  exact (Option.some.inj hcontent).symm

/-- Where an error is told there is no member. -/
theorem Reading.whole_corrupt (h : Reading D zdata ndata st) {n : Nat} (hb : Before F zdata n)
    (hle : st.total_in ≤ n + 1) (hcorrupt : D.corrupt (D.fed st.state)) (out : Bytes) :
    Whole F zdata ndata out := by
  intro z d hz hd _
  have hlt := hb z d hz hd
  exact absurd hcorrupt (Decoder.not_corrupt (h.fed_prefix hz (by omega) hd).1 hd)

/-- The loop ends, inside the input and within the room. -/
theorem inflateLoop_spec (h : Reading D zdata ndata st) (hb : Before F zdata st.total_in)
    (hfuel : (ndata - st.total_out) + (zdata.length - st.total_in) < fuel) :
    ∃ st', inflateLoop D zdata.length ndata fuel st = some st' ∧ st'.inside = true ∧
      st'.out.length ≤ ndata ∧ Whole F zdata ndata st'.out := by
  induction fuel generalizing st with
  | zero => exact absurd hfuel (Nat.not_lt_zero _)
  | succ fuel ih =>
    rw [inflateLoop]
    split
    · next hcond =>
      obtain ⟨hout, hin⟩ := hcond
      have hread := h.call hout hin
      have hle := inflateByte_total_in D st
      dsimp only
      split
      · next hcode =>
        have hnot : ¬ ∃ d, F.content (D.fed (inflateByte D st).1.state) = some d := by
          rw [← inflateByte_end_iff, hcode]
          decide
        have hmoves := inflateByte_moves hcode
        have hlen : (inflateByte D st).1.total_out ≤ ndata := hread.length
        exact ih hread (hb.step hread hle hnot) (by omega)
      · next hcode =>
        obtain ⟨d, hd⟩ := (inflateByte_end_iff D st).mp hcode
        refine ⟨_, rfl, hread.inside, hread.length, hread.whole_end hd ?_⟩
        rw [← hread.out]
        exact D.end_out _ _ _ d hd
      · next hcode =>
        have hcorrupt := (inflateByte_corrupt_iff D st).mp hcode
        obtain ⟨hfails, hinside, hlen⟩ := inflateHead_fails hread.inside hcorrupt
        rw [inflateByte_room] at hlen
        rw [if_neg hfails]
        exact ⟨_, rfl, hinside, hlen.trans hout, hread.whole_corrupt hb hle hcorrupt _⟩
      · next hcode => exact absurd hcode (h.not_blocked hin)
    · next hcond => exact ⟨st, rfl, h.inside, h.length, h.whole_exit hb hcond⟩

/-- What the loop leaves behind, against the promise. -/
theorem decompressed_iff (hinit : zlib.initOk ≠ false) (hlen : st.out.length ≤ ndata)
    (hwhole : Whole F zdata ndata st.out) :
    (endStream zlib.endOk ndata st).Decompressed F zdata ↔ DecompressFits F zlib zdata ndata := by
  constructor
  · intro h
    cases hend : zlib.endOk with
    | false => exact .inr (.inl hend)
    | true =>
      rw [hend] at h
      obtain ⟨z, hz, hcontent⟩ := h.content rfl
      rw [(endStream_output rfl).2] at hcontent
      exact .inr (.inr ⟨z, st.out, hz, hcontent, hlen⟩)
  · intro h
    refine ⟨fun hret => ?_, endStream_inside.2⟩
    obtain ⟨hend, hout⟩ := endStream_output hret
    rcases h with hfail | hfail | ⟨z, d, hz, hd, hle⟩
    · exact absurd hfail hinit
    · rw [hend] at hfail
      cases hfail
    · refine ⟨z, hz, ?_⟩
      rw [hout, hwhole z d hz hd hle, hd]

/-- `gzdecompress` returns; it reads and writes inside, returns 0 unless zlib fails, and keeps its
promise exactly if the input begins with a member whose content fits, or zlib fails. -/
theorem gzdecompress_spec (D : Decoder F) (zlib : Zlib) (zdata : Bytes) (ndata : Nat) :
    ∃ r, gzdecompress D zlib zdata ndata = some r ∧ r.inside = true ∧ r.output.length ≤ ndata ∧
      (r.ret = 0 ↔ zlib.initOk = true ∧ zlib.endOk = true) ∧
      (r.Decompressed F zdata ↔ DecompressFits F zlib zdata ndata) := by
  unfold gzdecompress
  split
  · next hinit =>
    refine ⟨_, rfl, rfl, ?_, ⟨nofun, fun h => ?_⟩, fun _ => .inl hinit, fun _ => ⟨nofun, rfl⟩⟩
    · rw [Result.output, notOpened, List.take_nil]
      exact Nat.zero_le _
    · rw [hinit] at h
      cases h.1
  · next hinit =>
    have hfuel : ndata - (inflateStart D zdata).total_out +
        (zdata.length - (inflateStart D zdata).total_in) < zdata.length + ndata + 1 := by
      omega
    obtain ⟨st, hloop, hinside, hlen, hwhole⟩ :=
      inflateLoop_spec (.start D zdata ndata) Before.start hfuel
    rw [hloop]
    refine ⟨_, rfl, endStream_inside.1.trans hinside, ?_, ?_, decompressed_iff hinit hlen hwhole⟩
    · refine (List.length_take_le' _ _).trans ?_
      rw [endStream_written]
      exact hlen
    · rw [endStream_ret, and_iff_right (Bool.not_eq_false _ ▸ hinit)]

end

/-! ## Both -/

/-- What both functions promise of one text: it comes back whenever both return 0. -/
def RoundTrip (E : Encoder F) (D : Decoder F) (zlib zlib' : Zlib) (data : Option Bytes)
    (nzdata ndata : Nat) : Prop :=
  ∀ r r', gzcompress E zlib data nzdata = some r → r.ret = 0 →
    gzdecompress D zlib' r.output ndata = some r' → r'.ret = 0 → data = some r'.output

/-- The text fits where it is to come back to, or zlib fails. -/
def ContentFits (zlib : Zlib) (data : Option Bytes) (ndata : Nat) : Prop :=
  zlib.initOk = false ∨ zlib.endOk = false ∨ ∀ bytes, data = some bytes → bytes.length ≤ ndata

section

variable {E : Encoder F} {D : Decoder F} {zlib zlib' : Zlib} {data : Option Bytes}
  {nzdata ndata : Nat}

/-- The content of the member that `gzcompress` has written comes back if it fits. -/
theorem roundTrip_of (hfits : CompressFits E zlib data nzdata)
    (hcontent : ContentFits zlib' data ndata) : RoundTrip E D zlib zlib' data nzdata ndata := by
  intro r r' hr hret hr' hret'
  obtain ⟨_, hs, -, hright⟩ := gzcompress_spec E zlib data nzdata
  cases hr.symm.trans hs
  obtain ⟨bytes, rfl, hmember⟩ := (hright.mpr hfits).content hret
  obtain ⟨_, hs', -, -, -, hright'⟩ := gzdecompress_spec D zlib' r.output ndata
  cases hr'.symm.trans hs'
  have hdecompress : DecompressFits F zlib' r.output ndata := by
    rcases hcontent with hfail | hfail | hle
    · exact .inl hfail
    · exact .inr (.inl hfail)
    · exact .inr (.inr ⟨r.output, bytes, List.prefix_rfl, hmember, hle bytes rfl⟩)
  obtain ⟨z, hz, hz'⟩ := (hright'.mpr hdecompress).content hret'
  rw [F.unique hz List.prefix_rfl hz' hmember, hmember] at hz'
  exact hz'

/-- Where `gzcompress` keeps its promise, the text comes back exactly if it fits. -/
theorem roundTrip_iff (hfits : CompressFits E zlib data nzdata) :
    RoundTrip E D zlib zlib' data nzdata ndata ↔
      ContentFits zlib' data ndata ∨ ∀ r, gzcompress E zlib data nzdata = some r → r.ret ≠ 0 := by
  constructor
  · intro h
    obtain ⟨r, hr, -, -⟩ := gzcompress_spec E zlib data nzdata
    obtain ⟨r', hr', -, hlen, hret', -⟩ := gzdecompress_spec D zlib' r.output ndata
    by_cases hret : r.ret = 0
    · left
      cases hinit : zlib'.initOk with
      | false => exact .inl hinit
      | true =>
        cases hend : zlib'.endOk with
        | false => exact .inr (.inl hend)
        | true =>
          refine .inr (.inr fun bytes hbytes => ?_)
          rw [h r r' hr hret hr' (hret'.mpr ⟨hinit, hend⟩), Option.some.injEq] at hbytes
          rw [← hbytes]
          exact hlen
    · right
      intro s hs
      cases hr.symm.trans hs
      exact hret
  · rintro (hcontent | hret)
    · exact roundTrip_of hfits hcontent
    · intro r r' hr hzero
      exact absurd hzero (hret r hr)

/-- Both functions return and read inside their inputs. `gzcompress` keeps its promise exactly if no
stream is opened, or the member of an input shorter than `2^32` fits into `*nzdata` modulo `2^32`, or
it does not fit and that is told; `gzdecompress` exactly if its input begins with a member whose
content fits, or zlib fails. Where `gzcompress` keeps its promise and returns 0, the text comes back
exactly if it fits. -/
theorem gzip_wrappers_right_iff (E : Encoder F) (D : Decoder F) (zlib zlib' : Zlib)
    (data : Option Bytes) (nzdata : Nat) (zdata : Bytes) (ndata : Nat) :
    (∃ r, gzcompress E zlib data nzdata = some r ∧ r.inside = true ∧
      (r.Compressed F data ↔ CompressFits E zlib data nzdata)) ∧
    (∃ r, gzdecompress D zlib' zdata ndata = some r ∧ r.inside = true ∧
      (r.Decompressed F zdata ↔ DecompressFits F zlib' zdata ndata)) ∧
    (CompressFits E zlib data nzdata → (RoundTrip E D zlib zlib' data nzdata ndata ↔
      ContentFits zlib' data ndata ∨ ∀ r, gzcompress E zlib data nzdata = some r → r.ret ≠ 0)) := by
  obtain ⟨r, hr, hinside, -, -, hright⟩ := gzdecompress_spec D zlib' zdata ndata
  exact ⟨gzcompress_spec E zlib data nzdata, ⟨r, hr, hinside, hright⟩, roundTrip_iff⟩

end

/-! ## A codec

Its members begin as those of zlib, and the member of `"a"` is the one that zlib makes. Any other text
stands behind `0xFF`, a 1 before each byte and a 0 at the end. -/

/-- The header that `deflateInit2` with `MAX_WBITS + 16` stands for. -/
def gzipHeader : Bytes := [0x1F, 0x8B, 0x08, 0, 0, 0, 0, 0, 0, 0x03]

/-- The compressed `"a"`, its checksum and its length, behind the first byte. -/
def bodyOfA : Bytes := [0x04, 0x00, 0x43, 0xBE, 0xB7, 0xE8, 0x01, 0, 0, 0]

/-- What the machine waits for, with the output that it has given. -/
inductive Scan
  | header (left : Bytes)
  | ofA (left : Bytes)
  | mark (out : Bytes)
  | byte (out : Bytes)
  | done (out : Bytes)
  | broken (out : Bytes)

/-- The output of a state. The `a` is out with the second byte of its body. -/
def Scan.out : Scan → Bytes
  | .header _ => []
  | .ofA left => if left.length < 10 then [0x61] else []
  | .mark out | .byte out | .done out | .broken out => out

def Scan.status : Scan → Mark
  | .done _ => .complete
  | .broken _ => .broken
  | .header _ | .ofA _ | .mark _ | .byte _ => .going

def Scan.step : Scan → UInt8 → Scan
  | .header (c :: left), b => if b = c then .header left else .broken []
  | .header [], b => if b = 0x4B then .ofA bodyOfA else if b = 0xFF then .mark [] else .broken []
  | .ofA (c :: left), b =>
    if b = c then
      if left = [] then .done (Scan.ofA (c :: left)).out else .ofA left
    else .broken (Scan.ofA (c :: left)).out
  | .ofA [], _ => .broken (Scan.ofA []).out
  | .mark out, b => if b = 1 then .byte out else if b = 0 then .done out else .broken out
  | .byte out, b => .mark (out ++ [b])
  | .done out, _ => .broken out
  | .broken out, _ => .broken out

theorem Scan.out_step (p : Scan) (b : UInt8) :
    ∃ g, (p.step b).out = p.out ++ g ∧ g.length ≤ 1 := by
  have hsame : ∀ q : Scan, q.out = p.out → ∃ g, q.out = p.out ++ g ∧ g.length ≤ 1 :=
    fun q hq => ⟨[], by rw [hq, List.append_nil], Nat.zero_le _⟩
  cases p with
  | header left =>
    cases left with
    | nil =>
      rw [Scan.step]
      split
      · exact hsame _ rfl
      · split <;> exact hsame _ rfl
    | cons c left =>
      rw [Scan.step]
      split <;> exact hsame _ rfl
  | ofA left =>
    cases left with
    | nil => exact hsame _ rfl
    | cons c left =>
      rw [Scan.step]
      split
      · split
        · exact hsame _ rfl
        · -- the tenth byte from the end gives the text
          show ∃ g : Bytes, (if left.length < 10 then [0x61] else []) =
            (if left.length + 1 < 10 then [0x61] else []) ++ g ∧ g.length ≤ 1
          rcases Nat.lt_trichotomy (left.length + 1) 10 with hlt | heq | hgt
          · rw [if_pos (Nat.lt_of_succ_lt hlt), if_pos hlt]
            exact ⟨[], rfl, Nat.zero_le _⟩
          · rw [if_pos (by omega), if_neg (by omega)]
            exact ⟨[0x61], rfl, Nat.le_refl 1⟩
          · rw [if_neg (by omega), if_neg (by omega)]
            exact ⟨[], rfl, Nat.zero_le _⟩
      · exact hsame _ rfl
  | mark out =>
    rw [Scan.step]
    split
    · exact hsame _ rfl
    · split <;> exact hsame _ rfl
  | byte out => exact ⟨[b], rfl, Nat.le_refl 1⟩
  | done out => exact hsame _ rfl
  | broken out => exact hsame _ rfl

/-- The machine. -/
def scanner : Machine Scan where
  start := .header gzipHeader
  step := Scan.step
  out := Scan.out
  mark := Scan.status
  out_start := rfl
  mark_start := rfl
  out_step := Scan.out_step
  stops p b h := by
    cases p with
    | done out => rfl
    | broken out => rfl
    | header left => exact absurd rfl h
    | ofA left => exact absurd rfl h
    | mark out => exact absurd rfl h
    | byte out => exact absurd rfl h

/-- The member of a text. -/
def memberOf (d : Bytes) : Bytes :=
  gzipHeader ++
    if d = [0x61] then 0x4B :: bodyOfA else 0xFF :: (d.flatMap fun b => [1, b]) ++ [0]

theorem foldl_marked (d out : Bytes) :
    ((d.flatMap fun b => [1, b]) ++ [0]).foldl Scan.step (.mark out) = .done (out ++ d) := by
  induction d generalizing out with
  | nil => rw [List.append_nil]; rfl
  | cons b d ih =>
    rw [List.append_cons out b d, ← ih (out ++ [b])]
    rfl

theorem content_memberOf (d : Bytes) : scanner.format.content (memberOf d) = some d := by
  rw [scanner.content_eq_some, memberOf]
  split
  · next h =>
    subst h
    decide
  · have hrun : scanner.run (gzipHeader ++ (0xFF :: (d.flatMap fun b => [1, b]) ++ [0])) =
        .done d := by
      rw [scanner.run_append, List.cons_append]
      exact foldl_marked d []
    rw [hrun]
    exact ⟨rfl, rfl⟩

/-- The encoder. -/
def gzipEncoder : Encoder scanner.format :=
  .ofMember scanner.format gzipHeader memberOf content_memberOf fun _ => List.prefix_append _ _

/-- With 32 bytes of room the text `"a"` is compressed, and it comes back. -/
theorem gzip_wrappers_right_a :
    (∃ r, gzcompress gzipEncoder ⟨true, true⟩ (some [0x61]) 32 = some r ∧ r.ret = 0 ∧
      r.Compressed scanner.format (some [0x61])) ∧
    (∃ r, gzdecompress scanner.decoder ⟨true, true⟩ (memberOf [0x61]) 1 = some r ∧ r.ret = 0 ∧
      r.Decompressed scanner.format (memberOf [0x61])) ∧
    RoundTrip gzipEncoder scanner.decoder ⟨true, true⟩ ⟨true, true⟩ (some [0x61]) 32 1 := by
  have hroom : (memberOf [0x61]).length ≤ 32 % 2 ^ 32 := by
    rw [show (memberOf [0x61]).length = 21 from rfl]
    omega
  have hfits : CompressFits gzipEncoder ⟨true, true⟩ (some [0x61]) 32 :=
    .inr (.inr (.inr ⟨[0x61], rfl, .inl ⟨Nat.one_lt_two_pow (by decide), hroom⟩⟩))
  have hmember : DecompressFits scanner.format ⟨true, true⟩ (memberOf [0x61]) 1 :=
    .inr (.inr ⟨_, [0x61], List.prefix_rfl, content_memberOf [0x61], Nat.le_refl 1⟩)
  have hcontent : ContentFits ⟨true, true⟩ (some [0x61]) 1 := by
    refine .inr (.inr fun bytes hbytes => ?_)
    cases hbytes
    exact Nat.le_refl 1
  obtain ⟨⟨r, hr, -, hcompress⟩, ⟨r', hr', -, hdecompress⟩, htrip⟩ :=
    gzip_wrappers_right_iff gzipEncoder scanner.decoder ⟨true, true⟩ ⟨true, true⟩ (some [0x61]) 32
      (memberOf [0x61]) 1
  refine ⟨⟨r, hr, ?_, hcompress.mpr hfits⟩, ⟨r', hr', ?_, hdecompress.mpr hmember⟩,
    (htrip hfits).mpr (.inl hcontent)⟩
  · have hrun : gzcompress gzipEncoder ⟨true, true⟩ (some [0x61]) 32 =
      some ⟨0, memberOf [0x61], 21, true, true⟩ := rfl
    cases hr.symm.trans hrun
    rfl
  · have hrun : gzdecompress scanner.decoder ⟨true, true⟩ (memberOf [0x61]) 1 =
      some ⟨0, [0x61], 1, true, true⟩ := rfl
    cases hr'.symm.trans hrun
    rfl

/-- With room for 12 bytes `gzcompress` returns 0 with a member that is cut off, and `gzdecompress`
returns 0 for it; with room for 8 the stream is not ended. -/
theorem gzip_wrappers_not_right :
    (∃ r, gzcompress gzipEncoder ⟨true, true⟩ (some [0x61]) 12 = some r ∧ r.ret = 0 ∧
      ¬ r.Compressed scanner.format (some [0x61])) ∧
    (∃ r, gzdecompress scanner.decoder ⟨true, true⟩ ((memberOf [0x61]).take 12) 20 = some r ∧
      r.ret = 0 ∧ ¬ r.Decompressed scanner.format ((memberOf [0x61]).take 12)) ∧
    (∃ r, gzcompress gzipEncoder ⟨true, true⟩ (some [0x61]) 8 = some r ∧ r.ended = false) := by
  refine ⟨⟨⟨0, (memberOf [0x61]).take 12, 12, true, true⟩, rfl, rfl, fun h => ?_⟩,
    ⟨⟨0, [0x61], 1, true, true⟩, rfl, rfl, fun h => ?_⟩,
    ⟨_, rfl, rfl⟩⟩
  · obtain ⟨_, -, hcontent⟩ := h.content rfl
    have hnone : scanner.format.content ((memberOf [0x61]).take 12) = none := rfl
    rw [Result.output, List.take_take] at hcontent
    cases hcontent.symm.trans hnone
  · obtain ⟨z, hz, hcontent⟩ := h.content rfl
    have hshort : scanner.format.content z = none := by
      refine Format.content_short (hz.trans (List.take_prefix 12 _)) (content_memberOf [0x61]) ?_
      exact Nat.lt_of_le_of_lt hz.length_le (by decide)
    cases hcontent.symm.trans hshort

end Gzip
end CmakeFrame
