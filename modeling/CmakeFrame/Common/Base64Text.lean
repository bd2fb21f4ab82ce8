import CmakeFrame.Common.Base64
import CmakeFrame.Lib.Octets

/-!
# `Base64.cpp`: which texts are read as what

`Decode` on any text, and `Encode` as it stands, with its index that runs past the end.

* `body`: the characters that `Decode` looks at, those before the first `=` or NUL.
* `Carry`: the bits that the loop of `Decode` carries from one character to the next.
* `decodeLoop_cons`: one turn of the loop; `decodeLoop_snd`, `decodeLoop_fst`,
  `length_decodeLoop_le`: the whole loop.
* `decode_any`: which texts are accepted, as which bytes, and how many bytes are written at most.
* `encodeBody`: the body of `Encode` by indices; `encodeBody_eq`: it is `encode`.
* `Copy`: `common/Base64.cpp` and `remainFile/src/Base64.cpp`; `base64_roundtrip` is about both.
-/

namespace CmakeFrame
namespace Base64

open Lib

/-! ## `Decode` on any text -/

/-- The characters before the first `=` or NUL. -/
def body (src : Bytes) : Bytes := src.takeWhile (fun c => c ≠ 61 ∧ c ≠ 0)

/-- The six-bit values of characters. -/
def sextets (s : Bytes) : List Nat := s.map fun c => (chr2Base c).toNat

/-- A character that is no `64` to `chr2Base` is the one for its value. -/
theorem chr2Base_table : ∀ n < 256, chr2Base (UInt8.ofNat n) = 64 ∨
    ((chr2Base (UInt8.ofNat n)).toNat < 64 ∧
      codeAt (chr2Base (UInt8.ofNat n)).toNat = UInt8.ofNat n) := by
  decide +kernel

/-- A character of the alphabet is the one for its value. -/
theorem codeAt_chr2Base {c : UInt8} (h : c ∈ base64Code) :
    (chr2Base c).toNat < 64 ∧ codeAt (chr2Base c).toNat = c := by
  obtain ⟨n, hn, rfl⟩ := List.mem_iff_getElem.mp h
  have hcode : codeAt n = base64Code[n] := by
    rw [codeAt, List.getD_eq_getElem?_getD, List.getElem?_eq_getElem hn, Option.getD_some]
  have hn64 : n < 64 := hn
  rw [← hcode, (chr2Base_codeAt n hn64).1, toNat_ofNat (by omega)]
  exact ⟨hn64, rfl⟩

theorem chr2Base_eq {c : UInt8} : chr2Base c = 64 ↔ c ∉ base64Code := by
  constructor
  · intro h hc
    have := (codeAt_chr2Base hc).1
    rw [h] at this
    exact absurd this (by decide)
  · intro hc
    have h := chr2Base_table c.toNat c.toNat_lt
    rw [UInt8.ofNat_toNat] at h
    refine h.resolve_right fun ⟨hlt, hcode⟩ => hc ?_
    rw [← hcode]
    exact (chr2Base_codeAt _ hlt).2.2.2

/-- What is carried into the turn for index `i`: `w` bits with the value `x`, at the top of `t`. At
the start of a group nothing is, and `t` does not matter. -/
def Carry (i : Nat) (t : UInt8) (w x : Nat) : Prop :=
  (i % 4 = 0 ∧ w = 0 ∧ x = 0) ∨ (i % 4 = 1 ∧ w = 6 ∧ x < 64 ∧ t = UInt8.ofNat (x * 2 ^ 2)) ∨
    (i % 4 = 2 ∧ w = 4 ∧ x < 16 ∧ t = UInt8.ofNat (x * 2 ^ 4)) ∨
    (i % 4 = 3 ∧ w = 2 ∧ x < 4 ∧ t = UInt8.ofNat (x * 2 ^ 6))

theorem carry_start (t : UInt8) : Carry 0 t 0 0 := .inl ⟨rfl, rfl, rfl⟩

theorem Carry.lt {i : Nat} {t : UInt8} {w x : Nat} (h : Carry i t w x) : w < 8 ∧ x < 2 ^ w := by
  rcases h with ⟨-, rfl, rfl⟩ | ⟨-, rfl, hx, -⟩ | ⟨-, rfl, hx, -⟩ | ⟨-, rfl, hx, -⟩
  · decide
  · exact ⟨by decide, hx⟩
  · exact ⟨by decide, hx⟩
  · exact ⟨by decide, hx⟩

/-- One turn for a character of the alphabet. The carried bits and six more are fewer than eight, or
they are a byte, which is written, and the bits carried on. -/
theorem decodeLoop_cons {i : Nat} {t : UInt8} {w x : Nat} (h : Carry i t w x) {c : UInt8}
    (hc : c ∈ base64Code) (rest : Bytes) :
    ∃ t' w' x', Carry (i + 1) t' w' x' ∧
      ((decodeLoop i t (c :: rest) = decodeLoop (i + 1) t' rest ∧ w' = w + 6 ∧
        x' = x * 64 + (chr2Base c).toNat) ∨
      ∃ b : UInt8, decodeLoop i t (c :: rest) =
          (b :: (decodeLoop (i + 1) t' rest).1, (decodeLoop (i + 1) t' rest).2) ∧
        w' + 8 = w + 6 ∧ x * 64 + (chr2Base c).toNat = b.toNat * 2 ^ w' + x') := by
  obtain ⟨hv, hcode⟩ := codeAt_chr2Base hc
  have hloop := decodeLoop_codeAt (i := i) hv t rest
  rw [hcode] at hloop
  rw [hloop]
  generalize (chr2Base c).toNat = v at hv ⊢
  rcases h with ⟨hi, rfl, rfl⟩ | ⟨hi, rfl, hx, rfl⟩ | ⟨hi, rfl, hx, rfl⟩ | ⟨hi, rfl, hx, rfl⟩
  · have e := shiftLeft_ofNat (n := v) (k := 2) (by decide) (by omega)
    simp only [UInt8.reduceOfNat] at e
    rw [hi, e, Nat.mod_eq_of_lt (show v < 2 ^ (8 - 2) from hv)]
    exact ⟨_, 6, v, .inr (.inl ⟨by omega, rfl, hv, rfl⟩), .inl ⟨rfl, rfl, by omega⟩⟩
  · have e := shiftLeft_ofNat (n := v) (k := 4) (by decide) (by omega)
    have e' := shiftRight_ofNat (n := v) (k := 4) (by decide) (by omega)
    simp only [UInt8.reduceOfNat] at e e'
    rw [hi, e, e']
    refine ⟨_, 4, v % 2 ^ (8 - 4), .inr (.inr (.inl ⟨by omega, rfl, by omega, rfl⟩)),
      .inr ⟨_, rfl, rfl, ?_⟩⟩
    rw [or_shift (by decide) (by omega) (by omega), toNat_ofNat (by omega)]
    omega
  · have e := shiftLeft_ofNat (n := v) (k := 6) (by decide) (by omega)
    have e' := shiftRight_ofNat (n := v) (k := 2) (by decide) (by omega)
    simp only [UInt8.reduceOfNat] at e e'
    rw [hi, e, e']
    refine ⟨_, 2, v % 2 ^ (8 - 6), .inr (.inr (.inr ⟨by omega, rfl, by omega, rfl⟩)),
      .inr ⟨_, rfl, rfl, ?_⟩⟩
    rw [or_shift (by decide) (by omega) (by omega), toNat_ofNat (by omega)]
    omega
  · rw [hi]
    refine ⟨_, 0, 0, .inl ⟨by omega, rfl, rfl⟩, .inr ⟨_, rfl, rfl, ?_⟩⟩
    rw [or_shift (by decide) (by omega) (by omega), toNat_ofNat (by omega)]
    omega

/-- At `=` and NUL the loop ends. -/
theorem decodeLoop_stop {c : UInt8} (h : c = 61 ∨ c = 0) (i : Nat) (t : UInt8) (rest : Bytes) :
    decodeLoop i t (c :: rest) = ([], true) := by
  rw [decodeLoop, if_pos h]

/-- At a character outside the alphabet it fails. -/
theorem decodeLoop_bad {c : UInt8} (h : ¬ (c = 61 ∨ c = 0)) (hc : c ∉ base64Code) (i : Nat)
    (t : UInt8) (rest : Bytes) : decodeLoop i t (c :: rest) = ([], false) := by
  rw [decodeLoop, if_neg h, if_pos (chr2Base_eq.mpr hc)]

theorem body_cons_stop {c : UInt8} (h : c = 61 ∨ c = 0) (src : Bytes) : body (c :: src) = [] := by
  rcases h with rfl | rfl <;> rfl

theorem body_cons {c : UInt8} (h : ¬ (c = 61 ∨ c = 0)) (src : Bytes) :
    body (c :: src) = c :: body src := by
  rw [not_or] at h
  exact List.takeWhile_cons_of_pos (by simp [h])

/-- The loop succeeds if the characters before the first `=` or NUL are in the alphabet. -/
theorem decodeLoop_snd (src : Bytes) {i : Nat} {t : UInt8} {w x : Nat} (h : Carry i t w x) :
    (decodeLoop i t src).2 = true ↔ ∀ c ∈ body src, c ∈ base64Code := by
  induction src generalizing i t w x with
  | nil => simp [decodeLoop, body]
  | cons c src ih =>
    by_cases hs : c = 61 ∨ c = 0
    · simp [decodeLoop_stop hs, body_cons_stop hs]
    · rw [body_cons hs, List.forall_mem_cons]
      by_cases hc : c ∈ base64Code
      · obtain ⟨t', w', x', h', ⟨e, -⟩ | ⟨b, e, -⟩⟩ := decodeLoop_cons h hc src
        · rw [e, ih h']
          simp [hc]
        · rw [e]
          simp only [hc, true_and]
          exact ih h'
      · simp [decodeLoop_bad hs hc, hc]

/-- However the loop ends, it writes no more bytes than the carried bits and those of the characters
are enough for. -/
theorem length_decodeLoop_le (src : Bytes) {i : Nat} {t : UInt8} {w x : Nat} (h : Carry i t w x) :
    8 * (decodeLoop i t src).1.length ≤ w + 6 * src.length := by
  induction src generalizing i t w x with
  | nil => simp [decodeLoop]
  | cons c src ih =>
    by_cases hs : c = 61 ∨ c = 0
    · simp [decodeLoop_stop hs]
    · by_cases hc : c ∈ base64Code
      · obtain ⟨t', w', x', h', ⟨e, hw, -⟩ | ⟨b, e, hw, -⟩⟩ := decodeLoop_cons h hc src
        · have := ih h'
          rw [e, List.length_cons]
          omega
        · have := ih h'
          rw [e, List.length_cons, List.length_cons]
          omega
      · simp [decodeLoop_bad hs hc]

theorem sextets_lt {s : Bytes} (h : ∀ c ∈ s, c ∈ base64Code) : ∀ v ∈ sextets s, v < 64 := by
  intro v hv
  obtain ⟨c, hc, rfl⟩ := List.mem_map.mp hv
  exact (codeAt_chr2Base (h c hc)).1

/-- A successful loop writes the bytes of the bit string made of the carried bits and the six-bit
values of the characters. -/
theorem decodeLoop_fst {src : Bytes} {i : Nat} {t : UInt8} {w x : Nat} (h : Carry i t w x)
    (hsrc : ∀ c ∈ body src, c ∈ base64Code) :
    (decodeLoop i t src).1 = octets ((w + 6 * (body src).length) / 8) (w + 6 * (body src).length)
      (x * 64 ^ (body src).length + bigEndian 64 (sextets (body src))) := by
  have hnone : ∀ {w x : Nat}, w < 8 → [] = octets ((w + 6 * 0) / 8) (w + 6 * 0) x := by
    intro w x hw
    rw [show (w + 6 * 0) / 8 = 0 by omega, octets_zero]
  induction src generalizing i t w x with
  | nil => exact hnone h.lt.1
  | cons c src ih =>
    by_cases hs : c = 61 ∨ c = 0
    · rw [decodeLoop_stop hs, body_cons_stop hs]
      exact hnone h.lt.1
    · rw [body_cons hs] at hsrc ⊢
      obtain ⟨hc, hsrc⟩ := List.forall_mem_cons.mp hsrc
      have hlen : (sextets (body src)).length = (body src).length := List.length_map _
      have hlow := bigEndian_lt (by decide) (sextets_lt hsrc)
      rw [hlen] at hlow
      have hvalue : bigEndian 64 (sextets (c :: body src)) =
          (chr2Base c).toNat * 64 ^ (body src).length + bigEndian 64 (sextets (body src)) := by
        rw [sextets, List.map_cons, bigEndian_cons, ← hlen]
        rfl
      rw [List.length_cons, hvalue]
      generalize bigEndian 64 (sextets (body src)) = low at hlow ih ⊢
      generalize (body src).length = n at hlow ih ⊢
      obtain ⟨t', w', x', h', ⟨e, hw, hx⟩ | ⟨b, e, hw, hx⟩⟩ := decodeLoop_cons h hc src
      · rw [e, ih h' hsrc, hw, hx]
        congr 1
        · omega
        · omega
        · ring
      · -- A byte comes out; the rest of the bits are below it.
        have hpow : (2 : Nat) ^ (w' + 6 * n) = 2 ^ w' * 64 ^ n := by
          rw [pow_add, pow_mul]
          rfl
        have hrest : x' * 64 ^ n + low < 2 ^ (w' + 6 * n) := by
          have hx' : x' + 1 ≤ 2 ^ w' := h'.lt.2
          calc x' * 64 ^ n + low < x' * 64 ^ n + 64 ^ n := Nat.add_lt_add_left hlow _
            _ = (x' + 1) * 64 ^ n := by ring
            _ ≤ 2 ^ w' * 64 ^ n := Nat.mul_le_mul_right _ hx'
            _ = 2 ^ (w' + 6 * n) := hpow.symm
        have hval : x * 64 ^ (n + 1) + ((chr2Base c).toNat * 64 ^ n + low) =
            b.toNat * 2 ^ (w' + 6 * n) + (x' * 64 ^ n + low) := by
          calc x * 64 ^ (n + 1) + ((chr2Base c).toNat * 64 ^ n + low)
              = (x * 64 + (chr2Base c).toNat) * 64 ^ n + low := by ring
            _ = (b.toNat * 2 ^ w' + x') * 64 ^ n + low := by rw [hx]
            _ = b.toNat * 2 ^ (w' + 6 * n) + (x' * 64 ^ n + low) := by
              rw [hpow]
              ring
        have hbits : w + 6 * (n + 1) = w' + 6 * n + 8 := by omega
        have hcount : (w' + 6 * n + 8) / 8 = (w' + 6 * n) / 8 + 1 := by omega
        rw [e, hval, hbits, hcount, octets_cons (by omega) b hrest, ih h' hsrc]

/-- `Decode` on any text: it succeeds exactly if the text is not empty and all its characters before
the first `=` or NUL are in the alphabet; the result is then the whole bytes of the concatenation of
their six-bit values; and no text makes it write more bytes than `Base64DecodeLen` allows. -/
theorem decode_any (src dst : Bytes) :
    ((decode src dst).1 = true ↔ src ≠ [] ∧ ∀ c ∈ body src, c ∈ base64Code) ∧
    ((decode src dst).1 = true → (decode src dst).2 =
      octets (6 * (body src).length / 8) (6 * (body src).length)
        (bigEndian 64 (sextets (body src)))) ∧
    (decodeLoop 0 0 src).1.length ≤ base64DecodeLen src.length := by
  have hsnd := decodeLoop_snd src (carry_start 0)
  have hret : (decode src dst).1 = true ↔ src ≠ [] ∧ ∀ c ∈ body src, c ∈ base64Code := by
    rw [← hsnd]
    by_cases he : src = []
    · simp [decode, he]
    · by_cases hr : (decodeLoop 0 0 src).2 = true
      · simp [decode, he, hr]
      · simp [decode, he, hr]
  refine ⟨hret, fun h => ?_, ?_⟩
  · obtain ⟨hne, hall⟩ := hret.mp h
    have hfst := decodeLoop_fst (carry_start 0) hall
    rw [Nat.zero_mul, Nat.zero_add, Nat.zero_add] at hfst
    rw [decode, if_neg hne, if_pos (hsnd.mpr hall), hfst]
  · have := length_decodeLoop_le src (carry_start 0)
    rw [base64DecodeLen]
    omega

/-- `QQ==` stands for one byte. -/
theorem decode_any_sample :
    (decode [81, 81, 61, 61] []).2 = octets 1 12 (bigEndian 64 [16, 16]) :=
  (decode_any [81, 81, 61, 61] []).2.1 (by decide)

/-! ## `Encode`, by indices -/

/-- `base64Code[n]` for the bits of a mask. -/
def codeOf (n : UInt32) : UInt8 := codeAt n.toNat

/-- One turn of the loop of `Encode` at index `i`. Where the index runs past the end nothing is
added; how far it ran decides where a `=` replaces a character. -/
def encodeTurn (src : Bytes) (i : Nat) : Bytes :=
  let c : UInt32 := (src.getD i 0).toUInt32 * 256
  let c := (if i + 1 < src.length then c + (src.getD (i + 1) 0).toUInt32 else c) * 256
  let c := if i + 2 < src.length then c + (src.getD (i + 2) 0).toUInt32 else c
  [codeOf ((c &&& 0x00fc0000) >>> 18), codeOf ((c &&& 0x0003f000) >>> 12),
    if i + 3 > src.length + 1 then 61 else codeOf ((c &&& 0x00000fc0) >>> 6),
    if i + 3 > src.length then 61 else codeOf (c &&& 0x0000003f)]

/-- The loop of `Encode` from index `i` on. -/
def encodeTurns (src : Bytes) : Nat → Nat → Bytes
  | 0, _ => []
  | fuel + 1, i =>
    if i < src.length then encodeTurn src i ++ encodeTurns src fuel (i + 3) else []

/-- `Encode(src, &dst)` as it stands. -/
def encodeBody (src dst : Bytes) : Bool × Bytes :=
  if src.length = 0 then (false, dst) else (true, encodeTurns src src.length 0)

theorem toNat_mask {m k : UInt32} (hk : k.toNat < 32) (hm : m.toNat >>> k.toNat = 2 ^ 6 - 1)
    (c : UInt32) : ((c &&& m) >>> k).toNat = c.toNat / 2 ^ k.toNat % 64 := by
  rw [UInt32.toNat_shiftRight, UInt32.toNat_and, Nat.mod_eq_of_lt hk, Nat.shiftRight_and_distrib, hm,
    Nat.and_two_pow_sub_one_eq_mod, Nat.shiftRight_eq_div_pow]

/-- The four masks pick the six-bit digits of the 24 bits. -/
theorem codeOf_masks (c : UInt32) :
    codeOf ((c &&& 0x00fc0000) >>> 18) = codeAt (c.toNat / 2 ^ 18 % 64) ∧
    codeOf ((c &&& 0x0003f000) >>> 12) = codeAt (c.toNat / 2 ^ 12 % 64) ∧
    codeOf ((c &&& 0x00000fc0) >>> 6) = codeAt (c.toNat / 2 ^ 6 % 64) ∧
    codeOf (c &&& 0x0000003f) = codeAt (c.toNat % 64) := by
  refine ⟨congrArg codeAt (toNat_mask (by decide) (by decide) c),
    congrArg codeAt (toNat_mask (by decide) (by decide) c),
    congrArg codeAt (toNat_mask (by decide) (by decide) c), congrArg codeAt ?_⟩
  rw [UInt32.toNat_and]
  exact Nat.and_two_pow_sub_one_eq_mod c.toNat 6

/-- The 24 bits do not overflow. -/
theorem toNat_group (a b c : UInt8) :
    ((a.toUInt32 * 256 + b.toUInt32) * 256 + c.toUInt32).toNat = group a b c := by
  have ha := a.toNat_lt
  have hb := b.toNat_lt
  have hc := c.toNat_lt
  simp only [UInt32.toNat_add, UInt32.toNat_mul, UInt8.toNat_toUInt32, group]
  show (((a.toNat * 256 % 2 ^ 32 + b.toNat) % 2 ^ 32) * 256 % 2 ^ 32 + c.toNat) % 2 ^ 32 = _
  omega

/-- Adding nothing is adding the byte 0 that stands for a missing one. -/
theorem add_missing (src : Bytes) (j : Nat) (c : UInt32) :
    (if j < src.length then c + (src.getD j 0).toUInt32 else c) = c + (src.getD j 0).toUInt32 := by
  split
  · rfl
  · rename_i hj
    rw [List.getD_eq_getElem?_getD, List.getElem?_eq_none (Nat.not_lt.mp hj)]
    exact (UInt32.add_zero c).symm

/-- The characters of one turn are those of a group, but for the `=`. -/
theorem encodeTurn_eq (src : Bytes) (i : Nat) :
    encodeTurn src i =
      let g := group (src.getD i 0) (src.getD (i + 1) 0) (src.getD (i + 2) 0)
      [codeAt (g / 2 ^ 18 % 64), codeAt (g / 2 ^ 12 % 64),
        if i + 3 > src.length + 1 then 61 else codeAt (g / 2 ^ 6 % 64),
        if i + 3 > src.length then 61 else codeAt (g % 64)] := by
  have hm := codeOf_masks (((src.getD i 0).toUInt32 * 256 + (src.getD (i + 1) 0).toUInt32) * 256 +
    (src.getD (i + 2) 0).toUInt32)
  rw [toNat_group] at hm
  simp only [encodeTurn, add_missing, hm]

/-- The loop by indices is the loop over the groups. -/
theorem encodeTurns_eq (src : Bytes) (fuel i : Nat) (h : src.length ≤ i + fuel) :
    encodeTurns src fuel i = encodeLoop (src.drop i) := by
  have hget : ∀ i j, src.getD (i + j) 0 = (src.drop i).getD j 0 := by
    intro i j
    rw [List.getD_eq_getElem?_getD, List.getD_eq_getElem?_getD, List.getElem?_drop]
  induction fuel generalizing i with
  | zero =>
    rw [List.drop_eq_nil_of_le (by exact h)]
    rfl
  | succ fuel ih =>
    have h0 : src.getD i 0 = _ := hget i 0
    have h1 := hget i 1
    have h2 := hget i 2
    have hlen : (src.drop i).length = src.length - i := List.length_drop
    have hnext : src.drop (i + 3) = (src.drop i).drop 3 := List.drop_drop.symm
    rw [encodeTurns, ih (i + 3) (by omega), hnext, encodeTurn_eq, h0, h1, h2]
    generalize src.drop i = r at hlen
    dsimp only
    match r with
    | [] =>
      rw [List.length_nil] at hlen
      rw [if_neg (by omega)]
      rfl
    | [a] =>
      simp only [List.length_cons, List.length_nil] at hlen
      rw [if_pos (by omega), if_pos (by omega), if_pos (by omega)]
      rfl
    | [a, b] =>
      simp only [List.length_cons, List.length_nil] at hlen
      rw [if_pos (by omega), if_neg (by omega), if_pos (by omega)]
      rfl
    | a :: b :: c :: rest =>
      simp only [List.length_cons] at hlen
      rw [if_pos (by omega), if_neg (by omega), if_neg (by omega)]
      rfl

/-- `Encode` as it stands is `encode`. -/
theorem encodeBody_eq (src dst : Bytes) : encodeBody src dst = encode src dst := by
  rw [encodeBody, encode, encodeTurns_eq src src.length 0 (by omega), List.drop_zero]
  simp only [List.length_eq_zero_iff]

/-! ## The two copies -/

/-- `common/Base64.cpp` and `remainFile/src/Base64.cpp`. -/
inductive Copy where
  | common | remainFile
  deriving DecidableEq

namespace Copy

/-- `common::Base64::Encode` and `REMAIN_MGR::Base64::Encode`: the same text. -/
def encode : Copy → Bytes → Bytes → Bool × Bytes
  | common => encodeBody
  | remainFile => encodeBody

/-- `common::Base64::Decode` and `REMAIN_MGR::Base64::Decode`: the same text. -/
def decode : Copy → Bytes → Bytes → Bool × Bytes
  | common => Base64.decode
  | remainFile => Base64.decode

theorem encode_eq (k : Copy) (src dst : Bytes) : k.encode src dst = Base64.encode src dst := by
  cases k <;> exact encodeBody_eq src dst

theorem decode_eq (k : Copy) (src dst : Bytes) : k.decode src dst = Base64.decode src dst := by
  cases k <;> rfl

end Copy

/-- Encoded text is characters of the alphabet and at most two `=` behind them. -/
theorem encodeLoop_shape (src : Bytes) : ∃ text pad, encodeLoop src = text ++ List.replicate pad 61 ∧
    pad ≤ 2 ∧ ∀ c ∈ text, c ∈ base64Code := by
  have hc : ∀ n, codeAt (n % 64) ∈ base64Code := fun n =>
    (chr2Base_codeAt _ (Nat.mod_lt _ (by decide))).2.2.2
  induction src using encodeLoop.induct with
  | case1 => exact ⟨[], 0, rfl, by decide, by simp⟩
  | case2 a => exact ⟨[_, _], 2, rfl, by decide, by simp [hc]⟩
  | case3 a b => exact ⟨[_, _, _], 1, rfl, by decide, by simp [hc]⟩
  | case4 a b d rest ih =>
    obtain ⟨text, pad, he, hpad, htext⟩ := ih
    refine ⟨_ :: _ :: _ :: _ :: text, pad, by rw [encodeLoop, he]; rfl, hpad, ?_⟩
    simp only [List.forall_mem_cons, hc, true_and]
    exact htext

/-- A nonempty string is encoded, into four characters for each group of three bytes begun, of the
alphabet but for at most two `=` at the end, and decoding gives it back. So it is with both copies,
and whichever one encodes or decodes makes no difference, on any input. -/
theorem base64_roundtrip :
    (∀ (k : Copy) (s d₁ d₂ : Bytes), s ≠ [] →
      (k.encode s d₁).1 = true ∧ (k.encode s d₁).2.length = 4 * ((s.length + 2) / 3) ∧
      (∃ text pad, (k.encode s d₁).2 = text ++ List.replicate pad 61 ∧ pad ≤ 2 ∧
        ∀ c ∈ text, c ∈ base64Code) ∧
      k.decode (k.encode s d₁).2 d₂ = (true, s)) ∧
    ∀ (k k' : Copy) (src dst : Bytes), k.encode src dst = k'.encode src dst ∧
      k.decode src dst = k'.decode src dst := by
  constructor
  · intro k s d₁ d₂ hs
    have henc : Base64.encode s d₁ = (true, encodeLoop s) := if_neg hs
    have hdec := decode_encode hs d₁ d₂
    rw [k.encode_eq, k.decode_eq]
    refine ⟨by rw [henc], ?_, ?_, hdec⟩
    · rw [henc, length_encodeLoop, Nat.mul_comm]
    · rw [henc]
      exact encodeLoop_shape s
  · intro k k' src dst
    rw [k.encode_eq, k'.encode_eq, k.decode_eq, k'.decode_eq]
    exact ⟨rfl, rfl⟩

/-- Two bytes, one of them 255. -/
theorem base64_roundtrip_sample :
    Copy.remainFile.decode (Copy.remainFile.encode [0, 255] []).2 [] = (true, [0, 255]) :=
  (base64_roundtrip.1 .remainFile [0, 255] [] [] (by decide)).2.2.2

end Base64
end CmakeFrame
