import CmakeFrame.Lib.Decimal

/-!
# `StringUtility.cpp`: the hex codec

`common/StringUtility.cpp`.

* `ascii2Dec`, `dec2Ascii`: the macros of one digit.
* `hex2Bin`, `bin2Hex`: `StringUtility::Hex2Bin` and `Bin2Hex`, with pointers that are not null.
* `hex2BinLoop_append`: the loop takes the digits of a byte string back; `hex2BinLoop_true`: what it
  accepts, and what is left of it in upper case.
* `hex_codec`: both directions.
-/

namespace CmakeFrame
namespace StringUtility

open Lib

/-! ## The functions -/

/-- `ASCII2DEC(c)`; `none` is the return. -/
def ascii2Dec (c : UInt8) : Option UInt8 :=
  if 48 ≤ c ∧ c ≤ 57 then some (c - 48)
  else if 65 ≤ c ∧ c ≤ 70 then some (c - (65 - 10))
  else if 97 ≤ c ∧ c ≤ 102 then some (c - (97 - 10))
  else none

/-- The loop of `Hex2Bin`, two characters a turn: what it returns, and `binStr`. -/
def hex2BinLoop : Bytes → Bytes → Bool × Bytes
  | [], binStr => (true, binStr)
  | [_], binStr => (false, binStr)
  | c₀ :: c₁ :: hexStr, binStr =>
    match ascii2Dec c₀, ascii2Dec c₁ with
    | some high, some low => hex2BinLoop hexStr (binStr ++ [(high <<< 4) + low])
    | _, _ => (false, binStr)

/-- `Hex2Bin(hexStr, binStr)`. -/
def hex2Bin (hexStr : Bytes) : Bool × Bytes := hex2BinLoop (cstr hexStr) []

/-- `DEC2ASCII(c)`. -/
def dec2Ascii (c : UInt8) : UInt8 := if c ≤ 9 then c + 48 else c + (65 - 10)

/-- `Bin2Hex(binStr, binLen, hexStr)`. -/
def bin2Hex (binStr : Bytes) : Bytes :=
  binStr.flatMap fun b : UInt8 => [dec2Ascii (b >>> 4), dec2Ascii (b &&& 0xF)]

/-! ## Digits -/

/-- `0`…`9`, `A`…`F`, `a`…`f`. -/
def IsHex (c : UInt8) : Prop := (48 ≤ c ∧ c ≤ 57) ∨ (65 ≤ c ∧ c ≤ 70) ∨ (97 ≤ c ∧ c ≤ 102)

instance (c : UInt8) : Decidable (IsHex c) := by
  unfold IsHex
  infer_instance

/-- An ASCII letter in upper case. -/
def upper (c : UInt8) : UInt8 := if 97 ≤ c ∧ c ≤ 122 then c - 32 else c

/-- What holds of the first 256 numbers holds of every byte. -/
theorem forall_byte {P : UInt8 → Prop} (h : ∀ n < 256, P (UInt8.ofNat n)) (c : UInt8) : P c := by
  have := h c.toNat c.toNat_lt
  rwa [UInt8.ofNat_toNat] at this

theorem ascii2Dec_isSome (c : UInt8) : (ascii2Dec c).isSome = true ↔ IsHex c := by
  unfold ascii2Dec IsHex
  split_ifs with h1 h2 h3 <;> simp [*]

/-- What a digit is read as is written as the digit in upper case. -/
theorem dec2Ascii_of_ascii2Dec (c : UInt8) :
    ∀ d ∈ ascii2Dec c, d.toNat < 16 ∧ dec2Ascii d = upper c := by
  have hall : (ascii2Dec c).all (fun d => d.toNat < 16 ∧ dec2Ascii d = upper c) = true :=
    forall_byte (P := fun c => (ascii2Dec c).all (fun d => d.toNat < 16 ∧ dec2Ascii d = upper c))
      (by decide +kernel) c
  intro d hd
  rw [Option.mem_def.mp hd, Option.all_some] at hall
  exact of_decide_eq_true hall

theorem ascii2Dec_ofNat :
    ∀ n < 16, ascii2Dec (dec2Ascii (UInt8.ofNat n)) = some (UInt8.ofNat n) := by
  decide

/-- A number below 16 is read back. -/
theorem ascii2Dec_dec2Ascii {d : UInt8} (h : d.toNat < 16) :
    ascii2Dec (dec2Ascii d) = some d := by
  have := ascii2Dec_ofNat d.toNat h
  rwa [UInt8.ofNat_toNat] at this

/-! ## The halves of a byte -/

theorem toNat_high (b : UInt8) : (b >>> 4).toNat = b.toNat / 16 := by
  rw [UInt8.toNat_shiftRight]
  exact Nat.shiftRight_eq_div_pow _ 4

theorem toNat_low (b : UInt8) : (b &&& 0xF).toNat = b.toNat % 16 := by
  rw [UInt8.toNat_and]
  exact Nat.and_two_pow_sub_one_eq_mod _ 4

theorem toNat_pair {high low : UInt8} (hh : high.toNat < 16) (hl : low.toNat < 16) :
    ((high <<< 4) + low).toNat = high.toNat * 16 + low.toNat := by
  have hshift : (high <<< 4).toNat = high.toNat * 16 % 256 := by
    rw [UInt8.toNat_shiftLeft]
    exact congrArg (· % 256) (Nat.shiftLeft_eq _ 4)
  rw [UInt8.toNat_add, hshift]
  omega

theorem ascii2Dec_high (b : UInt8) : ascii2Dec (dec2Ascii (b >>> 4)) = some (b >>> 4) := by
  apply ascii2Dec_dec2Ascii
  have := b.toNat_lt
  rw [toNat_high]
  omega

theorem ascii2Dec_low (b : UInt8) : ascii2Dec (dec2Ascii (b &&& 0xF)) = some (b &&& 0xF) := by
  apply ascii2Dec_dec2Ascii
  rw [toNat_low]
  omega

/-- A byte is made of its halves. -/
theorem halves (b : UInt8) : ((b >>> 4) <<< 4) + (b &&& 0xF) = b := by
  have := b.toNat_lt
  have hhigh := toNat_high b
  have hlow := toNat_low b
  apply UInt8.toNat_inj.mp
  rw [toNat_pair (by omega) (by omega)]
  omega

/-- The halves of a byte that was made of two digits. -/
theorem high_low {high low : UInt8} (hh : high.toNat < 16) (hl : low.toNat < 16) :
    ((high <<< 4) + low) >>> 4 = high ∧ ((high <<< 4) + low) &&& 0xF = low := by
  have hpair := toNat_pair hh hl
  constructor
  · apply UInt8.toNat_inj.mp
    rw [toNat_high]
    omega
  · apply UInt8.toNat_inj.mp
    rw [toNat_low]
    omega

/-- Two digits that were read are written in upper case. -/
theorem bin2Hex_pair {c₀ c₁ high low : UInt8} (h₀ : ascii2Dec c₀ = some high)
    (h₁ : ascii2Dec c₁ = some low) :
    bin2Hex [(high <<< 4) + low] = [upper c₀, upper c₁] := by
  obtain ⟨hlt, hup⟩ := dec2Ascii_of_ascii2Dec c₀ high h₀
  obtain ⟨hlt', hup'⟩ := dec2Ascii_of_ascii2Dec c₁ low h₁
  obtain ⟨hhigh, hlow⟩ := high_low hlt hlt'
  show [dec2Ascii _, dec2Ascii _] = _
  rw [hhigh, hlow, hup, hup']

/-! ## Both directions -/

theorem bin2Hex_append (b b' : Bytes) : bin2Hex (b ++ b') = bin2Hex b ++ bin2Hex b' :=
  List.flatMap_append

/-- No digit is a NUL. -/
theorem zero_notMem_bin2Hex (b : Bytes) : 0 ∉ bin2Hex b := by
  intro h
  obtain ⟨c, -, hc⟩ := List.mem_flatMap.mp h
  have hne : ∀ d, ascii2Dec (dec2Ascii d) = some d → dec2Ascii d ≠ 0 := by
    intro d hd h0
    rw [h0] at hd
    cases hd
  rcases List.mem_cons.mp hc with hc | hc
  · exact hne _ (ascii2Dec_high c) hc.symm
  · exact hne _ (ascii2Dec_low c) (List.mem_singleton.mp hc).symm

/-- The loop takes the digits of `b` back. -/
theorem hex2BinLoop_bin2Hex (b bin : Bytes) : hex2BinLoop (bin2Hex b) bin = (true, bin ++ b) := by
  induction b generalizing bin with
  | nil => rw [List.append_nil]; rfl
  | cons c b ih =>
    have hcons : bin2Hex (c :: b) = dec2Ascii (c >>> 4) :: dec2Ascii (c &&& 0xF) :: bin2Hex b := rfl
    rw [hcons, hex2BinLoop, ascii2Dec_high, ascii2Dec_low]
    simp only [halves, ih, List.append_assoc, List.singleton_append]

/-- The loop accepts pairs of digits, and leaves them as bytes. -/
theorem hex2BinLoop_true (h bin : Bytes) :
    ((hex2BinLoop h bin).1 = true ↔ Even h.length ∧ ∀ c ∈ h, IsHex c) ∧
      ((hex2BinLoop h bin).1 = true →
        bin2Hex (hex2BinLoop h bin).2 = bin2Hex bin ++ h.map upper) := by
  induction h, bin using hex2BinLoop.induct with
  | case1 bin => simp [hex2BinLoop]
  | case2 c bin => simp [hex2BinLoop]
  | case3 c₀ c₁ h bin high low h₁ h₀ ih =>
    have hhex₀ : IsHex c₀ := (ascii2Dec_isSome c₀).mp (by rw [h₀]; rfl)
    have hhex₁ : IsHex c₁ := (ascii2Dec_isSome c₁).mp (by rw [h₁]; rfl)
    have hloop : hex2BinLoop (c₀ :: c₁ :: h) bin = hex2BinLoop h (bin ++ [(high <<< 4) + low]) := by
      rw [hex2BinLoop, h₀, h₁]
    have heven : Even (c₀ :: c₁ :: h).length ↔ Even h.length := by
      rw [List.length_cons, List.length_cons, Nat.add_assoc, Nat.even_add]
      simp
    rw [hloop, heven, List.forall_mem_cons, List.forall_mem_cons]
    refine ⟨by simp [ih.1, hhex₀, hhex₁], fun htrue => ?_⟩
    rw [ih.2 htrue, bin2Hex_append, bin2Hex_pair h₀ h₁]
    simp
  | case4 c₀ c₁ h bin hno =>
    have hloop : hex2BinLoop (c₀ :: c₁ :: h) bin = (false, bin) := by
      rw [hex2BinLoop]
      split
      · rename_i high low h₀ h₁
        exact absurd h₁ (hno high low h₀)
      · rfl
    have hhex : ¬ (IsHex c₀ ∧ IsHex c₁) := by
      rintro ⟨h₀, h₁⟩
      obtain ⟨high, h₀⟩ := Option.isSome_iff_exists.mp ((ascii2Dec_isSome c₀).mpr h₀)
      obtain ⟨low, h₁⟩ := Option.isSome_iff_exists.mp ((ascii2Dec_isSome c₁).mpr h₁)
      exact hno high low h₀ h₁
    rw [hloop]
    refine ⟨iff_of_false Bool.false_ne_true ?_, fun htrue => absurd htrue Bool.false_ne_true⟩
    rintro ⟨-, hall⟩
    exact hhex ⟨hall c₀ (by simp), hall c₁ (by simp)⟩

/-- Digits that were written are read back, and a string is read exactly if it is pairs of digits,
which are written again in upper case. -/
theorem hex_codec :
    (∀ b : Bytes, hex2Bin (bin2Hex b) = (true, b)) ∧
    ∀ h : Bytes, ((hex2Bin h).1 = true ↔ Even (cstr h).length ∧ ∀ c ∈ cstr h, IsHex c) ∧
      ((hex2Bin h).1 = true → bin2Hex (hex2Bin h).2 = (cstr h).map upper) := by
  constructor
  · intro b
    rw [hex2Bin, cstr_eq_self (zero_notMem_bin2Hex b), hex2BinLoop_bin2Hex, List.nil_append]
  · intro h
    exact hex2BinLoop_true (cstr h) []

/-- `4aF` has an odd length; `4a6F` is `J` and `o`. -/
theorem hex_codec_sample :
    (hex2Bin [52, 97, 70]).1 = false ∧
      bin2Hex (hex2Bin [52, 97, 54, 70]).2 = [52, 65, 54, 70] := by
  obtain ⟨hodd, -⟩ := hex_codec.2 [52, 97, 70]
  obtain ⟨hiff, hup⟩ := hex_codec.2 [52, 97, 54, 70]
  refine ⟨?_, ?_⟩
  · rw [← Bool.not_eq_true, hodd]
    decide
  · rw [hup (hiff.mpr (by decide +kernel))]
    decide

end StringUtility
end CmakeFrame
