import CmakeFrame.Lib.Fields
import Mathlib.Algebra.Group.Nat.Defs

/-!
# `remainFile/src/Incommon.h`: the string searches and the message id

The inline helpers work on C strings; here their argument is the text before the NUL (`cstr`),
and a returned pointer is its offset.

* `strFristConstChar`: the first position of a character.
* `strFirstConstStr`: the search loop for a text. It jumps from one occurrence of the first
  character to the next and compares there. `strFirstConstStr_eq`: it is the first occurrence
  (`findSub`).
* `TranMsgIdI64ToChar`, `TranMsgIdCharToI64`: an `int64_t` and its eight bytes; each undoes the other.
-/

namespace CmakeFrame
namespace Remain

open Lib

/-- `strFristConstChar(str, c)`. -/
def strFristConstChar (str : Bytes) (c : UInt8) : Option Nat := findByte c str

/-- The `do … while(1)` loop of `strFirstConstStr`, with `p` at offset `off` of the string. Each
turn moves `p` forward, so `fuel = strlen + 1` turns are enough. -/
def strFirstConstStrLoop (tar : Bytes) : Nat → Bytes → Nat → Option Nat
  | 0, _, _ => none
  | fuel + 1, p, off =>
    match strFristConstChar p (tar.headD 0) with
    | none => none
    | some k =>
      if tar.length > (p.drop k).length then none
      else if tar.isPrefixOf (p.drop k) then some (off + k)
      else strFirstConstStrLoop tar fuel (p.drop (k + 1)) (off + k + 1)

/-- `strFirstConstStr(str, tar)`. -/
def strFirstConstStr (str tar : Bytes) : Option Nat :=
  if tar.length > str.length then none else strFirstConstStrLoop tar (str.length + 1) str 0

/-- No occurrence starts before the first occurrence of its first character. -/
theorem findSub_skip {c : UInt8} {tar f : Bytes} (hf : c ∉ f) (r : Bytes) :
    findSub (c :: tar) (f ++ r) = (findSub (c :: tar) r).map (· + f.length) := by
  induction f with
  | nil => simp
  | cons a f ih =>
    simp only [List.mem_cons, not_or] at hf
    have hp : (c :: tar).isPrefixOf (a :: (f ++ r)) = false := by
      simp [List.isPrefixOf, hf.1]
    simp only [List.cons_append, findSub, hp, ih hf.2]
    simp [Function.comp_def, Nat.add_assoc]

theorem findSub_none_of_short {tar s : Bytes} (h : s.length < tar.length) : findSub tar s = none := by
  cases hs : findSub tar s with
  | none => rfl
  | some i =>
    have := (findSub_eq_some hs).2.length_le
    simp at this
    omega

/-- The loop finds the first occurrence from `p` on. -/
theorem strFirstConstStrLoop_eq (c : UInt8) (tar : Bytes) (fuel : Nat) (p : Bytes) (off : Nat)
    (h : p.length < fuel) :
    strFirstConstStrLoop (c :: tar) fuel p off = (findSub (c :: tar) p).map (off + ·) := by
  induction fuel generalizing p off with
  | zero => omega
  | succ fuel ih =>
    unfold strFirstConstStrLoop strFristConstChar
    simp only [List.headD_cons]
    cases hk : findByte c p with
    | none =>
      have hn : findSub (c :: tar) (p ++ []) = none := by
        rw [findSub_skip (findByte_eq_none.mp hk)]
        simp [findSub]
      rw [List.append_nil] at hn
      simp [hn]
    | some k =>
      obtain ⟨hp, hn⟩ := findByte_eq_some hk
      have hlen : (p.take k).length = k := by
        have := congrArg List.length hp
        simp only [List.length_append, List.length_take, List.length_cons, List.length_drop] at this ⊢
        omega
      have hd : p.drop k = c :: p.drop (k + 1) := by
        conv => lhs; rw [hp]
        rw [List.drop_left' hlen]
      -- `p` is cut at its first `c`: nothing before it, then an occurrence there or a later one.
      have hf : findSub (c :: tar) p = (findSub (c :: tar) (p.drop k)).map (· + k) := by
        conv => lhs; rw [← List.take_append_drop k p]
        rw [findSub_skip hn, hlen]
      simp only
      rw [hf]
      split
      · rename_i hs
        rw [findSub_none_of_short (by simpa using hs)]
        rfl
      · split
        · rename_i hpre
          rw [hd] at hpre ⊢
          simp [findSub, hpre]
        · rename_i hpre
          have hlt : (p.drop (k + 1)).length < fuel := by
            have := congrArg List.length hd
            simp only [List.length_drop, List.length_cons] at this ⊢
            omega
          rw [ih _ _ hlt, hd]
          rw [hd] at hpre
          simp only [findSub, hpre]
          cases findSub (c :: tar) (p.drop (k + 1)) with
          | none => rfl
          | some j => simp; omega

/-- `strFirstConstStr` returns the first occurrence. -/
theorem strFirstConstStr_eq {tar : Bytes} (h : tar ≠ []) (str : Bytes) :
    strFirstConstStr str tar = findSub tar str := by
  obtain ⟨c, t, rfl⟩ := List.exists_cons_of_ne_nil h
  unfold strFirstConstStr
  split
  · rename_i hs
    exact (findSub_none_of_short hs).symm
  · rw [strFirstConstStrLoop_eq c t _ _ _ (Nat.lt_succ_self _)]
    simp

theorem strFirstConstStr_crlf (str : Bytes) : strFirstConstStr str crlf = findSub crlf str :=
  strFirstConstStr_eq (by decide) str

/-! ## The message id -/

/-- `(unsigned char)((j >> k) & 0xff)`. -/
def shiftByte (j k : Int64) : UInt8 := ((j >>> k) &&& 0xff).toUInt64.toUInt8

/-- The eight bytes of `IMsgId`, the highest first. -/
def TranMsgIdI64ToChar (IMsgId : Int64) : Vector UInt8 8 :=
  #v[shiftByte IMsgId 56, shiftByte IMsgId 48, shiftByte IMsgId 40, shiftByte IMsgId 32,
    shiftByte IMsgId 24, shiftByte IMsgId 16, shiftByte IMsgId 8, (IMsgId &&& 0xff).toUInt64.toUInt8]

/-- `(int64_t)*p`. -/
def int64 (c : UInt8) : Int64 := c.toUInt64.toInt64

/-- `szMsgId` is no null pointer. -/
def TranMsgIdCharToI64 (szMsgId : Vector UInt8 8) : Int64 :=
  int64 szMsgId[0] <<< 56 + int64 szMsgId[1] <<< 48 + int64 szMsgId[2] <<< 40 +
    int64 szMsgId[3] <<< 32 + int64 szMsgId[4] <<< 24 + int64 szMsgId[5] <<< 16 +
    int64 szMsgId[6] <<< 8 + int64 szMsgId[7]

theorem toNat_shiftByte (j : Int64) {k : Int64} {n : Nat} (hk : (k.toBitVec.smod 64).toNat = n)
    (hn : n ≤ 56) : (shiftByte j k).toNat = j.toBitVec.toNat / 2 ^ n % 256 := by
  have hff (i : Nat) (hi : i < 8) : (255 : BitVec 64).getLsbD i = true := by
    rw [show (255 : BitVec 64) = BitVec.ofNat 64 (2 ^ 8 - 1) from rfl, BitVec.getLsbD_ofNat,
      Nat.testBit_two_pow_sub_one]
    simp only [Bool.and_eq_true, decide_eq_true_eq]
    omega
  have hbits : (shiftByte j k).toBitVec = j.toBitVec.extractLsb' n 8 := by
    have heq : (shiftByte j k).toBitVec = (j.toBitVec.sshiftRight n &&& 255).setWidth 8 := by
      rw [← hk]
      rfl
    rw [heq]
    ext i hi
    rw [BitVec.getElem_setWidth, BitVec.getLsbD_and, BitVec.getLsbD_sshiftRight, hff i hi,
      BitVec.getElem_extractLsb', if_pos (by omega)]
    simp only [Bool.and_true, Bool.and_eq_right_iff_imp, Bool.not_eq_true', decide_eq_false_iff_not]
    omega
  have := congrArg BitVec.toNat hbits
  rw [BitVec.extractLsb'_toNat, Nat.shiftRight_eq_div_pow] at this
  exact this

theorem toNat_and_ff (j : Int64) : (j &&& 0xff).toUInt64.toUInt8.toNat = j.toBitVec.toNat % 256 := by
  have h := toNat_shiftByte j (k := 0) (n := 0) rfl (by omega)
  have h0 : j >>> (0 : Int64) = j := by simp
  rw [shiftByte, h0, Nat.pow_zero, Nat.div_one] at h
  exact h

theorem toNat_int64_shift (c : UInt8) {k : Int64} {n : Nat} (hk : (k.toBitVec.smod 64).toNat = n)
    (hn : n ≤ 56) : (int64 c <<< k).toBitVec.toNat = c.toNat * 2 ^ n := by
  subst hk
  have hpow : 2 ^ (k.toBitVec.smod 64).toNat ≤ 2 ^ 56 := Nat.pow_le_pow_right (by omega) hn
  have hlt : c.toNat * 2 ^ (k.toBitVec.smod 64).toNat < 2 ^ 64 :=
    Nat.mul_lt_mul_of_lt_of_le (c := 2 ^ 8) c.toNat_lt hpow (Nat.two_pow_pos _)
  simpa [int64, Nat.shiftLeft_eq] using hlt

theorem toNat_TranMsgIdCharToI64 (p : Vector UInt8 8) : (TranMsgIdCharToI64 p).toBitVec.toNat =
    p[0].toNat * 2 ^ 56 + p[1].toNat * 2 ^ 48 + p[2].toNat * 2 ^ 40 + p[3].toNat * 2 ^ 32 +
      p[4].toNat * 2 ^ 24 + p[5].toNat * 2 ^ 16 + p[6].toNat * 2 ^ 8 + p[7].toNat := by
  have h0 := toNat_int64_shift p[0] (k := 56) (n := 56) rfl (by omega)
  have h1 := toNat_int64_shift p[1] (k := 48) (n := 48) rfl (by omega)
  have h2 := toNat_int64_shift p[2] (k := 40) (n := 40) rfl (by omega)
  have h3 := toNat_int64_shift p[3] (k := 32) (n := 32) rfl (by omega)
  have h4 := toNat_int64_shift p[4] (k := 24) (n := 24) rfl (by omega)
  have h5 := toNat_int64_shift p[5] (k := 16) (n := 16) rfl (by omega)
  have h6 := toNat_int64_shift p[6] (k := 8) (n := 8) rfl (by omega)
  have h7 : (int64 p[7]).toBitVec.toNat = p[7].toNat := by simp [int64]
  have hb0 := p[0].toNat_lt
  have hb1 := p[1].toNat_lt
  have hb2 := p[2].toNat_lt
  have hb3 := p[3].toNat_lt
  have hb4 := p[4].toNat_lt
  have hb5 := p[5].toNat_lt
  have hb6 := p[6].toNat_lt
  have hb7 := p[7].toNat_lt
  simp only [TranMsgIdCharToI64, Int64.toBitVec_add, BitVec.toNat_add, h0, h1, h2, h3, h4, h5, h6, h7]
  omega

theorem TranMsgIdI64ToChar_CharToI64 (p : Vector UInt8 8) :
    TranMsgIdI64ToChar (TranMsgIdCharToI64 p) = p := by
  have hsum := toNat_TranMsgIdCharToI64 p
  have hb0 := p[0].toNat_lt
  have hb1 := p[1].toNat_lt
  have hb2 := p[2].toNat_lt
  have hb3 := p[3].toNat_lt
  have hb4 := p[4].toNat_lt
  have hb5 := p[5].toNat_lt
  have hb6 := p[6].toNat_lt
  have hb7 := p[7].toNat_lt
  have hbyte {k : Int64} {n : Nat} (hk : (k.toBitVec.smod 64).toNat = n) (hn : n ≤ 56) {c : UInt8}
      (h : (TranMsgIdCharToI64 p).toBitVec.toNat / 2 ^ n % 256 = c.toNat) :
      shiftByte (TranMsgIdCharToI64 p) k = c :=
    UInt8.toNat_inj.mp ((toNat_shiftByte _ hk hn).trans h)
  ext i hi
  obtain rfl | rfl | rfl | rfl | rfl | rfl | rfl | rfl :
      i = 0 ∨ i = 1 ∨ i = 2 ∨ i = 3 ∨ i = 4 ∨ i = 5 ∨ i = 6 ∨ i = 7 := by omega
  · exact congrArg UInt8.toNat (hbyte (n := 56) rfl (by omega) (by omega))
  · exact congrArg UInt8.toNat (hbyte (n := 48) rfl (by omega) (by omega))
  · exact congrArg UInt8.toNat (hbyte (n := 40) rfl (by omega) (by omega))
  · exact congrArg UInt8.toNat (hbyte (n := 32) rfl (by omega) (by omega))
  · exact congrArg UInt8.toNat (hbyte (n := 24) rfl (by omega) (by omega))
  · exact congrArg UInt8.toNat (hbyte (n := 16) rfl (by omega) (by omega))
  · exact congrArg UInt8.toNat (hbyte (n := 8) rfl (by omega) (by omega))
  · exact (toNat_and_ff _).trans (by omega)

end Remain
end CmakeFrame
