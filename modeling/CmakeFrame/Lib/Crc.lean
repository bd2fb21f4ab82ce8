import Mathlib.Data.Nat.Notation

/-!
# Cyclic redundancy checks, most significant bit first

`crcByte poly` takes one byte into the remainder the way the definition of a CRC says it: the
byte is added to the top of the remainder, and eight times the remainder moves up one place, with
the polynomial added whenever a one falls out.

* `crcStep_xor`/`crcSteps_xor`: every step is linear in exclusive or.
* `crcSteps_shiftLeft`: as long as only zeros fall out, the steps are a plain shift.
* `crcByte_table`: so one look into a table of 256 remainders does the work of eight steps.
* `crc_table`: and a loop over such looks computes the CRC of a text.
-/

namespace CmakeFrame
namespace Lib

variable {w : Nat}

/-- One place up; the polynomial is added when the bit that falls out is a one. -/
def crcStep (poly crc : BitVec w) : BitVec w :=
  if crc.msb then (crc <<< 1) ^^^ poly else crc <<< 1

def crcSteps (poly : BitVec w) : Nat → BitVec w → BitVec w
  | 0, crc => crc
  | n + 1, crc => crcStep poly (crcSteps poly n crc)

/-- The byte at the top of a remainder. -/
def topByte (b : BitVec 8) : BitVec w := b.setWidth w <<< (w - 8)

def crcByte (poly crc : BitVec w) (b : BitVec 8) : BitVec w :=
  crcSteps poly 8 (crc ^^^ topByte b)

/-- The CRC of a text, bit by bit, from the remainder 0. -/
def crcBitwise (poly : BitVec w) (text : List (BitVec 8)) : BitVec w :=
  text.foldl (crcByte poly) 0#w

theorem crcStep_xor (poly x y : BitVec w) :
    crcStep poly (x ^^^ y) = crcStep poly x ^^^ crcStep poly y := by
  unfold crcStep
  rw [BitVec.msb_xor, BitVec.shiftLeft_xor_distrib]
  -- the polynomial added on both sides cancels
  have hcancel : ∀ a b : BitVec w, a ^^^ poly ^^^ (b ^^^ poly) = a ^^^ b := by
    intro a b
    rw [BitVec.xor_assoc, BitVec.xor_comm poly, BitVec.xor_assoc b, BitVec.xor_self,
      BitVec.xor_zero]
  cases x.msb <;> cases y.msb
  · simp
  · simp [BitVec.xor_assoc]
  · simp only [Bool.true_xor, Bool.not_false, ↓reduceIte, Bool.false_eq_true]
    rw [BitVec.xor_assoc, BitVec.xor_comm (y <<< 1), BitVec.xor_assoc]
  · simp [hcancel]

theorem crcSteps_xor (poly : BitVec w) (n : Nat) (x y : BitVec w) :
    crcSteps poly n (x ^^^ y) = crcSteps poly n x ^^^ crcSteps poly n y := by
  induction n with
  | zero => rfl
  | succ n ih => rw [crcSteps, ih, crcStep_xor]; rfl

/-- Only zeros fall out: the steps move the remainder up. -/
theorem crcSteps_shiftLeft (poly : BitVec w) {n : Nat} {y : BitVec w}
    (h : ∀ k < n, y.getMsbD k = false) : crcSteps poly n y = y <<< n := by
  induction n with
  | zero => simp [crcSteps]
  | succ n ih =>
    have hn : crcSteps poly n y = y <<< n := by
      apply ih
      intro k hk
      exact h k (by omega)
    have hmsb : (y <<< n).msb = false := by
      rw [BitVec.msb_shiftLeft]
      exact h n (by omega)
    rw [crcSteps, hn, crcStep, hmsb]
    simp [BitVec.shiftLeft_add]

/-- The entry that a remainder and the next byte select. -/
def crcIndex (crc : BitVec w) (b : BitVec 8) : BitVec 8 := (crc >>> (w - 8)).setWidth 8 ^^^ b

/-- A remainder without its top byte. -/
def lowPart (crc : BitVec w) : BitVec w := (crc <<< 8) >>> 8

theorem lowPart_shiftLeft (crc : BitVec w) : lowPart crc <<< 8 = crc <<< 8 := by
  apply BitVec.eq_of_getLsbD_eq
  intro i hi
  simp only [lowPart, BitVec.getLsbD_shiftLeft, BitVec.getLsbD_ushiftRight]
  by_cases h8 : i < 8
  · simp [h8]
  · have hback : 8 + (i - 8) = i := by omega
    simp [h8, hi, hback]

theorem getMsbD_lowPart (crc : BitVec w) {k : Nat} (hk : k < 8) : (lowPart crc).getMsbD k = false := by
  simp [lowPart, hk]

/-- The byte that comes in meets the top byte of the remainder only. -/
theorem xor_topByte (hw : 8 ≤ w) (crc : BitVec w) (b : BitVec 8) :
    crc ^^^ topByte b = lowPart crc ^^^ topByte (crcIndex crc b) := by
  apply BitVec.eq_of_getLsbD_eq
  intro i hi
  simp only [topByte, lowPart, crcIndex, BitVec.getLsbD_xor, BitVec.getLsbD_shiftLeft,
    BitVec.getLsbD_ushiftRight, BitVec.getLsbD_setWidth]
  by_cases hlow : i < w - 8
  · have h8 : 8 + i < w := by omega
    simp [hlow, hi, h8]
  · have h8 : ¬ 8 + i < w := by omega
    have hb : i - (w - 8) < 8 := by omega
    have hback : w - 8 + (i - (w - 8)) = i := by omega
    have hsub : i - (w - 8) < w := by omega
    simp [hlow, hi, h8, hb, hback, hsub]

/-- Eight steps are one look into the table of the remainders of the 256 bytes. -/
theorem crcByte_table (poly : BitVec w) (hw : 8 ≤ w) (crc : BitVec w) (b : BitVec 8) :
    crcByte poly crc b = (crc <<< 8) ^^^ crcByte poly 0#w (crcIndex crc b) := by
  unfold crcByte
  rw [xor_topByte hw, crcSteps_xor, BitVec.zero_xor]
  congr 1
  rw [crcSteps_shiftLeft poly (fun k hk => getMsbD_lowPart crc hk), lowPart_shiftLeft]

/-- A loop that shifts by a byte and adds an entry of the table computes the CRC of the text. -/
theorem crc_table (poly : BitVec w) (hw : 8 ≤ w) (table : BitVec 8 → BitVec w)
    (htable : ∀ i, table i = crcByte poly 0#w i) (text : List (BitVec 8)) :
    text.foldl (fun (crc : BitVec w) b => (crc <<< 8) ^^^ table (crcIndex crc b)) 0#w = crcBitwise poly text := by
  unfold crcBitwise
  congr 1
  funext crc b
  rw [htable, ← crcByte_table poly hw]

end Lib
end CmakeFrame
