import Mathlib.Tactic
import Mathlib.Data.List.TakeWhile

/-!
# Decimal text

The decimal half of C's `printf` and `strtol` families over byte strings.

* `natDec`, `intDec`: what `%d` and `%ld` print.
* `atoi`, `strtoul`: what glibc reads back. Both skip white space, take one optional sign and
  then the longest run of digits; the first byte that is no digit ends the number. `strtoul`
  saturates at `2^64 - 1` and negates modulo `2^64` after a minus sign; `atoi` is `strtol`
  (saturating at the 64-bit bounds) cut to 32 bits.
* `atoi_intDec`, `toInt64_strtoul_intDec`: a printed 32-bit (64-bit) integer is read back whole,
  whatever follows it, as long as that does not start with a digit.
* `atoi_append_cons`: nothing behind a character that belongs to no number is read.
-/

namespace CmakeFrame
namespace Lib

/-- A byte string: a `std::string`, or the bytes behind a `const char*`. -/
abbrev Bytes := List UInt8

/-- The bytes of a `const char*` argument: everything before the first NUL. -/
def cstr (s : Bytes) : Bytes := s.takeWhile (· ≠ 0)

/-- A `char` as a number: it is signed. -/
def schar (c : UInt8) : Int := c.toInt8.toInt

theorem cstr_eq_self {s : Bytes} (h : 0 ∉ s) : cstr s = s := by
  rw [cstr, List.takeWhile_eq_self_iff]
  intro c hc
  simp only [ne_eq, decide_not, Bool.not_eq_eq_eq_not, Bool.not_true, decide_eq_false_iff_not]
  rintro rfl
  exact h hc

theorem zero_notMem_cstr (s : Bytes) : 0 ∉ cstr s := by
  intro h
  have := List.mem_takeWhile_imp h
  simp at this

theorem cstr_append {s t : Bytes} (h : 0 ∉ s) : cstr (s ++ t) = s ++ cstr t := by
  unfold cstr
  apply List.takeWhile_append_of_pos
  intro c hc
  simp only [ne_eq, decide_not, Bool.not_eq_eq_eq_not, Bool.not_true, decide_eq_false_iff_not]
  rintro rfl
  exact h hc

/-- A NUL cuts everything behind it off. -/
theorem cstr_append_of_mem {s : Bytes} (h : 0 ∈ s) (t : Bytes) : cstr (s ++ t) = cstr s := by
  unfold cstr
  rw [List.takeWhile_append, if_neg]
  intro hlen
  have := List.takeWhile_eq_self_iff.mp ((List.takeWhile_prefix _).eq_of_length hlen) 0 h
  simp at this

theorem schar_of_lt {c : UInt8} (h : c.toNat < 128) : schar c = c.toNat := by
  show c.toBitVec.toInt = _
  rw [BitVec.toInt_eq_toNat_of_lt (by show 2 * c.toNat < 256; omega)]
  rfl

theorem schar_of_ge {c : UInt8} (h : 128 ≤ c.toNat) : schar c = (c.toNat : Int) - 256 := by
  show c.toBitVec.toInt = _
  rw [BitVec.toInt_eq_toNat_cond, if_neg (by show ¬ 2 * c.toNat < 256; omega)]
  rfl

/-- A number that is one of a byte, cut to a byte. -/
theorem uint8_ofInt_toNat (c : UInt8) : UInt8.ofInt (c.toNat : Int) = c := by
  have hlt := c.toNat_lt
  have hmod : ((c.toNat : Int) % 2 ^ 8).toNat = c.toNat := by omega
  rw [UInt8.ofInt, hmod, UInt8.ofNat_toNat]

theorem cstr_length_le (s : Bytes) : (cstr s).length ≤ s.length :=
  (List.takeWhile_sublist _).length_le

/-- From a position in the C string on. -/
theorem cstr_drop {s : Bytes} {n : Nat} (h : n ≤ (cstr s).length) :
    cstr (s.drop n) = (cstr s).drop n := by
  have happ : cstr s ++ s.dropWhile (· ≠ 0) = s := List.takeWhile_append_dropWhile
  have hnul : 0 ∉ (cstr s).drop n := fun hmem => zero_notMem_cstr s (List.mem_of_mem_drop hmem)
  have hrest : cstr (s.dropWhile (· ≠ 0)) = [] := by
    rw [cstr, List.takeWhile_eq_nil_iff]
    intro hlen
    have hhead := List.head_dropWhile_not (· ≠ (0 : UInt8)) (List.length_pos_iff.mp hlen)
    rw [List.head_eq_getElem] at hhead
    simpa using hhead
  calc cstr (s.drop n) = cstr ((cstr s ++ s.dropWhile (· ≠ 0)).drop n) := by rw [happ]
    _ = cstr ((cstr s).drop n ++ s.dropWhile (· ≠ 0)) := by rw [List.drop_append_of_le_length h]
    _ = (cstr s).drop n := by rw [cstr_append hnul, hrest, List.append_nil]

/-! ## Printing -/

/-- The character of a decimal digit. -/
def digit (n : Nat) : UInt8 := UInt8.ofNat (48 + n)

def decAux : Nat → Nat → Bytes
  | 0, _ => []
  | f + 1, n => if n < 10 then [digit n] else decAux f (n / 10) ++ [digit (n % 10)]

/-- The decimal digits of `n`, most significant first. -/
def natDec (n : Nat) : Bytes := decAux (n + 1) n

/-- `sprintf("%d")` and `sprintf("%ld")`. -/
def intDec (z : Int) : Bytes := if z < 0 then 45 :: natDec z.natAbs else natDec z.natAbs

def isDigit (c : UInt8) : Bool := 48 ≤ c && c ≤ 57

def digitVal (c : UInt8) : Nat := c.toNat - 48

theorem digit_spec : ∀ n < 10, isDigit (digit n) = true ∧ digitVal (digit n) = n := by decide

theorem isDigit_of_mem_decAux {f n : Nat} {c : UInt8} (h : c ∈ decAux f n) :
    isDigit c = true := by
  induction f generalizing n with
  | zero => simp [decAux] at h
  | succ f ih =>
    unfold decAux at h
    split at h
    · rename_i hn
      rw [List.mem_singleton.mp h]
      exact (digit_spec n hn).1
    · rcases List.mem_append.mp h with h | h
      · exact ih h
      · rw [List.mem_singleton.mp h]
        exact (digit_spec _ (Nat.mod_lt _ (by decide))).1

theorem isDigit_of_mem_natDec {n : Nat} {c : UInt8} (h : c ∈ natDec n) : isDigit c = true :=
  isDigit_of_mem_decAux h

/-- What is no digit is not in a printed number. -/
theorem notMem_natDec {c : UInt8} (h : isDigit c = false) (n : Nat) : c ∉ natDec n := by
  intro hc
  rw [isDigit_of_mem_natDec hc] at h
  cases h

theorem natDec_ne_nil (n : Nat) : natDec n ≠ [] := by
  unfold natDec decAux
  split <;> simp

/-- Printed integers are made of digits and the minus sign. -/
theorem mem_intDec {z : Int} {c : UInt8} (h : c ∈ intDec z) : c = 45 ∨ isDigit c = true := by
  unfold intDec at h
  split at h
  · rcases List.mem_cons.mp h with h | h
    · exact .inl h
    · exact .inr (isDigit_of_mem_natDec h)
  · exact .inr (isDigit_of_mem_natDec h)

/-! ## Reading -/

/-- `isspace` of the C locale. -/
def isSpace (c : UInt8) : Bool := c == 32 || (9 ≤ c && c ≤ 13)

/-- The digits at the front of a text, read onto `acc`. -/
def scanNat (acc : Nat) : Bytes → Nat
  | [] => acc
  | c :: cs => if isDigit c then scanNat (acc * 10 + digitVal c) cs else acc

/-- White space and one sign: is the number negated, and what follows. -/
def scanSign (s : Bytes) : Bool × Bytes :=
  match s.dropWhile isSpace with
  | 45 :: t => (true, t)
  | 43 :: t => (false, t)
  | t => (false, t)

/-- `strtoul(s, NULL, 10)`. -/
def strtoul (s : Bytes) : UInt64 :=
  let v := scanNat 0 (scanSign s).2
  if 2 ^ 64 ≤ v then UInt64.ofNat (2 ^ 64 - 1)
  else if (scanSign s).1 then -UInt64.ofNat v else UInt64.ofNat v

/-- The signed value `strtol` reads, before it saturates. -/
def scanInt (s : Bytes) : Int :=
  if (scanSign s).1 then -(scanNat 0 (scanSign s).2 : Int) else scanNat 0 (scanSign s).2

/-- `atoi(s)`, that is `(int) strtol(s, NULL, 10)`. -/
def atoi (s : Bytes) : Int32 := Int32.ofInt (max (-2 ^ 63) (min (2 ^ 63 - 1) (scanInt s)))

/-- A text that does not start with a digit: a number printed before it ends there. -/
def EndsNumber (s : Bytes) : Prop := ∀ c ∈ s.head?, isDigit c = false

theorem endsNumber_cons {c : UInt8} {s : Bytes} (h : isDigit c = false) : EndsNumber (c :: s) := by
  simpa [EndsNumber] using h

theorem scanNat_endsNumber {s : Bytes} (h : EndsNumber s) (a : Nat) : scanNat a s = a := by
  cases s with
  | nil => rfl
  | cons c cs => simp [scanNat, h c rfl]

/-- Digits shift the value read before them. -/
theorem scanNat_decAux {f n : Nat} (hn : n < f) (a : Nat) (s : Bytes) :
    scanNat a (decAux f n ++ s) = scanNat (a * 10 ^ (decAux f n).length + n) s := by
  induction f generalizing n s with
  | zero => omega
  | succ f ih =>
    unfold decAux
    split
    · rename_i hlt
      obtain ⟨hd, hv⟩ := digit_spec n hlt
      simp [scanNat, hd, hv]
    · obtain ⟨hd, hv⟩ := digit_spec (n % 10) (Nat.mod_lt _ (by decide))
      rw [List.append_assoc, ih (by omega)]
      simp only [List.singleton_append, scanNat, hd, hv, if_true, List.length_append,
        List.length_cons, List.length_nil, pow_succ]
      congr 1
      have := Nat.div_add_mod n 10
      ring_nf
      omega

theorem scanNat_natDec (n : Nat) {s : Bytes} (h : EndsNumber s) : scanNat 0 (natDec n ++ s) = n := by
  rw [natDec, scanNat_decAux (Nat.lt_succ_self n), scanNat_endsNumber h]
  simp

theorem isDigit_not_space_sign {c : UInt8} (h : isDigit c = true) :
    isSpace c = false ∧ c ≠ 45 ∧ c ≠ 43 := by
  simp only [isDigit, Bool.and_eq_true, decide_eq_true_eq, UInt8.le_iff_toNat_le] at h
  simp only [isSpace, Bool.or_eq_false_iff, Bool.and_eq_false_iff, beq_eq_false_iff_ne, ne_eq,
    decide_eq_false_iff_not, UInt8.le_iff_toNat_le, ← UInt8.toNat_inj] at *
  simp only [UInt8.reduceToNat] at *
  omega

/-- A digit starts the number at once: no white space and no sign. -/
theorem scanSign_digit {c : UInt8} {s : Bytes} (h : isDigit c = true) :
    scanSign (c :: s) = (false, c :: s) := by
  obtain ⟨hs, h1, h2⟩ := isDigit_not_space_sign h
  unfold scanSign
  rw [List.dropWhile_cons_of_neg (by simp [hs])]
  split
  · rename_i heq; cases heq; exact absurd rfl h1
  · rename_i heq; cases heq; exact absurd rfl h2
  · rfl

theorem scanSign_natDec (n : Nat) (s : Bytes) : scanSign (natDec n ++ s) = (false, natDec n ++ s) := by
  obtain ⟨c, cs, hc⟩ := List.exists_cons_of_ne_nil (natDec_ne_nil n)
  rw [hc, List.cons_append]
  exact scanSign_digit (isDigit_of_mem_natDec (n := n) (by rw [hc]; simp))

theorem scanSign_intDec (z : Int) (s : Bytes) :
    scanSign (intDec z ++ s) = (decide (z < 0), natDec z.natAbs ++ s) := by
  unfold intDec
  split
  · rename_i h
    simp [scanSign, isSpace, h]
  · rename_i h
    rw [scanSign_natDec]
    simp [h]

/-- The value of a printed integer. -/
theorem scanInt_intDec (z : Int) {s : Bytes} (h : EndsNumber s) : scanInt (intDec z ++ s) = z := by
  simp only [scanInt, scanSign_intDec, scanNat_natDec _ h, decide_eq_true_eq]
  split <;> omega

/-- An `int` printed with `%d` is read back by `atoi`. -/
theorem atoi_intDec (x : Int32) {s : Bytes} (h : EndsNumber s) : atoi (intDec x.toInt ++ s) = x := by
  have h1 := x.le_toInt
  have h2 := x.toInt_lt
  rw [atoi, scanInt_intDec _ h, min_eq_right (by omega), max_eq_right (by omega)]
  exact Int32.ofInt_toInt x

/-- An `int64_t` printed with `%ld` is read back by `strtoul`, the sign through the negation
modulo `2^64`. -/
theorem toInt64_strtoul_intDec (x : Int64) {s : Bytes} (h : EndsNumber s) :
    (strtoul (intDec x.toInt ++ s)).toInt64 = x := by
  have h1 := x.le_toInt
  have h2 := x.toInt_lt
  simp only [strtoul, scanSign_intDec, scanNat_natDec _ h, decide_eq_true_eq]
  rw [if_neg (by omega)]
  have hu : ∀ n : Nat, (UInt64.ofNat n).toInt64 = Int64.ofNat n := fun _ => rfl
  split
  · rename_i hneg
    have hx : x.toInt = -(x.toInt.natAbs : Int) := by omega
    rw [UInt64.toInt64_neg, hu, ← Int64.toInt_inj, Int64.toInt_neg_ofNat_of_le (by omega), ← hx]
  · rw [hu, ← Int64.toInt_inj, Int64.toInt_ofNat_of_lt (by omega)]
    omega

/-! ## What stands behind a number -/

section

variable {c : UInt8}

theorem scanNat_append_cons (hc : isDigit c = false) (p r : Bytes) (a : Nat) :
    scanNat a (p ++ c :: r) = scanNat a p := by
  induction p generalizing a with
  | nil => simp [scanNat, hc]
  | cons b p ih =>
    rw [List.cons_append, scanNat, scanNat]
    split
    · exact ih _
    · rfl

theorem scanSign_append_cons (hsp : isSpace c = false) (hminus : c ≠ 45) (hplus : c ≠ 43)
    (p r : Bytes) :
    scanSign (p ++ c :: r) = ((scanSign p).1, (scanSign p).2 ++ c :: r) := by
  unfold scanSign
  rw [List.dropWhile_append]
  cases hp : p.dropWhile isSpace with
  | nil =>
    rw [if_pos List.isEmpty_nil, List.dropWhile_cons_of_neg (by simp [hsp])]
    split
    · rename_i t heq
      exact absurd (List.cons.inj heq).1 hminus
    · rename_i t heq
      exact absurd (List.cons.inj heq).1 hplus
    · rfl
  | cons b t =>
    rw [if_neg (by simp), List.cons_append]
    by_cases hb : b = 45
    · subst hb
      rfl
    · by_cases hb' : b = 43
      · subst hb'
        rfl
      · split
        · rename_i t' heq
          exact absurd (List.cons.inj heq).1 hb
        · rename_i t' heq
          exact absurd (List.cons.inj heq).1 hb'
        · split
          · rename_i t' heq
            exact absurd (List.cons.inj heq).1 hb
          · rename_i t' heq
            exact absurd (List.cons.inj heq).1 hb'
          · rfl

/-- A number ends at any character that does not belong to one. -/
theorem atoi_append_cons (hc : isDigit c = false) (hsp : isSpace c = false) (hminus : c ≠ 45)
    (hplus : c ≠ 43) (p r : Bytes) : atoi (p ++ c :: r) = atoi p := by
  unfold atoi scanInt
  rw [scanSign_append_cons hsp hminus hplus, scanNat_append_cons hc]

end

end Lib
end CmakeFrame
