import CmakeFrame.Lib.Decimal

/-!
# `StringUtility.cpp`: the URL codec

`common/StringUtility.cpp`.

* `encodeChars`, `hex2Dec`: the tables `ENCODECHARS` and `HEX2DEC`.
* `urlEncode`, `urlDecode`: `StringUtility::UrlEncode` and `UrlDecode`. An entry of `ENCODECHARS` is
  looked up at four times the `char`, which is signed; `none` is a look outside of the table.
* `urlDecode_code`: the decoder takes the text of one character back, as long as it stands in front
  of the last two characters of the whole text; these it copies as they are.
* `url_roundtrip_iff`: exactly when a string survives.
-/

namespace CmakeFrame
namespace StringUtility

open Lib

/-! ## The tables -/

/-- `'0'`…`'9'`, `'A'`…`'F'`. -/
def hexDigit (n : Nat) : UInt8 := UInt8.ofNat (if n < 10 then 48 + n else 55 + n)

/-- The characters that stand for themselves: digits, letters, `-`, `.`, `_` and `~`. -/
def Unreserved (n : Nat) : Prop :=
  (48 ≤ n ∧ n ≤ 57) ∨ (65 ≤ n ∧ n ≤ 90) ∨ (97 ≤ n ∧ n ≤ 122) ∨ n = 45 ∨ n = 46 ∨ n = 95 ∨ n = 126

instance (n : Nat) : Decidable (Unreserved n) := by
  unfold Unreserved
  infer_instance

/-- The four bytes of a character in `ENCODECHARS`: how many of the next ones are its text, then `%`
or the character that stands for it, and its number in hexadecimal. -/
def encodeEntry (n : Nat) : Bytes :=
  (if Unreserved n then [1, UInt8.ofNat n] else if n = 32 then [1, 43] else [3, 37]) ++
    [hexDigit (n / 16), hexDigit (n % 16)]

/-- `ENCODECHARS`. -/
def encodeChars : Bytes := (List.range 256).flatMap encodeEntry

/-- `HEX2DEC[c]`. -/
def hex2Dec (c : UInt8) : Int :=
  if 48 ≤ c ∧ c ≤ 57 then c.toNat - 48
  else if 65 ≤ c ∧ c ≤ 70 then c.toNat - 55
  else if 97 ≤ c ∧ c ≤ 102 then c.toNat - 87
  else -1

/-! ## The functions -/

/-- `static_cast<unsigned short>(c * 4)` for a `char`. -/
def offset (c : UInt8) : Nat := (UInt16.ofInt (schar c * 4)).toNat

/-- `dstStr->append(ENCODECHARS + offset + 1, ENCODECHARS[offset])`: the bytes appended. -/
def urlChar (c : UInt8) : Option Bytes := do
  let n ← encodeChars[offset c]?
  if offset c + 1 + n.toNat ≤ encodeChars.length then
    some ((encodeChars.drop (offset c + 1)).take n.toNat)
  else none

/-- `UrlEncode(srcStr, dstStr)`. -/
def urlEncode : Bytes → Option Bytes
  | [] => some []
  | c :: srcStr => do
    let cs ← urlChar c
    let rest ← urlEncode srcStr
    some (cs ++ rest)

/-- `UrlDecode(srcStr, dstStr)`. The first loop runs while `srcBegin < srcEnd - 2`, that is with three
characters left; the second one copies what remains. -/
def urlDecode : Bytes → Bytes
  | a :: b :: c :: rest =>
    if a = 37 ∧ hex2Dec b ≠ -1 ∧ hex2Dec c ≠ -1 then
      UInt8.ofInt (hex2Dec b * 16 + hex2Dec c) :: urlDecode rest
    else if a = 43 then 32 :: urlDecode (b :: c :: rest)
    else a :: urlDecode (b :: c :: rest)
  | srcStr => srcStr

/-! ## What the encoder writes -/

/-- Pieces of one length are found at its multiples. -/
theorem drop_flatMap {α β : Type} {k : Nat} {f : α → List β} (hf : ∀ x, (f x).length = k)
    (l : List α) (n : Nat) : (l.flatMap f).drop (k * n) = (l.drop n).flatMap f := by
  induction n generalizing l with
  | zero => rfl
  | succ n ih =>
    cases l with
    | nil => simp
    | cons x l =>
      rw [List.drop_succ_cons, ← ih, List.flatMap_cons, Nat.mul_succ, Nat.add_comm, ← List.drop_drop,
        List.drop_left' (hf x)]

theorem length_encodeEntry (n : Nat) : (encodeEntry n).length = 4 := by
  unfold encodeEntry
  split
  · rfl
  · split <;> rfl

theorem length_encodeChars : encodeChars.length = 1024 := by
  rw [encodeChars, List.length_flatMap, List.map_congr_left fun n _ => length_encodeEntry n,
    List.map_const', List.length_range, List.sum_replicate]
  rfl

/-- The entry of a character. -/
theorem drop_encodeChars {n : Nat} (h : n < 256) :
    ∃ rest, encodeChars.drop (4 * n) = encodeEntry n ++ rest := by
  rw [encodeChars, drop_flatMap length_encodeEntry]
  have hd : (List.range 256).drop n = n :: (List.range 256).drop (n + 1) := by
    rw [List.drop_eq_getElem_cons (by simpa using h), List.getElem_range]
  exact ⟨_, by rw [hd, List.flatMap_cons]⟩

/-- The text for one character. -/
def code (c : UInt8) : Bytes :=
  if Unreserved c.toNat then [c]
  else if c = 32 then [43]
  else [37, hexDigit (c.toNat / 16), hexDigit (c.toNat % 16)]

/-- What `code` can be: the character itself, `+` for a space, or an escape. -/
theorem code_cases (c : UInt8) :
    (Unreserved c.toNat ∧ c ≠ 37 ∧ c ≠ 43 ∧ c ≠ 32 ∧ code c = [c]) ∨
    (c = 32 ∧ ¬ Unreserved c.toNat ∧ code c = [43]) ∨
    (¬ Unreserved c.toNat ∧ c ≠ 32 ∧
      code c = [37, hexDigit (c.toNat / 16), hexDigit (c.toNat % 16)]) := by
  by_cases hu : Unreserved c.toNat
  · have hne : ∀ b : UInt8, ¬ Unreserved b.toNat → c ≠ b := by
      rintro b hb rfl
      exact hb hu
    refine .inl ⟨hu, hne 37 (by decide), hne 43 (by decide), hne 32 (by decide), ?_⟩
    rw [code, if_pos hu]
  · by_cases hs : c = 32
    · exact .inr (.inl ⟨hs, hu, by rw [code, if_neg hu, if_pos hs]⟩)
    · exact .inr (.inr ⟨hu, hs, by rw [code, if_neg hu, if_neg hs]⟩)

/-- A character below 128 is written as its text. -/
theorem urlChar_of_lt {c : UInt8} (h : c.toNat < 128) : urlChar c = some (code c) := by
  have hoff : offset c = 4 * c.toNat := by
    rw [offset, schar_of_lt h, UInt16.ofInt, UInt16.toNat_ofNat']
    omega
  obtain ⟨rest, hdrop⟩ := drop_encodeChars (n := c.toNat) (by omega)
  have hget : encodeChars[offset c]? = (encodeEntry c.toNat ++ rest)[0]? := by
    rw [hoff, ← hdrop, List.getElem?_drop, Nat.add_zero]
  have htl : encodeChars.drop (offset c + 1) = (encodeEntry c.toNat ++ rest).drop 1 := by
    rw [hoff, ← List.drop_drop, hdrop]
  have hof : UInt8.ofNat c.toNat = c := UInt8.ofNat_toNat
  rw [urlChar, hget, htl, hoff, length_encodeChars]
  rcases code_cases c with ⟨hu, -, -, -, hc⟩ | ⟨hs, hu, hc⟩ | ⟨hu, hs, hc⟩
  · have he : encodeEntry c.toNat = [1, c, hexDigit (c.toNat / 16), hexDigit (c.toNat % 16)] := by
      rw [encodeEntry, if_pos hu, hof]
      rfl
    rw [he, hc]
    show (if 4 * c.toNat + 1 + 1 ≤ 1024 then _ else _) = _
    rw [if_pos (by omega)]
    rfl
  · have he : encodeEntry c.toNat = [1, 43, hexDigit (c.toNat / 16), hexDigit (c.toNat % 16)] := by
      rw [encodeEntry, if_neg hu, if_pos (by rw [hs]; rfl)]
      rfl
    rw [he, hc]
    show (if 4 * c.toNat + 1 + 1 ≤ 1024 then _ else _) = _
    rw [if_pos (by omega)]
    rfl
  · have he : encodeEntry c.toNat = [3, 37, hexDigit (c.toNat / 16), hexDigit (c.toNat % 16)] := by
      have h32 : c.toNat ≠ 32 := fun h => hs (UInt8.toNat_inj.mp h)
      rw [encodeEntry, if_neg hu, if_neg h32]
      rfl
    rw [he, hc]
    show (if 4 * c.toNat + 1 + 3 ≤ 1024 then _ else _) = _
    rw [if_pos (by omega)]
    rfl

/-- The sign of any other one leads out of the table. -/
theorem urlChar_of_ge {c : UInt8} (h : 128 ≤ c.toNat) : urlChar c = none := by
  have hlt := c.toNat_lt
  have hoff : 1024 ≤ offset c := by
    rw [offset, schar_of_ge h, UInt16.ofInt, UInt16.toNat_ofNat']
    omega
  rw [urlChar, List.getElem?_eq_none (by rw [length_encodeChars]; exact hoff)]
  rfl

/-- What is written, if no entry outside of the table is looked up. -/
theorem urlEncode_eq_some {s e : Bytes} :
    urlEncode s = some e ↔ (∀ c ∈ s, c.toNat < 128) ∧ e = s.flatMap code := by
  induction s generalizing e with
  | nil => simp [urlEncode, eq_comm]
  | cons c s ih =>
    rw [urlEncode]
    by_cases hc : c.toNat < 128
    · rw [urlChar_of_lt hc]
      cases hs : urlEncode s with
      | none =>
        simp only [hs, reduceCtorEq, false_iff, not_and] at ih
        constructor
        · intro h
          cases h
        · rintro ⟨hall, rfl⟩
          exact absurd rfl (ih fun b hb => hall b (by simp [hb]))
      | some e' =>
        obtain ⟨hall, rfl⟩ := ih.mp hs
        constructor
        · intro h
          cases h
          exact ⟨List.forall_mem_cons.mpr ⟨hc, hall⟩, rfl⟩
        · rintro ⟨-, rfl⟩
          rfl
    · rw [urlChar_of_ge (Nat.not_lt.mp hc)]
      constructor
      · intro h
        cases h
      · rintro ⟨hall, -⟩
        exact absurd (hall c (by simp)) hc

/-! ## The decoder on it -/

theorem hex2Dec_hexDigit : ∀ n < 16, hex2Dec (hexDigit n) = n := by decide

/-- An escape is taken back wherever it stands. -/
theorem urlDecode_escape (c : UInt8) (r : Bytes) :
    urlDecode (37 :: hexDigit (c.toNat / 16) :: hexDigit (c.toNat % 16) :: r) =
      c :: urlDecode r := by
  have hlt := c.toNat_lt
  have h1 := hex2Dec_hexDigit (c.toNat / 16) (by omega)
  have h2 := hex2Dec_hexDigit (c.toNat % 16) (by omega)
  have hval : ((c.toNat / 16 : Nat) : Int) * 16 + (c.toNat % 16 : Nat) = c.toNat := by omega
  rw [urlDecode, h1, h2, if_pos ⟨rfl, by omega, by omega⟩, hval, uint8_ofInt_toNat]

/-- The text of a character is taken back if at least two characters follow. -/
theorem urlDecode_code (c : UInt8) {r : Bytes} (hr : 2 ≤ r.length) :
    urlDecode (code c ++ r) = c :: urlDecode r := by
  obtain ⟨x, y, r, rfl⟩ : ∃ x y r', r = x :: y :: r' := by
    match r, hr with
    | x :: y :: r, _ => exact ⟨x, y, r, rfl⟩
  rcases code_cases c with ⟨-, h37, h43, -, hc⟩ | ⟨hs, -, hc⟩ | ⟨-, -, hc⟩
  · rw [hc, List.singleton_append, urlDecode, if_neg (fun h => h37 h.1), if_neg h43]
  · rw [hc, hs, List.singleton_append, urlDecode, if_neg (fun h => absurd h.1 (by decide)),
      if_pos rfl]
  · rw [hc]
    exact urlDecode_escape c _

/-- So is that of a string. -/
theorem urlDecode_flatMap (t : Bytes) {r : Bytes} (hr : 2 ≤ r.length) :
    urlDecode (t.flatMap code ++ r) = t ++ urlDecode r := by
  induction t with
  | nil => rfl
  | cons c t ih =>
    rw [List.flatMap_cons, List.append_assoc, urlDecode_code, ih, List.cons_append]
    rw [List.length_append]
    omega

/-- The last two characters: a space is lost where its `+` is one of the last two of the text. -/
theorem urlDecode_pair (x y : UInt8) :
    urlDecode (code x ++ code y) = [x, y] ↔ y ≠ 32 ∧ ¬ (x = 32 ∧ Unreserved y.toNat) := by
  rcases code_cases y with ⟨hu, -, -, h32, hy⟩ | ⟨rfl, hu, hy⟩ | ⟨hu, hs, hy⟩
  · rcases code_cases x with ⟨-, -, -, hx32, hx⟩ | ⟨rfl, -, hx⟩ | ⟨-, hx32, hx⟩
    · simp [hx, hy, urlDecode, h32, hx32]
    · simp [hx, hy, urlDecode, h32, hu]
    · rw [hx, hy]
      simp only [List.cons_append, List.nil_append, urlDecode_escape]
      simp [urlDecode, h32, hx32]
  · rcases code_cases x with ⟨-, -, -, -, hx⟩ | ⟨rfl, -, hx⟩ | ⟨-, -, hx⟩
    · simp [hx, hy, urlDecode]
    · simp [hx, urlDecode]
    · rw [hx, hy]
      simp only [List.cons_append, List.nil_append, urlDecode_escape]
      simp [urlDecode]
  · rw [urlDecode_code x (by rw [hy]; simp), hy, urlDecode_escape]
    simp [urlDecode, hu, hs]

/-- No space whose `+` is one of the last two characters of the text. -/
def NoLateSpace (s : Bytes) : Prop :=
  ∀ t, s ≠ t ++ [32] ∧ ∀ c : UInt8, Unreserved c.toNat → s ≠ t ++ [32, c]

theorem noLateSpace_singleton (y : UInt8) : NoLateSpace [y] ↔ y ≠ 32 := by
  constructor
  · rintro h rfl
    exact (h []).1 rfl
  · intro hy t
    refine ⟨fun h => ?_, fun c _ h => ?_⟩
    · have h' : [] ++ [y] = t ++ [32] := h
      exact hy (List.singleton_inj.mp (List.append_inj_right' h' rfl))
    · have := congrArg List.length h
      simp at this

theorem noLateSpace_pair (t : Bytes) (x y : UInt8) :
    NoLateSpace (t ++ [x, y]) ↔ y ≠ 32 ∧ ¬ (x = 32 ∧ Unreserved y.toNat) := by
  constructor
  · intro h
    refine ⟨?_, ?_⟩
    · rintro rfl
      exact (h (t ++ [x])).1 (by simp)
    · rintro ⟨rfl, hy⟩
      exact (h t).2 y hy rfl
  · rintro ⟨hy, hxy⟩ t'
    refine ⟨fun h => ?_, fun c hc h => ?_⟩
    · have hs : t ++ [x] ++ [y] = t' ++ [32] := by simpa using h
      exact hy (List.singleton_inj.mp (List.append_inj_right' hs rfl))
    · have := List.append_inj_right' h rfl
      obtain ⟨rfl, h2⟩ := List.cons_eq_cons.mp this
      exact hxy ⟨rfl, List.singleton_inj.mp h2 ▸ hc⟩

/-- The text of a single character. -/
theorem urlDecode_singleton (y : UInt8) : urlDecode (code y) = [y] ↔ y ≠ 32 := by
  rcases code_cases y with ⟨-, -, -, hs, hy⟩ | ⟨rfl, -, hy⟩ | ⟨-, hs, hy⟩
  · simp [hy, urlDecode, hs]
  · simp [hy, urlDecode]
  · rw [hy, urlDecode_escape]
    simp [urlDecode, hs]

/-- A string is written without a look outside of the table, and read back. -/
def RoundTrip (s : Bytes) : Prop := ∃ e, urlEncode s = some e ∧ urlDecode e = s

theorem roundTrip_iff_decode (s : Bytes) :
    RoundTrip s ↔ (∀ c ∈ s, c.toNat < 128) ∧ urlDecode (s.flatMap code) = s := by
  constructor
  · rintro ⟨e, he, hd⟩
    obtain ⟨hall, rfl⟩ := urlEncode_eq_some.mp he
    exact ⟨hall, hd⟩
  · rintro ⟨hall, hd⟩
    exact ⟨_, urlEncode_eq_some.mpr ⟨hall, rfl⟩, hd⟩

theorem one_le_length_code (c : UInt8) : 1 ≤ (code c).length := by
  rcases code_cases c with ⟨-, -, -, -, h⟩ | ⟨-, -, h⟩ | ⟨-, -, h⟩ <;> simp [h]

/-- A string survives exactly if all its characters are below 128, it does not end with a space, and
no space stands in front of a last character that is written as itself. -/
theorem url_roundtrip_iff (s : Bytes) :
    RoundTrip s ↔ (∀ c ∈ s, c.toNat < 128) ∧ NoLateSpace s := by
  rw [roundTrip_iff_decode]
  refine and_congr_right fun _ => ?_
  -- Nothing but the last two characters can be lost.
  rcases List.eq_nil_or_concat' s with rfl | ⟨s, y, rfl⟩
  · simp [urlDecode, NoLateSpace]
  · rcases List.eq_nil_or_concat' s with rfl | ⟨t, x, rfl⟩
    · rw [List.nil_append, noLateSpace_singleton, List.flatMap_singleton, urlDecode_singleton]
    · have hr : 2 ≤ (code x ++ code y).length := by
        have := one_le_length_code x
        have := one_le_length_code y
        rw [List.length_append]
        omega
      have hs : t ++ [x] ++ [y] = t ++ [x, y] := by simp
      have hflat : (t ++ [x, y]).flatMap code = t.flatMap code ++ (code x ++ code y) := by simp
      rw [hs, noLateSpace_pair, hflat, urlDecode_flatMap t hr, List.append_right_inj,
        urlDecode_pair]

/-- A byte from 128 on, a space at the end, and one before the last letter. -/
theorem url_roundtrip_fails :
    urlEncode [200] = none ∧ ¬ RoundTrip [65, 32] ∧ ¬ RoundTrip [65, 32, 66] := by
  refine ⟨by decide +kernel, fun h => ?_, fun h => ?_⟩
  · exact absurd ((roundTrip_iff_decode _).mp h).2 (by decide)
  · exact absurd ((roundTrip_iff_decode _).mp h).2 (by decide)

end StringUtility
end CmakeFrame
