import CmakeFrame.Common.UriCodec

/-!
# `UriCodec.h`: a uri and a phone number in one text

`uriPhoneEncode` puts a phone number behind a uri: a digit is moved on in `crc64tab` by the index of
a character of the uri, another character becomes `@` and two characters of the table.
`uriPhoneDecode` takes the two apart again.

* `uriPhoneEncode`, `uriPhoneDecode`: the functions. `none` and `Outcome.readPast`, `.outOfBuff` are
  accesses outside of an array or a string. `char` is signed.
* `Token`: what the phone number is written as, one for each character.
* `decodeLoop_tokens`: the decoder goes through the tokens; the loop bound, lowered by two for each
  escape, stays where the text ends.
* `uriPhone_roundtrip`: what was encoded is decoded.
* `refuses_iff`: exactly when the decoder does what its callers need on a text of at most 74
  characters: 0 for a well-formed one, a negative result for every other one.
-/

namespace CmakeFrame
namespace UriCodec

open Lib

/-- `ADD_SIGN_ASCII_CODE`, the `@`. -/
def addSign : UInt8 := 64

/-- `crc64tab[i]`; `none` is a read outside of the table. -/
def tabAt (i : Int) : Option UInt8 := if 0 ≤ i then crc64tab[i.toNat]? else none

/-! ## `uriPhoneEncode` -/

/-- One turn of the loop: the characters for `*qChar`. `pp` is the start of `buff`, where the uri
is. -/
def encodeChar (pp : Bytes) (i : Nat) (q : UInt8) : Option Bytes :=
  if schar q < 48 ∨ schar q > 57 then do
    let x ← tabAt ((schar q).tdiv 64)
    let y ← tabAt ((schar q).tmod 64)
    some [addSign, x, y]
  else do
    let c ← tabAt ((crcIndex (pp.getD (i % crcUristrLen) 0) + (schar q - 48)).tmod 64)
    some [c]

/-- The loop from `i` on. -/
def encodeChars (pp : Bytes) : Nat → Bytes → Option Bytes
  | _, [] => some []
  | i, q :: phoneNum => do
    let cs ← encodeChar pp i q
    let rest ← encodeChars pp (i + 1) phoneNum
    some (cs ++ rest)

/-- `uriPhoneEncode(u, phoneNum)`. `memcpy` takes eleven bytes of `u.c_str()`; `buff` has 128 bytes
and must keep a NUL for `strlen`. -/
def uriPhoneEncode (u phoneNum : Bytes) : Option Bytes :=
  let pp := (u ++ [0]).take crcUristrLen
  if pp.length < crcUristrLen then none
  else do
    let cs ← encodeChars pp 0 phoneNum
    if (pp ++ cs).length < 128 then some (cstr (pp ++ cs)) else none

/-! ## `uriPhoneDecode` -/

/-- How a call of `uriPhoneDecode` ends. -/
inductive Outcome where
  /-- It returns `r`; an argument that was not assigned is `none`. -/
  | ret (r : Int) (u phoneNum : Option Bytes)
  /-- It reads behind the NUL that ends `encondeStr`. -/
  | readPast
  /-- It writes behind the end of `buff`, or looks for a NUL there. -/
  | outOfBuff
  deriving DecidableEq

/-- `phoneNum.assign(buff, strlen(buff))` and `return 0`. -/
def decodeEnd (encondeStr buff : Bytes) : Outcome :=
  if buff.length < 128 ∨ 0 ∈ buff then
    .ret 0 (some (encondeStr.take crcUristrLen)) (some (cstr buff))
  else .outOfBuff

/-- The loop, with `pChar` in front of the given text, which includes the NUL, and `qChar` at offset
`q` of `encondeStr`; `buff` is what was written to the buffer. `numLen` is a `size_t`. -/
def decodeChars (encondeStr : Bytes) : Bytes → Nat → UInt64 → Nat → Bytes → Outcome
  | [], i, numLen, _, buff =>
    if i < numLen.toNat then .readPast else decodeEnd encondeStr buff
  | c :: rest, i, numLen, q, buff =>
    if i < numLen.toNat then
      let q := if i % crcUristrLen = 0 then 0 else q
      if c = addSign then
        match rest with
        | x :: y :: rest =>
          let index := crcIndex x
          let sub := crcIndex y
          if index < 0 ∨ sub < 0 then .ret index (some (encondeStr.take crcUristrLen)) none
          else if 128 ≤ buff.length then .outOfBuff
          else
            decodeChars encondeStr rest (i + 1) (numLen - 2) (q + 1)
              (buff ++ [UInt8.ofInt (index * 64 + sub)])
        | _ => .readPast
      else
        match (encondeStr ++ [0])[q]? with
        | none => .readPast
        | some k =>
          let index := crcIndex c
          let sub := crcIndex k
          if index < 0 ∨ sub < 0 then .ret index (some (encondeStr.take crcUristrLen)) none
          else if 128 ≤ buff.length then .outOfBuff
          else
            decodeChars encondeStr rest (i + 1) numLen (q + 1)
              (buff ++
                [UInt8.ofInt (if index ≥ sub then index - sub + 48 else index - sub + 64 + 48)])
    else decodeEnd encondeStr buff

/-- `uriPhoneDecode(encondeStr, u, phoneNum)`. -/
def uriPhoneDecode (encondeStr : Bytes) : Outcome :=
  if encondeStr.length < crcUristrLen then .ret (-1) none none
  else
    decodeChars encondeStr ((encondeStr ++ [0]).drop crcUristrLen) 0
      (UInt64.ofNat encondeStr.length - 11) 0 []

/-! ## Tokens -/

/-- One character of the phone number, as the text holds it: a character of the table, or `@` and
two of them. -/
inductive Token where
  | plain (c : UInt8)
  | esc (x y : UInt8)
  deriving DecidableEq

namespace Token

def text : Token → Bytes
  | plain c => [c]
  | esc x y => [addSign, x, y]

/-- Its characters are in the table. -/
def Valid : Token → Prop
  | plain c => c ∈ crc64tab
  | esc x y => x ∈ crc64tab ∧ y ∈ crc64tab

/-- The decoder can read it with the key character `k`. -/
def Fits (k : UInt8) : Token → Prop
  | plain c => c ∈ crc64tab ∧ k ∈ crc64tab
  | esc x y => x ∈ crc64tab ∧ y ∈ crc64tab

/-- What the decoder makes of it. -/
def value (k : UInt8) : Token → UInt8
  | plain c => UInt8.ofInt (if (tabIndex c : Int) ≥ tabIndex k then (tabIndex c : Int) - tabIndex k + 48
      else (tabIndex c : Int) - tabIndex k + 64 + 48)
  | esc x y => UInt8.ofInt ((tabIndex x : Int) * 64 + tabIndex y)

end Token

/-- The characters of the tokens. -/
def texts (ts : List Token) : Bytes := ts.flatMap Token.text

theorem texts_cons (t : Token) (ts : List Token) : texts (t :: ts) = t.text ++ texts ts := rfl

/-- The key character for the token number `i`. -/
def keyAt (u : Bytes) (i : Nat) : UInt8 := u.getD (i % crcUristrLen) 0

/-- The tokens from number `i` on can be read with the uri `u`. -/
def FitsAll (u : Bytes) : Nat → List Token → Prop
  | _, [] => True
  | i, t :: ts => t.Fits (keyAt u i) ∧ FitsAll u (i + 1) ts

/-- What the decoder makes of the tokens from number `i` on. -/
def values (u : Bytes) : Nat → List Token → Bytes
  | _, [] => []
  | i, t :: ts => t.value (keyAt u i) :: values u (i + 1) ts

/-! ## The decoder on tokens -/

/-- The loop stands in front of the text `b`, at token number `i`: the bound is where the text ends,
and `qChar` is at the key character or about to be set back. -/
structure At (b : Bytes) (i : Nat) (numLen : UInt64) (q : Nat) : Prop where
  bound : numLen.toNat = i + b.length
  key : i % crcUristrLen = 0 ∨ q = i % crcUristrLen

/-- The next turn keeps `qChar` in step. -/
theorem At.key_succ {b : Bytes} {i q : Nat} {numLen : UInt64} (h : At b i numLen q) :
    (i + 1) % crcUristrLen = 0 ∨
      (if i % crcUristrLen = 0 then 0 else q) + 1 = (i + 1) % crcUristrLen := by
  have hq := h.key
  by_cases h0 : i % crcUristrLen = 0
  · rw [if_pos h0]
    simp only [crcUristrLen] at *
    omega
  · rw [if_neg h0]
    simp only [crcUristrLen] at *
    omega

section Tokens

variable {s u : Bytes} (hlen : crcUristrLen ≤ s.length) (hu : s.take crcUristrLen = u)

include hlen hu

/-- `*qChar` is the key character. -/
theorem getElem?_key {b : Bytes} {i q : Nat} {numLen : UInt64} (h : At b i numLen q) :
    (s ++ [0])[if i % crcUristrLen = 0 then 0 else q]? = some (keyAt u i) := by
  have hq : (if i % crcUristrLen = 0 then 0 else q) = i % crcUristrLen := by
    have := h.key
    split <;> omega
  have hi : i % crcUristrLen < crcUristrLen := Nat.mod_lt _ (by decide)
  rw [hq, keyAt, ← hu, List.getElem?_append_left (by omega), List.getElem?_eq_getElem (by omega),
    List.getD_eq_getElem?_getD, List.getElem?_take_of_lt hi, List.getElem?_eq_getElem (by omega)]
  rfl

/-- One token. -/
theorem decodeChars_token {t : Token} {i q : Nat} {numLen : UInt64} {b : Bytes} (buff : Bytes)
    (ht : t.Fits (keyAt u i)) (h : At (t.text ++ b) i numLen q) (hbuff : buff.length < 128) :
    ∃ numLen' q', At b (i + 1) numLen' q' ∧
      decodeChars s (t.text ++ (b ++ [0])) i numLen q buff =
        decodeChars s (b ++ [0]) (i + 1) numLen' q' (buff ++ [t.value (keyAt u i)]) := by
  have hbound := h.bound
  have hkey := h.key_succ
  cases t with
  | plain c =>
    obtain ⟨hc, hk⟩ := ht
    have hne : c ≠ addSign := by
      rintro rfl
      exact absurd hc (by decide)
    have hcd := (crcIndex_tab c hc).1
    have hkd := (crcIndex_tab _ hk).1
    refine ⟨numLen, _, ⟨?_, hkey⟩, ?_⟩
    · simp only [Token.text, List.length_append, List.length_cons, List.length_nil] at hbound
      omega
    · have hlt : i < numLen.toNat := by
        rw [hbound]
        simp [Token.text]
      simp only [Token.text, List.singleton_append, decodeChars, hlt, if_true, hne, if_false,
        getElem?_key hlen hu h, hcd, hkd]
      rw [if_neg (by omega), if_neg (by omega)]
      rfl
  | esc x y =>
    obtain ⟨hx, hy⟩ := ht
    have hxd := (crcIndex_tab x hx).1
    have hyd := (crcIndex_tab y hy).1
    simp only [Token.text, List.length_append, List.length_cons, List.length_nil] at hbound
    have hsub : (numLen - 2).toNat = numLen.toNat - 2 := by
      rw [UInt64.toNat_sub_of_le]
      · rfl
      · rw [UInt64.le_iff_toNat_le]
        show 2 ≤ numLen.toNat
        omega
    refine ⟨numLen - 2, _, ⟨?_, hkey⟩, ?_⟩
    · omega
    · have hlt : i < numLen.toNat := by omega
      simp only [Token.text, List.cons_append, List.nil_append, decodeChars, hlt, if_true, hxd, hyd]
      rw [if_neg (by omega), if_neg (by omega)]
      rfl

/-- All tokens. -/
theorem decodeChars_tokens {ts : List Token} {i q : Nat} {numLen : UInt64} {b : Bytes} (buff : Bytes)
    (ht : FitsAll u i ts) (h : At (texts ts ++ b) i numLen q)
    (hbuff : buff.length + ts.length ≤ 128) :
    ∃ numLen' q', At b (i + ts.length) numLen' q' ∧
      decodeChars s (texts ts ++ (b ++ [0])) i numLen q buff =
        decodeChars s (b ++ [0]) (i + ts.length) numLen' q' (buff ++ values u i ts) := by
  induction ts generalizing i q numLen buff with
  | nil => exact ⟨numLen, q, h, by simp [texts, values]⟩
  | cons t ts ih =>
    rw [texts_cons, List.append_assoc] at h
    rw [List.length_cons] at hbuff ⊢
    obtain ⟨n₁, q₁, h₁, e₁⟩ := decodeChars_token hlen hu (b := texts ts ++ b) buff ht.1 h
      (by omega)
    obtain ⟨n₂, q₂, h₂, e₂⟩ := ih (buff ++ [t.value (keyAt u i)]) ht.2 h₁
      (by simp only [List.length_append, List.length_cons, List.length_nil]; omega)
    have hi : i + (ts.length + 1) = i + 1 + ts.length := by omega
    rw [List.append_assoc] at e₁ e₂
    rw [hi, texts_cons, List.append_assoc]
    exact ⟨n₂, q₂, h₂, e₁.trans e₂⟩

end Tokens

theorem length_values (u : Bytes) (i : Nat) (ts : List Token) : (values u i ts).length = ts.length := by
  induction ts generalizing i with
  | nil => rfl
  | cons t ts ih => rw [values, List.length_cons, ih, List.length_cons]

theorem length_le_texts (ts : List Token) : ts.length ≤ (texts ts).length := by
  induction ts with
  | nil => exact Nat.le_refl 0
  | cons t ts ih =>
    have ht : 1 ≤ t.text.length := by cases t <;> simp [Token.text]
    rw [texts_cons, List.length_append, List.length_cons]
    omega

/-- The loop, started on a text of tokens and a rest. -/
theorem uriPhoneDecode_tokens {u : Bytes} (hu : u.length = crcUristrLen) {ts : List Token}
    (ht : FitsAll u 0 ts) {r : Bytes} (hlen : (u ++ texts ts ++ r).length ≤ 74) :
    ∃ numLen q, At r ts.length numLen q ∧
      uriPhoneDecode (u ++ texts ts ++ r) =
        decodeChars (u ++ texts ts ++ r) (r ++ [0]) ts.length numLen q (values u 0 ts) := by
  have hlen' : (u ++ texts ts ++ r).length = 11 + ((texts ts).length + r.length) := by
    rw [List.length_append, List.length_append, hu]
    exact Nat.add_assoc ..
  have htake : (u ++ texts ts ++ r).take crcUristrLen = u := by
    rw [List.append_assoc, ← hu, List.take_left]
  have hdrop : (u ++ texts ts ++ r ++ [0]).drop crcUristrLen = texts ts ++ (r ++ [0]) := by
    rw [List.append_assoc, List.append_assoc, ← hu, List.drop_left]
  have hnum : (UInt64.ofNat (u ++ texts ts ++ r).length - 11).toNat = (texts ts ++ r).length := by
    have hof : (UInt64.ofNat (u ++ texts ts ++ r).length).toNat = (u ++ texts ts ++ r).length :=
      UInt64.toNat_ofNat_of_lt' (by show _ < 2 ^ 64; omega)
    have hle : (11 : UInt64) ≤ UInt64.ofNat (u ++ texts ts ++ r).length := by
      rw [UInt64.le_iff_toNat_le, hof]
      show 11 ≤ (u ++ texts ts ++ r).length
      omega
    rw [UInt64.toNat_sub_of_le _ _ hle, hof, hlen', List.length_append]
    exact Nat.add_sub_cancel_left ..
  have hts := length_le_texts ts
  have hstart : At (texts ts ++ r) 0 (UInt64.ofNat (u ++ texts ts ++ r).length - 11) 0 :=
    ⟨by rw [hnum, Nat.zero_add], .inl rfl⟩
  have hrun := decodeChars_tokens (s := u ++ texts ts ++ r) (by rw [hlen']; exact Nat.le_add_right ..)
    htake [] ht hstart (by rw [List.length_nil]; omega)
  rw [Nat.zero_add, List.nil_append] at hrun
  rw [uriPhoneDecode, if_neg (by rw [hlen']; exact Nat.not_lt.mpr (Nat.le_add_right ..)), hdrop]
  exact hrun

/-- A text of tokens that fit is decoded. -/
theorem uriPhoneDecode_fits {u : Bytes} (hu : u.length = crcUristrLen) {ts : List Token}
    (ht : FitsAll u 0 ts) (hlen : (u ++ texts ts).length ≤ 74) :
    uriPhoneDecode (u ++ texts ts) = .ret 0 (some u) (some (cstr (values u 0 ts))) := by
  obtain ⟨n, q, h, e⟩ := uriPhoneDecode_tokens hu ht (r := []) (by rwa [List.append_nil])
  have hts := length_le_texts ts
  have hb := h.bound
  rw [List.length_append] at hlen
  rw [List.append_nil, List.nil_append] at e
  rw [List.length_nil, Nat.add_zero] at hb
  rw [e, decodeChars, if_neg (by omega), decodeEnd, if_pos (.inl (by rw [length_values]; omega)),
    ← hu, List.take_left]

/-! ## What the encoder writes -/

/-- The token for the character `q`. -/
def tokenOf (k q : UInt8) : Token :=
  if q < 48 ∨ q > 57 then
    .esc (crc64tab.getD (q.toNat / 64) 0) (crc64tab.getD (q.toNat % 64) 0)
  else .plain (crc64tab.getD ((tabIndex k + (q.toNat - 48)) % 64) 0)

theorem tabAt_of_lt {n : Nat} (h : n < 64) : tabAt n = some (crc64tab.getD n 0) := by
  have hn : n < crc64tab.length := h
  rw [tabAt, if_pos (Int.natCast_nonneg n), Int.toNat_natCast, List.getD_eq_getElem?_getD,
    List.getElem?_eq_getElem hn]
  rfl

/-- A character is written as its token, which fits and is read as the character. -/
theorem encodeChar_token {u : Bytes} {i : Nat} (hk : keyAt u i ∈ crc64tab) {q : UInt8}
    (hq : q.toNat < 128) :
    encodeChar u i q = some (tokenOf (keyAt u i) q).text ∧
      (tokenOf (keyAt u i) q).Fits (keyAt u i) ∧
      (tokenOf (keyAt u i) q).value (keyAt u i) = q := by
  obtain ⟨hkd, hk64, -⟩ := crcIndex_tab _ hk
  have hs := schar_of_lt hq
  have hcond : (schar q < 48 ∨ schar q > 57) ↔ (q < 48 ∨ q > 57) := by
    rw [hs, UInt8.lt_iff_toNat_lt, gt_iff_lt, gt_iff_lt, UInt8.lt_iff_toNat_lt]
    show _ ↔ q.toNat < 48 ∨ 57 < q.toNat
    omega
  unfold encodeChar tokenOf
  by_cases hc : q < 48 ∨ q > 57
  · have hx := digit_tab (q.toNat / 64) (by omega)
    have hy := digit_tab (q.toNat % 64) (by omega)
    have hdiv : (schar q).tdiv 64 = ((q.toNat / 64 : Nat) : Int) := by rw [hs]; rfl
    have hmod : (schar q).tmod 64 = ((q.toNat % 64 : Nat) : Int) := by rw [hs]; rfl
    rw [if_pos (hcond.mpr hc), if_pos hc, hdiv, hmod, tabAt_of_lt (by omega), tabAt_of_lt (by omega)]
    refine ⟨rfl, ⟨hx.2, hy.2⟩, ?_⟩
    have hval : ((q.toNat / 64 : Nat) : Int) * 64 + (q.toNat % 64 : Nat) = q.toNat := by omega
    simp only [Token.value, hx.1, hy.1, hval, uint8_ofInt_toNat]
  · have hq57 : 48 ≤ q.toNat ∧ q.toNat ≤ 57 := by
      rw [← hcond, hs] at hc
      omega
    have hidx : (crcIndex (u.getD (i % crcUristrLen) 0) + (schar q - 48)).tmod 64 =
        (((tabIndex (keyAt u i) + (q.toNat - 48)) % 64 : Nat) : Int) := by
      rw [hs]
      show (crcIndex (keyAt u i) + _).tmod 64 = _
      rw [hkd, Int.tmod_eq_emod_of_nonneg (by omega)]
      omega
    have hc' := digit_tab ((tabIndex (keyAt u i) + (q.toNat - 48)) % 64) (by omega)
    rw [if_neg (hcond.not.mpr hc), if_neg hc, hidx, tabAt_of_lt (by omega)]
    refine ⟨rfl, ⟨hc'.2, hk⟩, ?_⟩
    -- Moved on by the digit and back again, past the end of the table or not.
    have hval : (if (((tabIndex (keyAt u i) + (q.toNat - 48)) % 64 : Nat) : Int) ≥
        tabIndex (keyAt u i) then
        (((tabIndex (keyAt u i) + (q.toNat - 48)) % 64 : Nat) : Int) - tabIndex (keyAt u i) + 48
        else
          (((tabIndex (keyAt u i) + (q.toNat - 48)) % 64 : Nat) : Int) - tabIndex (keyAt u i) + 64 + 48) =
        q.toNat := by
      split <;> omega
    simp only [Token.value, hc'.1, hval, uint8_ofInt_toNat]

/-- The tokens of a phone number. -/
def tokensOf (u : Bytes) : Nat → Bytes → List Token
  | _, [] => []
  | i, q :: phoneNum => tokenOf (keyAt u i) q :: tokensOf u (i + 1) phoneNum

/-- The loop of the encoder writes the tokens. -/
theorem encodeChars_tokens {u : Bytes} (hu : ∀ i, keyAt u i ∈ crc64tab) {phoneNum : Bytes}
    (hq : ∀ q ∈ phoneNum, q.toNat < 128) (i : Nat) :
    encodeChars u i phoneNum = some (texts (tokensOf u i phoneNum)) ∧
      FitsAll u i (tokensOf u i phoneNum) ∧ values u i (tokensOf u i phoneNum) = phoneNum := by
  induction phoneNum generalizing i with
  | nil => exact ⟨rfl, trivial, rfl⟩
  | cons q phoneNum ih =>
    obtain ⟨h1, h2, h3⟩ := encodeChar_token (hu i) (hq q (by simp))
    obtain ⟨g1, g2, g3⟩ := ih (fun q hq' => hq q (by simp [hq'])) (i + 1)
    refine ⟨?_, ⟨h2, g2⟩, ?_⟩
    · rw [encodeChars, h1, g1]
      rfl
    · rw [tokensOf, values, h3, g3]

theorem length_tokensOf (u : Bytes) (i : Nat) (phoneNum : Bytes) :
    (tokensOf u i phoneNum).length = phoneNum.length := by
  induction phoneNum generalizing i with
  | nil => rfl
  | cons q phoneNum ih => rw [tokensOf, List.length_cons, ih, List.length_cons]

theorem length_texts_le (ts : List Token) : (texts ts).length ≤ 3 * ts.length := by
  induction ts with
  | nil => exact Nat.le_refl 0
  | cons t ts ih =>
    have ht : t.text.length ≤ 3 := by cases t <;> simp [Token.text]
    rw [texts_cons, List.length_append, List.length_cons]
    omega

/-- The characters of fitting tokens are no NUL. -/
theorem zero_notMem_texts {u : Bytes} {i : Nat} {ts : List Token} (h : FitsAll u i ts) :
    0 ∉ texts ts := by
  induction ts generalizing i with
  | nil => simp [texts]
  | cons t ts ih =>
    rw [texts_cons, List.mem_append, not_or]
    refine ⟨fun hm => ?_, ih h.2⟩
    have ht := h.1
    cases t with
    | plain c => exact zero_notMem_tab (List.mem_singleton.mp hm ▸ ht.1)
    | esc x y =>
      simp only [Token.text, List.mem_cons, List.not_mem_nil, or_false] at hm
      rcases hm with hm | hm | hm
      · exact absurd hm (by decide)
      · exact zero_notMem_tab (hm ▸ ht.1)
      · exact zero_notMem_tab (hm ▸ ht.2)

theorem InTab.keyAt {u : Bytes} (hin : InTab u) (hu : u.length = crcUristrLen) (i : Nat) :
    UriCodec.keyAt u i ∈ crc64tab :=
  hin.getD (by rw [hu]; exact Nat.mod_lt i (by decide))

/-- A uri and a phone number of at most 21 characters are encoded and read back, digits and other
characters alike. -/
theorem uriPhone_roundtrip (messId : UInt64) (phoneNum : Bytes) (hlen : phoneNum.length ≤ 21)
    (hchars : ∀ q ∈ phoneNum, 1 ≤ q.toNat ∧ q.toNat ≤ 127) :
    ∃ encondeStr, uriPhoneEncode (encode messId) phoneNum = some encondeStr ∧
      uriPhoneDecode encondeStr = .ret 0 (some (encode messId)) (some phoneNum) := by
  have hu := length_encode messId
  have hin := inTab_encode messId
  obtain ⟨henc, hfits, hval⟩ := encodeChars_tokens (u := encode messId) (hin.keyAt hu)
    (fun q hq => Nat.lt_succ_of_le (hchars q hq).2 : ∀ q ∈ phoneNum, q.toNat < 128) 0
  have htexts := length_texts_le (tokensOf (encode messId) 0 phoneNum)
  rw [length_tokensOf] at htexts
  have htotal : (encode messId ++ texts (tokensOf (encode messId) 0 phoneNum)).length ≤ 74 := by
    rw [List.length_append, hu, crcUristrLen]
    omega
  have h0 : 0 ∉ encode messId ++ texts (tokensOf (encode messId) 0 phoneNum) := by
    rw [List.mem_append, not_or]
    exact ⟨fun h => zero_notMem_tab (hin 0 h), zero_notMem_texts hfits⟩
  have htake : (encode messId ++ [0]).take crcUristrLen = encode messId := by
    rw [← hu, List.take_left]
  refine ⟨encode messId ++ texts (tokensOf (encode messId) 0 phoneNum), ?_, ?_⟩
  · rw [uriPhoneEncode]
    simp only [htake]
    rw [if_neg (by rw [hu]; exact Nat.lt_irrefl _), henc]
    show (if _ then _ else _) = _
    rw [if_pos (by omega), cstr_eq_self h0]
  · rw [uriPhoneDecode_fits hu hfits htotal, hval, cstr_eq_self]
    intro h
    exact absurd (hchars 0 h).1 (by decide)

/-- A phone number with a leading `+`, a letter and every digit. -/
def samplePhone : Bytes := [43, 48, 49, 50, 51, 52, 53, 54, 55, 56, 57, 65]

theorem uriPhone_roundtrip_samplePhone :
    ∃ encondeStr, uriPhoneEncode (encode 12345678901) samplePhone = some encondeStr ∧
      uriPhoneDecode encondeStr = .ret 0 (some (encode 12345678901)) (some samplePhone) :=
  uriPhone_roundtrip 12345678901 samplePhone (by decide) (by decide +kernel)

/-! ## Texts that were not encoded -/

/-- A uri of characters of the table, then characters of the table and complete escapes. -/
def WellFormed (e : Bytes) : Prop :=
  ∃ u ts, e = u ++ texts ts ∧ u.length = crcUristrLen ∧ InTab u ∧ ∀ t ∈ ts, t.Valid

/-- What the callers of the decoder need for `e`: it ends without an access it must not make, it
returns 0 exactly on a well-formed text, then with a phone number, and else a negative number. -/
def Refuses (e : Bytes) : Prop :=
  ∃ r u phoneNum, uriPhoneDecode e = .ret r u phoneNum ∧ (r = 0 ↔ WellFormed e) ∧
    (WellFormed e → phoneNum ≠ none) ∧ (¬ WellFormed e → r < 0)

/-- The character that the decoder looks up first is not in the table: a plain one, or the first one
of an escape. -/
inductive BadFirst : Bytes → Prop where
  | plain {c : UInt8} (r : Bytes) (ha : c ≠ addSign) (hc : c ∉ crc64tab) : BadFirst (c :: r)
  | esc {x : UInt8} (r : Bytes) (hx : x ∉ crc64tab) : BadFirst (addSign :: x :: r)

/-- Other ways in which a text can go on that the decoder cannot read: the second character of an
escape is not in the table or missing, or the key character of a plain one is not in the table. -/
inductive BadLater (k : UInt8) : Bytes → Prop where
  | plain {c : UInt8} (r : Bytes) (hc : c ∈ crc64tab) (hk : k ∉ crc64tab) : BadLater k (c :: r)
  | esc {x y : UInt8} (r : Bytes) (hx : x ∈ crc64tab) (hy : y ∉ crc64tab) :
      BadLater k (addSign :: x :: y :: r)
  | escShort {x : UInt8} (hx : x ∈ crc64tab) : BadLater k [addSign, x]
  | at_ : BadLater k [addSign]

theorem crcIndex_of_notMem {c : UInt8} (h : c ∉ crc64tab) : crcIndex c = -1 := by
  rw [crcIndex, findByte_eq_none.mpr h]

/-- Every text is a row of tokens that fit, up to a place where the decoder cannot go on. -/
theorem exists_tokens (u : Bytes) : ∀ (b : Bytes) (i : Nat), ∃ ts r, b = texts ts ++ r ∧
    FitsAll u i ts ∧ (r = [] ∨ BadFirst r ∨ BadLater (keyAt u (i + ts.length)) r)
  | [], i => ⟨[], [], rfl, trivial, .inl rfl⟩
  | c :: b, i => by
    by_cases ha : c = addSign
    · subst ha
      match b with
      | [] => exact ⟨[], [addSign], rfl, trivial, .inr (.inr .at_)⟩
      | x :: b =>
        by_cases hx : x ∈ crc64tab
        · match b with
          | [] => exact ⟨[], [addSign, x], rfl, trivial, .inr (.inr (.escShort hx))⟩
          | y :: b =>
            by_cases hy : y ∈ crc64tab
            · obtain ⟨ts, r, rfl, ht, hr⟩ := exists_tokens u b (i + 1)
              refine ⟨.esc x y :: ts, r, rfl, ⟨⟨hx, hy⟩, ht⟩, ?_⟩
              rwa [List.length_cons, ← Nat.add_assoc, Nat.add_right_comm]
            · exact ⟨[], _, rfl, trivial, .inr (.inr (.esc b hx hy))⟩
        · exact ⟨[], _, rfl, trivial, .inr (.inl (.esc b hx))⟩
    · by_cases hc : c ∈ crc64tab
      · by_cases hk : keyAt u i ∈ crc64tab
        · obtain ⟨ts, r, rfl, ht, hr⟩ := exists_tokens u b (i + 1)
          refine ⟨.plain c :: ts, r, rfl, ⟨⟨hc, hk⟩, ht⟩, ?_⟩
          rwa [List.length_cons, ← Nat.add_assoc, Nat.add_right_comm]
        · exact ⟨[], _, rfl, trivial, .inr (.inr (.plain b hc hk))⟩
      · exact ⟨[], _, rfl, trivial, .inr (.inl (.plain b ha hc))⟩
termination_by b => b.length

section Stop

variable {s u : Bytes} (hlen : crcUristrLen ≤ s.length) (hu : s.take crcUristrLen = u)

include hlen hu

/-- There the decoder returns -1. -/
theorem decodeChars_badFirst {r : Bytes} (hr : BadFirst r) {i q : Nat} {numLen : UInt64}
    (h : At r i numLen q) (buff : Bytes) :
    decodeChars s (r ++ [0]) i numLen q buff = .ret (-1) (some u) none := by
  have hb := h.bound
  cases hr with
  | plain r ha hc =>
    rw [List.length_cons] at hb
    simp only [List.cons_append, decodeChars, if_pos (show i < numLen.toNat by omega), ha, if_false,
      getElem?_key hlen hu h, crcIndex_of_notMem hc, hu]
    rw [if_pos (.inl (by decide))]
  | esc r hx =>
    rw [List.length_cons, List.length_cons] at hb
    obtain ⟨y, r', hy⟩ : ∃ y r', r ++ [0] = y :: r' := List.exists_cons_of_ne_nil (by simp)
    simp only [List.cons_append, hy, decodeChars, if_pos (show i < numLen.toNat by omega), if_true,
      crcIndex_of_notMem hx, hu]
    rw [if_pos (.inl (by decide))]

/-- There it returns an index, which is not negative, and assigns no phone number; or it reads past
the end. -/
theorem decodeChars_badLater {r : Bytes} {i q : Nat} (hr : BadLater (keyAt u i) r)
    {numLen : UInt64} (h : At r i numLen q) (buff : Bytes) :
    decodeChars s (r ++ [0]) i numLen q buff = .readPast ∨
      ∃ n : Nat, decodeChars s (r ++ [0]) i numLen q buff = .ret n (some u) none := by
  have hb := h.bound
  cases hr with
  | @plain c r hc hk =>
    right
    have hne : c ≠ addSign := by
      rintro rfl
      exact absurd hc (by decide)
    rw [List.length_cons] at hb
    simp only [List.cons_append, decodeChars, if_pos (show i < numLen.toNat by omega), hne, if_false,
      getElem?_key hlen hu h, crcIndex_of_notMem hk, (crcIndex_tab c hc).1, hu]
    rw [if_pos (.inr (by decide))]
    exact ⟨_, rfl⟩
  | @esc x y r hx hy =>
    right
    rw [List.length_cons] at hb
    simp only [List.cons_append, decodeChars, if_pos (show i < numLen.toNat by omega), if_true,
      crcIndex_of_notMem hy, (crcIndex_tab x hx).1, hu]
    rw [if_pos (.inr (by decide))]
    exact ⟨_, rfl⟩
  | @escShort x hx =>
    right
    rw [List.length_cons] at hb
    simp only [List.cons_append, List.nil_append, decodeChars,
      if_pos (show i < numLen.toNat by omega), if_true, crcIndex_of_notMem zero_notMem_tab,
      (crcIndex_tab x hx).1, hu]
    rw [if_pos (.inr (by decide))]
    exact ⟨_, rfl⟩
  | at_ =>
    left
    rw [List.length_cons] at hb
    simp only [List.cons_append, List.nil_append, decodeChars,
      if_pos (show i < numLen.toNat by omega), if_true]

end Stop

/-- With a uri over the table, tokens over the table fit. -/
theorem fitsAll_of_valid {u : Bytes} (hk : ∀ i, keyAt u i ∈ crc64tab) {ts : List Token}
    (ht : ∀ t ∈ ts, t.Valid) (i : Nat) : FitsAll u i ts := by
  induction ts generalizing i with
  | nil => trivial
  | cons t ts ih =>
    refine ⟨?_, ih (fun t ht' => ht t (by simp [ht'])) (i + 1)⟩
    have := ht t (by simp)
    cases t with
    | plain c => exact ⟨this, hk i⟩
    | esc x y => exact this

/-- A well-formed text is decoded. -/
theorem WellFormed.decodes {e : Bytes} (h : WellFormed e) (hlen : e.length ≤ 74) :
    ∃ u phoneNum, uriPhoneDecode e = .ret 0 (some u) (some phoneNum) := by
  obtain ⟨u, ts, rfl, hu, hin, ht⟩ := h
  exact ⟨_, _, uriPhoneDecode_fits hu (fitsAll_of_valid (hin.keyAt hu) ht 0) hlen⟩

/-- A uri and tokens that fit, and where they end the character that is looked up first is not in
the table. -/
def StopsFirst (e : Bytes) : Prop :=
  ∃ u ts r, e = u ++ texts ts ++ r ∧ u.length = crcUristrLen ∧ FitsAll u 0 ts ∧ BadFirst r

theorem StopsFirst.decodes {e : Bytes} (h : StopsFirst e) (hlen : e.length ≤ 74) :
    ∃ u, uriPhoneDecode e = .ret (-1) (some u) none := by
  obtain ⟨u, ts, r, rfl, hu, ht, hr⟩ := h
  obtain ⟨n, q, hat, hrun⟩ := uriPhoneDecode_tokens hu ht hlen
  refine ⟨u, hrun.trans (decodeChars_badFirst ?_ ?_ hr hat _)⟩
  · rw [List.append_assoc, List.length_append, hu]
    exact Nat.le_add_right ..
  · rw [List.append_assoc, ← hu, List.take_left]

/-- A result without a phone number is a refusal only if it is negative. -/
theorem not_refuses {e : Bytes} (h : uriPhoneDecode e = .readPast ∨
    ∃ (n : Nat) (u : Option Bytes), uriPhoneDecode e = .ret n u none) : ¬ Refuses e := by
  rintro ⟨r, u, p, hr, -, hsome, hneg⟩
  rcases h with h | ⟨n, u', h⟩
  · rw [h] at hr
    cases hr
  · rw [h] at hr
    cases hr
    by_cases hw : WellFormed e
    · exact hsome hw rfl
    · have := hneg hw
      omega

theorem refuses_of_neg {e : Bytes} {r : Int} (hr : r < 0) {u : Option Bytes}
    (h : uriPhoneDecode e = .ret r u none) (hw : ¬ WellFormed e) : Refuses e :=
  ⟨r, u, none, h, ⟨fun h0 => by omega, fun hw' => absurd hw' hw⟩, fun hw' => absurd hw' hw,
    fun _ => hr⟩

/-- On a text of at most 74 characters the decoder does what its callers need exactly if the text
is shorter than a uri, or well-formed, or if the first place where it cannot be read is one of a
character that is looked up first. -/
theorem refuses_iff (e : Bytes) (hlen : e.length ≤ 74) :
    Refuses e ↔ e.length < crcUristrLen ∨ WellFormed e ∨ StopsFirst e := by
  constructor
  · intro h
    by_cases hshort : e.length < crcUristrLen
    · exact .inl hshort
    · right
      have hu : (e.take crcUristrLen).length = crcUristrLen := by
        rw [List.length_take]
        omega
      obtain ⟨ts, r, hb, ht, hr⟩ := exists_tokens (e.take crcUristrLen) (e.drop crcUristrLen) 0
      have he : e = e.take crcUristrLen ++ texts ts ++ r := by
        rw [List.append_assoc, ← hb, List.take_append_drop]
      rcases hr with rfl | hr | hr
      · left
        obtain ⟨r, u, p, hd, hiff, -⟩ := h
        rw [List.append_nil] at he
        have hdec := uriPhoneDecode_fits hu ht (he ▸ hlen)
        rw [← he, hd] at hdec
        cases hdec
        exact hiff.mp rfl
      · exact .inr ⟨_, ts, r, he, hu, ht, hr⟩
      · exfalso
        obtain ⟨n, q, hat, hrun⟩ := uriPhoneDecode_tokens hu ht (he ▸ hlen)
        rw [← he] at hrun
        rw [Nat.zero_add] at hr
        refine not_refuses ?_ h
        rw [hrun]
        exact (decodeChars_badLater (Nat.not_lt.mp hshort) rfl hr hat _).imp_right fun ⟨n, hn⟩ =>
          ⟨n, _, hn⟩
  · rintro (hshort | hw | hstop)
    · refine refuses_of_neg (by decide) (if_pos hshort) ?_
      rintro ⟨u, ts, rfl, hu, -⟩
      rw [List.length_append] at hshort
      omega
    · obtain ⟨u, p, hd⟩ := hw.decodes hlen
      exact ⟨0, _, _, hd, iff_of_true rfl hw, fun _ => Option.some_ne_none p, fun h => absurd hw h⟩
    · obtain ⟨u, hd⟩ := hstop.decodes hlen
      refine refuses_of_neg (by decide) hd fun hw => ?_
      obtain ⟨u', p, hd'⟩ := hw.decodes hlen
      rw [hd] at hd'
      cases hd'

theorem refuses_iff_comma : Refuses (List.replicate 11 48 ++ [44]) ↔
    (List.replicate 11 48 ++ [44] : Bytes).length < crcUristrLen ∨
      WellFormed (List.replicate 11 48 ++ [44]) ∨ StopsFirst (List.replicate 11 48 ++ [44]) :=
  refuses_iff _ (by decide)

/-- After eleven zeros: a lone `@` is read past the end; `@0` returns 0 without a phone number; and
a uri that ends with a comma, which is no key for one character, is accepted. -/
theorem malformed_accepted :
    ¬ Refuses (List.replicate 11 48 ++ [64]) ∧ ¬ Refuses (List.replicate 11 48 ++ [64, 48]) ∧
    ¬ Refuses (List.replicate 10 48 ++ [44, 48]) := by
  refine ⟨not_refuses (.inl (by decide)),
    not_refuses (.inr ⟨0, some (List.replicate 11 48), by decide⟩), ?_⟩
  rintro ⟨r, u, p, hd, hiff, -⟩
  have hd' : uriPhoneDecode (List.replicate 10 48 ++ [44, 48]) =
      .ret 0 (some (List.replicate 10 48 ++ [44])) (some [48]) := by decide
  rw [hd'] at hd
  cases hd
  obtain ⟨u, ts, he, hu, hin, -⟩ := hiff.mp rfl
  have htake := congrArg (List.take crcUristrLen) he
  rw [← hu, List.take_left, hu] at htake
  rw [← htake] at hin
  exact absurd hin (by decide)

end UriCodec
end CmakeFrame
