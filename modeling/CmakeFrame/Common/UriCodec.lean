import CmakeFrame.Lib.Search
import Mathlib.Data.Nat.Digits.Lemmas

/-!
# `UriCodec.h`: message ids as text

`common/UriCodec.h`. A message id is a 64-bit number; its uri is eleven characters of a table of 64,
six bits each, the low ones first.

* `encode`, `crcIndex`, `decode`: the functions.
* `valueOf`: the number that the indices of a text are the digits of, base 64.
* `valueOf_encode`, `toNat_decode`: the two functions in terms of it. The eleven digits carry 66
  bits: what is above the 64 of a `uint64_t` falls out.
* `uri_bijection`: an id is read back; a uri too, if its last digit is below 16.
-/

namespace CmakeFrame
namespace UriCodec

open Lib

/-- `crc64tab`: the digits, `A-Z`, `a-z`, `_` and `-`. -/
def crc64tab : Bytes :=
  [
    0x30, 0x31, 0x32, 0x33, 0x34, 0x35, 0x36, 0x37,
    0x38, 0x39, 0x41, 0x42, 0x43, 0x44, 0x45, 0x46,
    0x47, 0x48, 0x49, 0x4a, 0x4b, 0x4c, 0x4d, 0x4e,
    0x4f, 0x50, 0x51, 0x52, 0x53, 0x54, 0x55, 0x56,
    0x57, 0x58, 0x59, 0x5a, 0x61, 0x62, 0x63, 0x64,
    0x65, 0x66, 0x67, 0x68, 0x69, 0x6a, 0x6b, 0x6c,
    0x6d, 0x6e, 0x6f, 0x70, 0x71, 0x72, 0x73, 0x74,
    0x75, 0x76, 0x77, 0x78, 0x79, 0x7a, 0x5f, 0x2d]

/-- `CRC_URISTR_LEN`. -/
def crcUristrLen : Nat := 11

/-- The loop of `encode`: the characters of the next `n` turns. -/
def encodeLoop : Nat → UInt64 → Bytes
  | 0, _ => []
  | n + 1, messId => crc64tab.getD (messId &&& 0x3f).toUInt8.toNat 0 :: encodeLoop n (messId >>> 6)

/-- `encode(messId)`: `resBuf` has 16 bytes, and the result ends at its first NUL. -/
def encode (messId : UInt64) : Bytes :=
  cstr (encodeLoop crcUristrLen messId ++ List.replicate (16 - crcUristrLen) 0)

/-- `crc_index(c)`: `-1` for a character that is not in the table. -/
def crcIndex (c : UInt8) : Int :=
  match findByte c crc64tab with
  | some sub => sub
  | none => -1

/-- The loop of `decode`, with `i + 1` turns left. -/
def decodeLoop (messStr : Bytes) : Nat → UInt64 → UInt64
  | 0, messId => messId
  | i + 1, messId =>
    if crcIndex (messStr.getD i 0) < 0 then 0
    else
      let messId := messId ||| UInt64.ofInt (crcIndex (messStr.getD i 0))
      decodeLoop messStr i (if i > 0 then messId <<< 6 else messId)

/-- `decode(messStr)`; an error gives 0. -/
def decode (messStr : Bytes) : UInt64 :=
  if messStr.length ≠ crcUristrLen then 0 else decodeLoop messStr crcUristrLen 0

/-! ## The table -/

/-- The index of a character of the table. -/
def tabIndex (c : UInt8) : Nat := (crcIndex c).toNat

/-- All characters are in the table. -/
def InTab (s : Bytes) : Prop := ∀ c ∈ s, c ∈ crc64tab

instance (s : Bytes) : Decidable (InTab s) := List.decidableBAll _ s

theorem digit_tab : ∀ n < 64, tabIndex (crc64tab.getD n 0) = n ∧ crc64tab.getD n 0 ∈ crc64tab := by
  decide +kernel

theorem crcIndex_tab : ∀ c ∈ crc64tab, crcIndex c = tabIndex c ∧ tabIndex c < 64 ∧
    crc64tab.getD (tabIndex c) 0 = c := by
  decide +kernel

theorem crcIndex_neg {c : UInt8} : crcIndex c < 0 ↔ c ∉ crc64tab := by
  constructor
  · intro h hc
    rw [(crcIndex_tab c hc).1] at h
    omega
  · intro h
    rw [crcIndex, findByte_eq_none.mpr h]
    decide

theorem zero_notMem_tab : 0 ∉ crc64tab := by decide

/-- The number whose base 64 digits, low ones first, are the indices of `s`. -/
def valueOf (s : Bytes) : Nat := Nat.ofDigits 64 (s.map tabIndex)

theorem digits_lt {s : Bytes} (h : InTab s) : ∀ d ∈ s.map tabIndex, d < 64 := by
  intro d hd
  obtain ⟨c, hc, rfl⟩ := List.mem_map.mp hd
  exact (crcIndex_tab c (h c hc)).2.1

/-- Texts of one length over the table are told apart by their values. -/
theorem valueOf_inj {s t : Bytes} (hs : InTab s) (ht : InTab t) (hlen : s.length = t.length)
    (h : valueOf s = valueOf t) : s = t := by
  have hd : s.map tabIndex = t.map tabIndex :=
    Nat.ofDigits_inj_of_len_eq (by decide) (by simpa using hlen) (digits_lt hs) (digits_lt ht) h
  have hback : ∀ u : Bytes, InTab u → (u.map tabIndex).map (fun n => crc64tab.getD n 0) = u := by
    intro u hu
    rw [List.map_map]
    refine (List.map_congr_left fun c hc => ?_).trans (List.map_id u)
    exact (crcIndex_tab c (hu c hc)).2.2
  rw [← hback s hs, hd, hback t ht]

theorem valueOf_lt {s : Bytes} (h : InTab s) : valueOf s < 64 ^ s.length := by
  have := Nat.ofDigits_lt_base_pow_length (b := 64) (by decide) (digits_lt h)
  rwa [List.length_map] at this

theorem valueOf_append (s t : Bytes) : valueOf (s ++ t) = valueOf s + 64 ^ s.length * valueOf t := by
  rw [valueOf, List.map_append, Nat.ofDigits_append, List.length_map]
  rfl

/-! ## `encode` -/

/-- The low six bits are the lowest digit. -/
theorem toNat_low (messId : UInt64) : (messId &&& 0x3f).toUInt8.toNat = messId.toNat % 64 := by
  have h : (messId &&& 0x3f).toNat = messId.toNat % 64 := by
    rw [UInt64.toNat_and]
    exact Nat.and_two_pow_sub_one_eq_mod messId.toNat 6
  rw [UInt64.toNat_toUInt8, h]
  omega

theorem toNat_shiftRight_six (messId : UInt64) : (messId >>> 6).toNat = messId.toNat / 64 := by
  rw [UInt64.toNat_shiftRight]
  exact Nat.shiftRight_eq_div_pow messId.toNat 6

/-- The characters of `n` turns are the `n` low digits. -/
theorem encodeLoop_spec (n : Nat) (messId : UInt64) :
    (encodeLoop n messId).length = n ∧ InTab (encodeLoop n messId) ∧
      valueOf (encodeLoop n messId) = messId.toNat % 64 ^ n := by
  induction n generalizing messId with
  | zero => exact ⟨rfl, fun c hc => (nomatch hc), by rw [pow_zero, Nat.mod_one]; rfl⟩
  | succ n ih =>
    obtain ⟨hlen, hin, hval⟩ := ih (messId >>> 6)
    have hd := digit_tab (messId.toNat % 64) (Nat.mod_lt _ (by decide))
    rw [encodeLoop, toNat_low]
    refine ⟨by rw [List.length_cons, hlen], ?_, ?_⟩
    · intro c hc
      rcases List.mem_cons.mp hc with rfl | hc
      · exact hd.2
      · exact hin c hc
    · have hcons : valueOf (crc64tab.getD (messId.toNat % 64) 0 :: encodeLoop n (messId >>> 6)) =
          messId.toNat % 64 + 64 * valueOf (encodeLoop n (messId >>> 6)) := by
        rw [valueOf, List.map_cons, Nat.ofDigits_cons, hd.1]
        rfl
      rw [hcons, hval, toNat_shiftRight_six, pow_succ', Nat.mod_mul]

/-- The characters of a uri are not NUL, so that it is what the loop wrote. -/
theorem encode_eq (messId : UInt64) : encode messId = encodeLoop crcUristrLen messId := by
  have h0 : 0 ∉ encodeLoop crcUristrLen messId := fun h =>
    zero_notMem_tab ((encodeLoop_spec _ _).2.1 0 h)
  rw [encode, cstr_append h0]
  exact List.append_nil _

theorem length_encode (messId : UInt64) : (encode messId).length = crcUristrLen := by
  rw [encode_eq]
  exact (encodeLoop_spec _ _).1

theorem inTab_encode (messId : UInt64) : InTab (encode messId) := by
  rw [encode_eq]
  exact (encodeLoop_spec _ _).2.1

theorem valueOf_encode (messId : UInt64) : valueOf (encode messId) = messId.toNat := by
  rw [encode_eq, (encodeLoop_spec _ _).2.2]
  refine Nat.mod_eq_of_lt (Nat.lt_trans messId.toNat_lt ?_)
  decide

/-! ## `decode` -/

/-- Into six free bits, `|` adds a digit. -/
theorem toNat_or_digit {messId : UInt64} (h : messId.toNat % 64 = 0) {d : Nat} (hd : d < 64) :
    (messId ||| UInt64.ofInt d).toNat = messId.toNat + d := by
  have hof : (UInt64.ofInt (d : Int)).toNat = d := by
    rw [UInt64.ofInt, UInt64.toNat_ofNat']
    omega
  obtain ⟨q, hq⟩ := Nat.dvd_of_mod_eq_zero h
  rw [UInt64.toNat_or, hof, hq]
  exact (Nat.two_pow_add_eq_or_of_lt (i := 6) hd q).symm

theorem toNat_shiftLeft_six (messId : UInt64) :
    (messId <<< 6).toNat = messId.toNat * 64 % 2 ^ 64 := by
  rw [UInt64.toNat_shiftLeft]
  exact congrArg (· % 2 ^ 64) (Nat.shiftLeft_eq messId.toNat 6)

/-- One turn for a character of the table. -/
theorem decodeLoop_succ {messStr : Bytes} {i : Nat} (hi : messStr.getD i 0 ∈ crc64tab)
    (messId : UInt64) :
    decodeLoop messStr (i + 1) messId =
      decodeLoop messStr i
        (if i > 0 then (messId ||| UInt64.ofInt (tabIndex (messStr.getD i 0))) <<< 6
          else messId ||| UInt64.ofInt (tabIndex (messStr.getD i 0))) := by
  rw [decodeLoop, if_neg (fun h => crcIndex_neg.mp h hi), (crcIndex_tab _ hi).1]

/-- The first `i + 1` characters are the first `i` and the one at `i`. -/
theorem take_succ_getD {messStr : Bytes} {i : Nat} (hi : i < messStr.length) :
    messStr.take (i + 1) = messStr.take i ++ [messStr.getD i 0] := by
  rw [List.take_succ_eq_append_getElem hi, List.getD_eq_getElem?_getD, List.getElem?_eq_getElem hi]
  rfl

theorem valueOf_take_succ {messStr : Bytes} {i : Nat} (hi : i < messStr.length) :
    valueOf (messStr.take (i + 1)) =
      valueOf (messStr.take i) + 64 ^ i * tabIndex (messStr.getD i 0) := by
  rw [take_succ_getD hi, valueOf_append, List.length_take, Nat.min_eq_left (Nat.le_of_lt hi)]
  simp [valueOf]

theorem InTab.getD {messStr : Bytes} (hin : InTab messStr) {i : Nat} (hi : i < messStr.length) :
    messStr.getD i 0 ∈ crc64tab := by
  refine hin _ (List.mem_of_mem_take (i := i + 1) ?_)
  rw [take_succ_getD hi]
  simp

/-- The loop folds the remaining digits in below `messId`. Only the last turn does not shift. -/
theorem toNat_decodeLoop {messStr : Bytes} (hin : InTab messStr) {i : Nat}
    (hi : i < messStr.length) {messId : UInt64} (h0 : messId.toNat % 64 = 0) :
    (decodeLoop messStr (i + 1) messId).toNat =
      (messId.toNat * 64 ^ i + valueOf (messStr.take (i + 1))) % 2 ^ 64 := by
  induction i generalizing messId with
  | zero =>
    have hor := toNat_or_digit h0 (crcIndex_tab _ (hin.getD hi)).2.1
    have hlt := (messId ||| UInt64.ofInt (tabIndex (messStr.getD 0 0))).toNat_lt
    rw [decodeLoop_succ (hin.getD hi), valueOf_take_succ hi, if_neg (Nat.lt_irrefl 0), decodeLoop,
      List.take_zero, pow_zero, Nat.mul_one, Nat.one_mul, show valueOf [] = 0 from rfl,
      Nat.zero_add, ← hor, Nat.mod_eq_of_lt hlt]
  | succ i ih =>
    have hor := toNat_or_digit h0 (crcIndex_tab _ (hin.getD hi)).2.1
    have hsh := toNat_shiftLeft_six (messId ||| UInt64.ofInt (tabIndex (messStr.getD (i + 1) 0)))
    rw [hor] at hsh
    rw [decodeLoop_succ (hin.getD hi), if_pos (Nat.succ_pos i), ih (by omega) (by omega), hsh,
      valueOf_take_succ hi]
    -- Cutting to 64 bits at every turn is cutting once, at the end.
    have hcut : ((messId.toNat + tabIndex (messStr.getD (i + 1) 0)) * 64 % 2 ^ 64 * 64 ^ i +
          valueOf (messStr.take (i + 1))) ≡
        (messId.toNat + tabIndex (messStr.getD (i + 1) 0)) * 64 * 64 ^ i +
          valueOf (messStr.take (i + 1)) [MOD 2 ^ 64] :=
      ((Nat.mod_modEq _ _).mul_right _).add_right _
    refine hcut.trans (congrArg (· % 2 ^ 64) ?_)
    rw [pow_succ]
    ring

/-- `decode` of a text of the right length over the table is its value, cut to 64 bits. -/
theorem toNat_decode {messStr : Bytes} (hlen : messStr.length = crcUristrLen)
    (hin : InTab messStr) : (decode messStr).toNat = valueOf messStr % 2 ^ 64 := by
  have h := @toNat_decodeLoop messStr hin 10 (by rw [hlen]; decide) 0 rfl
  have htake : messStr.take (10 + 1) = messStr := List.take_of_length_le (by rw [hlen]; decide)
  rw [htake] at h
  rw [decode, if_neg (not_not_intro hlen)]
  refine h.trans ?_
  rw [UInt64.toNat_zero, Nat.zero_mul, Nat.zero_add]

/-! ## Together -/

/-- A value of eleven digits fits into 64 bits exactly if the last digit is below 16. -/
theorem valueOf_lt_iff {s : Bytes} (hlen : s.length = crcUristrLen) (hin : InTab s) :
    valueOf s < 2 ^ 64 ↔ tabIndex (s.getD 10 0) < 16 := by
  have htake : s.take (10 + 1) = s := List.take_of_length_le (by rw [hlen]; decide)
  have hval := @valueOf_take_succ s 10 (by rw [hlen]; decide)
  have hlow := valueOf_lt (s := s.take 10) fun c hc => hin c (List.mem_of_mem_take hc)
  rw [List.length_take, hlen] at hlow
  rw [htake] at hval
  have hpow : (64 : Nat) ^ min 10 crcUristrLen = 2 ^ 60 := by decide
  have hpow' : (64 : Nat) ^ 10 = 2 ^ 60 := by decide
  rw [hpow] at hlow
  rw [hpow'] at hval
  omega

/-- The codec is a bijection between the ids and the texts of eleven characters of the table of
which the last has an index below 16. -/
theorem uri_bijection :
    (∀ messId : UInt64, decode (encode messId) = messId) ∧
    ∀ s : Bytes, s.length = crcUristrLen → InTab s → crcIndex (s.getD 10 0) < 16 →
      encode (decode s) = s := by
  constructor
  · intro messId
    rw [← UInt64.toNat_inj, toNat_decode (length_encode messId) (inTab_encode messId),
      valueOf_encode, Nat.mod_eq_of_lt messId.toNat_lt]
  · intro s hlen hin hlast
    have hd : tabIndex (s.getD 10 0) < 16 := by
      have := (crcIndex_tab _ (hin.getD (i := 10) (by rw [hlen]; decide))).1
      omega
    refine valueOf_inj (inTab_encode _) hin (by rw [length_encode, hlen]) ?_
    rw [valueOf_encode, toNat_decode hlen hin,
      Nat.mod_eq_of_lt ((valueOf_lt_iff hlen hin).mpr hd)]

/-- The largest id is `----------E`. -/
theorem uri_bijection_max : encode (decode (List.replicate 10 0x2d ++ [0x46])) =
    List.replicate 10 0x2d ++ [0x46] :=
  uri_bijection.2 _ (by decide) (by decide) (by decide)

end UriCodec
end CmakeFrame
