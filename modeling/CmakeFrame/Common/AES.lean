import CmakeFrame.Lib.BlockModes
import CmakeFrame.Lib.Decimal

/-!
# `AES.cpp`

`common/AES.cpp`. OpenSSL's cipher of one block is a parameter; its CBC mode is the chaining of
it.

* `aesCbcEncrypt`, `aesCbcDecrypt`, `aesEcbEncrypt`, `aesEcbDecrypt`: the return value and
  `output`, or `none` where the call does not come to an end in the C++ sense (a negative size for
  `new[]`, an index out of range). The lengths are `int`.
* `aligned`: the buffer that is encrypted, with its last block filled up.
* `aesCbcEncrypt_some`, `aesEcbEncrypt_some`: what was encrypted is the front of the input that the
  `int` counts. `aesCbcDecrypt_aligned`, `aesEcbDecrypt_aligned`: it is given back.
* `cbcBack_iff`, `ecbBack_iff`: the inputs that come back.
-/

namespace CmakeFrame
namespace AES

open Lib

/-! ## OpenSSL -/

/-- 16 bytes. -/
abbrev Block := List.Vector UInt8 16

/-- `AES_ecb_encrypt` with `AES_ENCRYPT` and `AES_DECRYPT`, for a number of key bits and a key. -/
structure OpenSsl where
  encrypt : Int → Bytes → Block → Block
  decrypt : Int → Bytes → Block → Block

namespace OpenSsl

/-- Decryption inverts encryption, for every 16-byte key. -/
def Inverts (ssl : OpenSsl) : Prop :=
  ∀ key : Bytes, key.length = 16 → ∀ b, ssl.decrypt 128 key (ssl.encrypt 128 key b) = b

variable (ssl : OpenSsl) (keyBits : Int) (key iv s : Bytes)

/-- `AES_cbc_encrypt` with `AES_ENCRYPT`, on whole blocks. -/
def cbcEncrypt : Bytes :=
  unblocks (Lib.cbcEncrypt (.zipWith (· ^^^ ·)) (ssl.encrypt keyBits key) (blockAt 0 16 iv 0)
    (blocks 0 16 s))

/-- `AES_cbc_encrypt` with `AES_DECRYPT`, on whole blocks. -/
def cbcDecrypt : Bytes :=
  unblocks (Lib.cbcDecrypt (.zipWith (· ^^^ ·)) (ssl.decrypt keyBits key) (blockAt 0 16 iv 0)
    (blocks 0 16 s))

/-- `aes_ecbEncrypt`: block by block. -/
def ecbEncrypt : Bytes := unblocks ((blocks 0 16 s).map (ssl.encrypt keyBits key))

/-- `aes_ecbDecrypt`. -/
def ecbDecrypt : Bytes := unblocks ((blocks 0 16 s).map (ssl.decrypt keyBits key))

end OpenSsl

/-! ## The functions -/

/-- A `size_t` in an `int`. -/
def toInt (n : Nat) : Int := (Int32.ofNat n).toInt

/-- `(inLen / AES_BLOCK_SIZE) * AES_BLOCK_SIZE + AES_BLOCK_SIZE`. -/
def outLen (inLen : Int) : Int := inLen.tdiv 16 * 16 + 16

/-- `p_expre`: `inLen` bytes of the input and the filling up to `outLen`, with its own length
(`alignType` 1) or with zeros. -/
def aligned (alignType : Int) (input : Bytes) (inLen outLen : Nat) : Bytes :=
  input.take inLen ++ List.replicate (outLen - inLen)
    (if alignType = 1 then UInt8.ofNat (outLen - inLen) else 0)

variable (ssl : OpenSsl)

/-- `aesCbcEncrypt(input, key, initIV, output, alignType, keyBits)`. -/
def aesCbcEncrypt (input key initIV : Bytes) (alignType keyBits : Int) : Option (Int × Bytes) :=
  let inLen := toInt input.length
  if inLen = 0 ∨ key.length ≠ 16 ∨ initIV.length ≠ 16 then some (-1, [])
  -- `memcpy` of a negative length, or `outLen` does not fit an `int`
  else if inLen < 0 ∨ 2 ^ 31 ≤ outLen inLen then none
  else
    some (0, ssl.cbcEncrypt keyBits key initIV
      (aligned alignType input inLen.toNat (outLen inLen).toNat))

/-- `aesCbcDecrypt(input, key, initIV, output, alignType, keyBits)`. -/
def aesCbcDecrypt (input key initIV : Bytes) (alignType keyBits : Int) : Option (Int × Bytes) :=
  if input = [] ∨ input.length % 16 ≠ 0 then some (-1, [])
  else if key.length ≠ 16 ∨ initIV.length ≠ 16 then some (-1, [])
  else
    let len := toInt input.length
    -- a negative size for `new[]`, or `p_expre` has no byte
    if len ≤ 0 then none
    else
      let pExpre := ssl.cbcDecrypt keyBits key initIV (input.take len.toNat)
      if alignType = 1 then
        let padding := schar (pExpre.getD (len.toNat - 1) 0)
        if padding < 0 ∨ padding > 16 then some (-3, [])
        else some (0, pExpre.take (len - padding).toNat)
      -- `strlen` stays inside the buffer only if there is a NUL in it
      else if 0 ∈ pExpre then some (0, cstr pExpre)
      else none

/-- `aesEcbEncrypt(input, key, output, alignType, keyBits)`. -/
def aesEcbEncrypt (input key : Bytes) (alignType keyBits : Int) : Option (Int × Bytes) :=
  let inLen := toInt input.length
  if inLen = 0 ∨ key.length ≠ 16 then some (-1, [])
  else if inLen < 0 ∨ 2 ^ 31 ≤ outLen inLen then none
  else
    some (0, ssl.ecbEncrypt keyBits key
      (aligned alignType input inLen.toNat (outLen inLen).toNat))

/-- `aesEcbDecrypt(input, key, output, alignType, keyBits)`. -/
def aesEcbDecrypt (input key : Bytes) (alignType keyBits : Int) : Option (Int × Bytes) :=
  if input = [] ∨ input.length % 16 ≠ 0 then some (-1, [])
  else if key.length ≠ 16 then some (-1, [])
  else
    let len := toInt input.length
    let tmpOutPut := ssl.ecbDecrypt keyBits key input
    if alignType = 1 then
      let outputLen := toInt tmpOutPut.length
      -- `at(index)` with `index` the `size_t` of `out_len - 1`
      if outputLen ≤ 0 then none
      else
        let padding := schar (tmpOutPut.getD (outputLen.toNat - 1) 0)
        if outputLen ≠ len ∨ padding < 0 ∨ padding > 16 then some (-3, [])
        else some (0, tmpOutPut.take (outputLen - padding).toNat)
    else
      let outputLen := toInt (cstr tmpOutPut).length
      -- `assign` of a negative length
      if outputLen < 0 then none
      else some (0, (cstr tmpOutPut).take outputLen.toNat)

/-! ## The modes invert each other -/

variable {ssl}

theorem mix_cancel (v w : Block) :
    List.Vector.zipWith (· ^^^ ·) (List.Vector.zipWith (· ^^^ ·) v w) w = v :=
  zipWith_cancel (fun x y => by rw [UInt8.xor_assoc, UInt8.xor_self, UInt8.xor_zero]) v w

theorem length_cbcEncrypt (ssl : OpenSsl) (keyBits : Int) (key iv : Bytes) {s : Bytes}
    (hs : 16 ∣ s.length) :
    (ssl.cbcEncrypt keyBits key iv s).length = s.length := by
  rw [OpenSsl.cbcEncrypt, length_unblocks, Lib.length_cbcEncrypt, length_blocks,
    Nat.mul_div_cancel' hs]

theorem length_ecbEncrypt (ssl : OpenSsl) (keyBits : Int) (key : Bytes) {s : Bytes}
    (hs : 16 ∣ s.length) :
    (ssl.ecbEncrypt keyBits key s).length = s.length := by
  rw [OpenSsl.ecbEncrypt, length_unblocks, List.length_map, length_blocks, Nat.mul_div_cancel' hs]

theorem cbcDecrypt_cbcEncrypt (h : ssl.Inverts) {key : Bytes} (hk : key.length = 16) (iv : Bytes)
    {s : Bytes} (hs : 16 ∣ s.length) :
    ssl.cbcDecrypt 128 key iv (ssl.cbcEncrypt 128 key iv s) = s := by
  rw [OpenSsl.cbcDecrypt, OpenSsl.cbcEncrypt, blocks_unblocks 0 (by decide),
    Lib.cbcDecrypt_cbcEncrypt mix_cancel (h key hk), unblocks_blocks 0 (by decide) hs]

theorem ecbDecrypt_ecbEncrypt (h : ssl.Inverts) {key : Bytes} (hk : key.length = 16)
    {s : Bytes} (hs : 16 ∣ s.length) :
    ssl.ecbDecrypt 128 key (ssl.ecbEncrypt 128 key s) = s := by
  have hmap : (ssl.decrypt 128 key ∘ ssl.encrypt 128 key) = id := funext (h key hk)
  rw [OpenSsl.ecbDecrypt, OpenSsl.ecbEncrypt, blocks_unblocks 0 (by decide), List.map_map, hmap,
    List.map_id, unblocks_blocks 0 (by decide) hs]

/-! ## Lengths -/

theorem toInt_of_lt {n : Nat} (h : n < 2 ^ 31) : toInt n = n := Int32.toInt_ofNat_of_lt h

theorem toInt_le (n : Nat) : toInt n ≤ n := by
  rw [toInt, Int32.toInt_ofNat', Int.bmod_def]
  have hmod : (n : Int) % Int32.size ≤ n := by
    rw [← Int.natCast_emod]
    exact Int.ofNat_le.mpr (Nat.mod_le _ _)
  split_ifs
  · exact hmod
  · omega

theorem outLen_natCast (n : Nat) : outLen n = ((n / 16 * 16 + 16 : Nat) : Int) := by
  rw [outLen, Int.tdiv_eq_ediv_of_nonneg (Int.natCast_nonneg n)]
  omega

/-- Lengths whose padded length is an `int`. -/
def Fits (n : Nat) : Prop := n < 2 ^ 31 - 16

instance (n : Nat) : Decidable (Fits n) := by
  unfold Fits
  infer_instance

theorem outLen_lt_iff {n : Nat} : ¬ 2 ^ 31 ≤ outLen n ↔ Fits n := by
  rw [outLen_natCast, Fits]
  omega

/-- What the two checks of an encryption leave: the `int` counts a front of the input. -/
theorem counted_front {x : Bytes} (h : ¬ (toInt x.length < 0 ∨ 2 ^ 31 ≤ outLen (toInt x.length))) :
    ∃ n : Nat, toInt x.length = n ∧ Fits n ∧ n ≤ x.length := by
  rw [not_or, Int.not_lt] at h
  obtain ⟨n, hn⟩ := Int.eq_ofNat_of_zero_le h.1
  have hle := toInt_le x.length
  refine ⟨n, hn, ?_, by omega⟩
  rw [← outLen_lt_iff, ← hn]
  exact h.2

/-! ## Filling up -/

/-- The buffer of an input that is counted whole. -/
abbrev filled (alignType : Int) (x : Bytes) : Bytes :=
  aligned alignType x x.length (x.length / 16 * 16 + 16)

theorem aligned_take (alignType : Int) {x : Bytes} {n : Nat} (h : n ≤ x.length) :
    aligned alignType x n (n / 16 * 16 + 16) = filled alignType (x.take n) := by
  have hlen : (x.take n).length = n := List.length_take_of_le h
  rw [filled, hlen, aligned, aligned, List.take_take, Nat.min_self]

theorem filled_eq (alignType : Int) (x : Bytes) :
    filled alignType x = x ++ List.replicate (16 - x.length % 16)
      (if alignType = 1 then UInt8.ofNat (16 - x.length % 16) else 0) := by
  have hpad : x.length / 16 * 16 + 16 - x.length = 16 - x.length % 16 := by omega
  rw [filled, aligned, List.take_length, hpad]

theorem length_filled (alignType : Int) (x : Bytes) :
    (filled alignType x).length = x.length / 16 * 16 + 16 := by
  rw [filled_eq, List.length_append, List.length_replicate]
  omega

theorem dvd_length_filled (alignType : Int) (x : Bytes) : 16 ∣ (filled alignType x).length := by
  rw [length_filled]
  omega

theorem length_filled_lt {alignType : Int} {x : Bytes} (h : Fits x.length) :
    (filled alignType x).length < 2 ^ 31 := by
  rw [length_filled]
  unfold Fits at h
  omega

/-- The last byte is the length of the filling. -/
theorem getD_filled (x : Bytes) :
    (filled 1 x).getD ((filled 1 x).length - 1) 0 = UInt8.ofNat (16 - x.length % 16) := by
  have hlt : (filled 1 x).length - 1 < (filled 1 x).length := by
    rw [length_filled]
    omega
  have hge : x.length ≤ (filled 1 x).length - 1 := by
    rw [length_filled]
    omega
  rw [List.getD_eq_getElem _ _ hlt]
  simp only [filled_eq] at hge ⊢
  rw [List.getElem_append_right hge, List.getElem_replicate, if_pos trivial]

theorem toNat_padding (x : Bytes) :
    (UInt8.ofNat (16 - x.length % 16)).toNat = 16 - x.length % 16 :=
  UInt8.toNat_ofNat_of_lt' (by show _ < 256; omega)

theorem schar_padding (x : Bytes) :
    schar (UInt8.ofNat (16 - x.length % 16)) = ((16 - x.length % 16 : Nat) : Int) := by
  rw [schar_of_lt, toNat_padding]
  rw [toNat_padding]
  omega

theorem take_filled (alignType : Int) (x : Bytes) :
    (filled alignType x).take x.length = x := by
  rw [filled_eq, List.take_left]

/-- A buffer filled with zeros ends the string. -/
theorem cstr_filled {alignType : Int} (ha : alignType ≠ 1) {x : Bytes} (h0 : 0 ∉ x) :
    0 ∈ filled alignType x ∧ cstr (filled alignType x) = x := by
  have hpos : 0 < 16 - x.length % 16 := by omega
  obtain ⟨m, hm⟩ := Nat.exists_eq_succ_of_ne_zero hpos.ne'
  rw [filled_eq, if_neg ha, hm, List.replicate_succ, cstr_append h0]
  exact ⟨List.mem_append_right _ List.mem_cons_self, List.append_nil x⟩

/-! ## What comes back -/

theorem aesCbcEncrypt_some {x key iv c : Bytes} {alignType keyBits : Int}
    (he : aesCbcEncrypt ssl x key iv alignType keyBits = some (0, c)) :
    ∃ n, Fits n ∧ n ≤ x.length ∧
      c = ssl.cbcEncrypt keyBits key iv (filled alignType (x.take n)) := by
  rw [aesCbcEncrypt] at he
  split_ifs at he with hbad hint
  · simp at he
  · obtain ⟨n, hn, hfits, hle⟩ := counted_front hint
    simp only [hn, outLen_natCast, Int.toNat_natCast, aligned_take alignType hle, Option.some.injEq,
      Prod.mk.injEq, true_and] at he
    exact ⟨n, hfits, hle, he.symm⟩

theorem aesEcbEncrypt_some {x key c : Bytes} {alignType keyBits : Int}
    (he : aesEcbEncrypt ssl x key alignType keyBits = some (0, c)) :
    ∃ n, Fits n ∧ n ≤ x.length ∧
      c = ssl.ecbEncrypt keyBits key (filled alignType (x.take n)) := by
  rw [aesEcbEncrypt] at he
  split_ifs at he with hbad hint
  · simp at he
  · obtain ⟨n, hn, hfits, hle⟩ := counted_front hint
    simp only [hn, outLen_natCast, Int.toNat_natCast, aligned_take alignType hle, Option.some.injEq,
      Prod.mk.injEq, true_and] at he
    exact ⟨n, hfits, hle, he.symm⟩

/-- The `int`s of an input that fits. -/
theorem counted_of_fits {x : Bytes} (hx : Fits x.length) : toInt x.length = x.length ∧
    ¬ (toInt x.length < 0 ∨ 2 ^ 31 ≤ outLen (toInt x.length)) := by
  have hn : toInt x.length = x.length := toInt_of_lt (by unfold Fits at hx; omega)
  rw [hn, not_or, outLen_lt_iff]
  exact ⟨rfl, by omega, hx⟩

theorem aesCbcEncrypt_fits {x key iv : Bytes} (hk : key.length = 16) (hiv : iv.length = 16)
    (hne : x ≠ []) (hx : Fits x.length) (alignType keyBits : Int) :
    aesCbcEncrypt ssl x key iv alignType keyBits =
      some (0, ssl.cbcEncrypt keyBits key iv (filled alignType x)) := by
  obtain ⟨hn, hint⟩ := counted_of_fits hx
  have hpos := List.length_pos_of_ne_nil hne
  simp only [aesCbcEncrypt]
  rw [if_neg (by omega), if_neg hint, hn, outLen_natCast, Int.toNat_natCast, Int.toNat_natCast]

theorem aesEcbEncrypt_fits {x key : Bytes} (hk : key.length = 16) (hne : x ≠ [])
    (hx : Fits x.length) (alignType keyBits : Int) :
    aesEcbEncrypt ssl x key alignType keyBits =
      some (0, ssl.ecbEncrypt keyBits key (filled alignType x)) := by
  obtain ⟨hn, hint⟩ := counted_of_fits hx
  have hpos := List.length_pos_of_ne_nil hne
  simp only [aesEcbEncrypt]
  rw [if_neg (by omega), if_neg hint, hn, outLen_natCast, Int.toNat_natCast, Int.toNat_natCast]

/-- What the filled buffer is cut back to by the length in its last byte. -/
theorem strip_filled (x : Bytes) (len : Nat) (hlen : len = (filled 1 x).length) :
    let padding := schar ((filled 1 x).getD (len - 1) 0)
    ¬ (padding < 0 ∨ padding > 16) ∧ (filled 1 x).take ((len : Int) - padding).toNat = x := by
  subst hlen
  intro padding
  have hpad : padding = ((16 - x.length % 16 : Nat) : Int) := by
    rw [← schar_padding, ← getD_filled]
  have hcut : (((filled 1 x).length : Int) - padding).toNat = x.length := by
    rw [hpad, length_filled]
    omega
  exact ⟨by omega, by rw [hcut, take_filled]⟩

/-- A cipher as long as the filled buffer: its length is an `int`, and it is whole blocks. -/
theorem cipher_length {x c : Bytes} {alignType : Int} (hx : Fits x.length)
    (hlen : c.length = (filled alignType x).length) :
    0 < c.length ∧ toInt c.length = c.length ∧ ¬ (c = [] ∨ c.length % 16 ≠ 0) := by
  have hpos : 0 < c.length := by
    rw [hlen, length_filled]
    omega
  refine ⟨hpos, toInt_of_lt (by rw [hlen]; exact length_filled_lt hx), ?_⟩
  rintro (rfl | hmod)
  · exact absurd hpos (by decide)
  · exact hmod (Nat.mod_eq_zero_of_dvd (hlen ▸ dvd_length_filled alignType x))

theorem aesCbcDecrypt_filled (h : ssl.Inverts) {x key iv : Bytes} {alignType : Int}
    (hk : key.length = 16) (hiv : iv.length = 16) (hx : Fits x.length)
    (h0 : alignType ≠ 1 → 0 ∉ x) :
    aesCbcDecrypt ssl (ssl.cbcEncrypt 128 key iv (filled alignType x)) key iv alignType 128 =
      some (0, x) := by
  have hdvd := dvd_length_filled alignType x
  have hdec := cbcDecrypt_cbcEncrypt h hk iv hdvd
  have hlen := length_cbcEncrypt ssl 128 key iv hdvd
  generalize ssl.cbcEncrypt 128 key iv (filled alignType x) = c at hdec hlen
  obtain ⟨hpos, hint, hin⟩ := cipher_length hx hlen
  simp only [aesCbcDecrypt]
  rw [if_neg hin, if_neg (by omega), if_neg (by omega), hint, Int.toNat_natCast, List.take_length,
    hdec]
  by_cases ha : alignType = 1
  · subst ha
    obtain ⟨hpad, htake⟩ := strip_filled x c.length hlen
    rw [if_pos rfl, if_neg hpad, htake]
  · obtain ⟨hmem, hcstr⟩ := cstr_filled ha (h0 ha)
    rw [if_neg ha, if_pos hmem, hcstr]

theorem aesEcbDecrypt_filled (h : ssl.Inverts) {x key : Bytes} {alignType : Int}
    (hk : key.length = 16) (hx : Fits x.length) (h0 : alignType ≠ 1 → 0 ∉ x) :
    aesEcbDecrypt ssl (ssl.ecbEncrypt 128 key (filled alignType x)) key alignType 128 =
      some (0, x) := by
  have hdvd := dvd_length_filled alignType x
  have hdec := ecbDecrypt_ecbEncrypt h hk hdvd
  have hlen := length_ecbEncrypt ssl 128 key hdvd
  generalize ssl.ecbEncrypt 128 key (filled alignType x) = c at hdec hlen
  obtain ⟨hpos, hint, hin⟩ := cipher_length hx hlen
  simp only [aesEcbDecrypt]
  rw [if_neg hin, if_neg (by omega), hdec]
  by_cases ha : alignType = 1
  · subst ha
    obtain ⟨hpad, htake⟩ := strip_filled x c.length hlen
    rw [if_pos rfl, ← hlen, hint, if_neg (by omega), Int.toNat_natCast, if_neg, htake]
    rintro (hne | hbad)
    · exact hne rfl
    · exact hpad hbad
  · obtain ⟨-, hcstr⟩ := cstr_filled ha (h0 ha)
    obtain ⟨hn, -⟩ := counted_of_fits hx
    rw [if_neg ha, hcstr, hn, if_neg (by omega), Int.toNat_natCast, List.take_length]

variable (ssl)

/-- `aesCbcEncrypt` and `aesCbcDecrypt` return 0 and give `x` back. -/
def CbcBack (key iv : Bytes) (alignType : Int) (x : Bytes) : Prop :=
  ∃ c, aesCbcEncrypt ssl x key iv alignType 128 = some (0, c) ∧
    aesCbcDecrypt ssl c key iv alignType 128 = some (0, x)

/-- `aesEcbEncrypt` and `aesEcbDecrypt` return 0 and give `x` back. -/
def EcbBack (key : Bytes) (alignType : Int) (x : Bytes) : Prop :=
  ∃ c, aesEcbEncrypt ssl x key alignType 128 = some (0, c) ∧
    aesEcbDecrypt ssl c key alignType 128 = some (0, x)

variable {ssl}

/-- A front that is the whole of the input. -/
theorem fits_of_take {x : Bytes} {n : Nat} (hn : Fits n) (hle : n ≤ x.length) (h : x.take n = x) :
    Fits x.length := by
  have hlen : (x.take n).length = n := List.length_take_of_le hle
  rw [h] at hlen
  rwa [hlen]

theorem cbcBack_iff (h : ssl.Inverts) {x key iv : Bytes} {alignType : Int} (hk : key.length = 16)
    (hiv : iv.length = 16) (hne : x ≠ []) (h0 : alignType ≠ 1 → 0 ∉ x) :
    CbcBack ssl key iv alignType x ↔ Fits x.length := by
  constructor
  · rintro ⟨c, henc, hdec⟩
    obtain ⟨n, hn, hle, rfl⟩ := aesCbcEncrypt_some henc
    have htake : Fits (x.take n).length := by rwa [List.length_take_of_le hle]
    rw [aesCbcDecrypt_filled h hk hiv htake fun ha hmem => h0 ha (List.mem_of_mem_take hmem)] at hdec
    exact fits_of_take hn hle (Prod.mk.inj (Option.some.inj hdec)).2
  · intro hx
    exact ⟨_, aesCbcEncrypt_fits hk hiv hne hx alignType 128,
      aesCbcDecrypt_filled h hk hiv hx h0⟩

theorem ecbBack_iff (h : ssl.Inverts) {x key : Bytes} {alignType : Int} (hk : key.length = 16)
    (hne : x ≠ []) (h0 : alignType ≠ 1 → 0 ∉ x) :
    EcbBack ssl key alignType x ↔ Fits x.length := by
  constructor
  · rintro ⟨c, henc, hdec⟩
    obtain ⟨n, hn, hle, rfl⟩ := aesEcbEncrypt_some henc
    have htake : Fits (x.take n).length := by rwa [List.length_take_of_le hle]
    rw [aesEcbDecrypt_filled h hk htake fun ha hmem => h0 ha (List.mem_of_mem_take hmem)] at hdec
    exact fits_of_take hn hle (Prod.mk.inj (Option.some.inj hdec)).2
  · intro hx
    exact ⟨_, aesEcbEncrypt_fits hk hne hx alignType 128, aesEcbDecrypt_filled h hk hx h0⟩

end AES
end CmakeFrame
