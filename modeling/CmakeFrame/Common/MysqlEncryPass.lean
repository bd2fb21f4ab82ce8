import CmakeFrame.Common.AES
import CmakeFrame.Common.Base64Text

/-!
# `MysqlEncryPass.cpp`: passwords

`common/MysqlEncryPass.cpp`: its own copy of the CBC functions, and Base64 around them.

* `aesEncryption`, `aesDecrypt`: the string that is returned; `none` as in `AES`.
* `passBack_iff`: the passwords that come back.
* `aes_back_iff`: all three pairs of functions.
-/

namespace CmakeFrame
namespace MysqlEncryPass

open Lib AES

/-! ## The functions -/

/-- `key`: four times `rmcs`. -/
def key : Bytes := [114, 109, 99, 115, 114, 109, 99, 115, 114, 109, 99, 115, 114, 109, 99, 115]

/-- `iv`: three times `mwnet`, and `m`. -/
def iv : Bytes := [109, 119, 110, 101, 116, 109, 119, 110, 101, 116, 109, 119, 110, 101, 116, 109]

variable (ssl : OpenSsl)

/-- `aes_cbcEncrypt(input, len, key, iv, output)`: the filling is written behind `input`. -/
def aesCbcEncrypt (input : Bytes) (len : Nat) (key iv : Bytes) : Bytes :=
  let padding := 16 - len % 16
  ssl.cbcEncrypt 128 key iv (input.take len ++ List.replicate padding (UInt8.ofNat padding))

/-- `aes_cbcDecrypt(input, len, key, iv, output, outlen)`: what it returns, `output`, and
`outlen`, which was 0. -/
def aesCbcDecrypt (input : Bytes) (len : Nat) (key iv : Bytes) : Int × Bytes × Nat :=
  let output := ssl.cbcDecrypt 128 key iv (input.take len)
  -- an `unsigned char`, so it is never below 0
  let padding := (output.getD (len - 1) 0).toNat
  if padding > 16 then (-1, output, 0)
  else (0, output.take (len - padding) ++ List.replicate padding 0, len - padding)

/-- `aesEncryption(pass)`. -/
def aesEncryption (pass : Bytes) : Option Bytes :=
  let inLen := toInt pass.length
  if inLen < 0 ∨ 2 ^ 31 ≤ outLen inLen then none
  else
    let express := aesCbcEncrypt ssl pass inLen.toNat key iv
    match Base64.Copy.common.encode express [] with
    | (true, result) => some result
    | (false, _) => some []

/-- `aesDecrypt(pass)`. -/
def aesDecrypt (pass : Bytes) : Option Bytes :=
  if pass = [] then some []
  else
    match Base64.Copy.common.decode pass [] with
    | (false, _) => some []
    | (true, result) =>
      if result.length % 16 ≠ 0 then some []
      else
        let len := toInt result.length
        -- a negative size for `new[]`, or no last byte
        if len ≤ 0 then none
        else
          let (_, pExpre, outLen) := aesCbcDecrypt ssl result len.toNat key iv
          some (pExpre.take outLen)

/-! ## What comes back -/

/-- `aesDecrypt` gives back the password that `aesEncryption` was given. -/
def PassBack (p : Bytes) : Prop :=
  ∃ c, aesEncryption ssl p = some c ∧ aesDecrypt ssl c = some p

variable {ssl}

/-- The filling of this copy is that of `AES.cpp`. -/
theorem aesCbcEncrypt_eq (x : Bytes) (n : Nat) (hn : n ≤ x.length) (key iv : Bytes) :
    aesCbcEncrypt ssl x n key iv = ssl.cbcEncrypt 128 key iv (filled 1 (x.take n)) := by
  rw [filled_eq, if_pos rfl, List.length_take_of_le hn]
  rfl

theorem aesCbcDecrypt_filled (h : ssl.Inverts) {key : Bytes} (hk : key.length = 16) (iv x : Bytes) :
    aesCbcDecrypt ssl (ssl.cbcEncrypt 128 key iv (filled 1 x)) (filled 1 x).length key iv =
      (0, x ++ List.replicate (16 - x.length % 16) 0, x.length) := by
  have hdvd := dvd_length_filled 1 x
  have htake : (ssl.cbcEncrypt 128 key iv (filled 1 x)).take (filled 1 x).length =
      ssl.cbcEncrypt 128 key iv (filled 1 x) := by
    rw [← length_cbcEncrypt ssl 128 key iv hdvd, List.take_length]
  have hpad : ((filled 1 x).getD ((filled 1 x).length - 1) 0).toNat = 16 - x.length % 16 := by
    rw [getD_filled, toNat_padding]
  have hcut : (filled 1 x).length - (16 - x.length % 16) = x.length := by
    rw [length_filled]
    omega
  simp only [aesCbcDecrypt]
  rw [htake, cbcDecrypt_cbcEncrypt h hk iv hdvd, hpad, if_neg (by omega), hcut, take_filled]

/-- The text of a cipher is decoded and decrypted. -/
theorem aesDecrypt_encode (h : ssl.Inverts) {x : Bytes} (hx : Fits x.length) :
    aesDecrypt ssl (Base64.Copy.common.encode (ssl.cbcEncrypt 128 key iv (filled 1 x)) []).2 =
      some x := by
  have hdvd := dvd_length_filled 1 x
  have hlen := length_cbcEncrypt ssl 128 key iv hdvd
  have hkey : key.length = 16 := rfl
  have hdec := aesCbcDecrypt_filled h hkey iv x
  rw [← hlen] at hdec
  generalize ssl.cbcEncrypt 128 key iv (filled 1 x) = c at hlen hdec
  obtain ⟨hpos, hint, -⟩ := cipher_length hx hlen
  have hne : c ≠ [] := List.ne_nil_of_length_pos hpos
  have hback := Base64.decode_encode hne [] []
  rw [← Base64.Copy.encode_eq .common, ← Base64.Copy.decode_eq .common] at hback
  have htext : (Base64.Copy.common.encode c []).2 ≠ [] := by
    intro hnil
    rw [hnil] at hback
    exact absurd (Prod.mk.inj hback).1 (by decide)
  rw [aesDecrypt, if_neg htext, hback]
  simp only [hint, Int.toNat_natCast, hdec, List.take_left]
  rw [if_neg (not_not.mpr (Nat.mod_eq_zero_of_dvd (hlen ▸ hdvd))), if_neg (by omega)]

/-- A front of `n` bytes is encrypted. -/
theorem aesEncryption_eq (ssl : OpenSsl) {p : Bytes} {n : Nat} (hn : toInt p.length = n)
    (hfits : Fits n) (hle : n ≤ p.length) : aesEncryption ssl p = some
      (Base64.Copy.common.encode (ssl.cbcEncrypt 128 key iv (filled 1 (p.take n))) []).2 := by
  have hint : ¬ (toInt p.length < 0 ∨ 2 ^ 31 ≤ outLen (toInt p.length)) := by
    rw [hn, not_or, outLen_lt_iff]
    exact ⟨by omega, hfits⟩
  have hne : ssl.cbcEncrypt 128 key iv (filled 1 (p.take n)) ≠ [] := by
    refine List.ne_nil_of_length_pos ?_
    rw [length_cbcEncrypt ssl 128 key iv (dvd_length_filled 1 _), length_filled]
    omega
  simp only [aesEncryption, if_neg hint]
  rw [hn, Int.toNat_natCast, aesCbcEncrypt_eq p n hle, Base64.Copy.encode_eq, Base64.encode,
    if_neg hne]

theorem passBack_iff (h : ssl.Inverts) (p : Bytes) : PassBack ssl p ↔ Fits p.length := by
  constructor
  · rintro ⟨c, henc, hdec⟩
    have hint : ¬ (toInt p.length < 0 ∨ 2 ^ 31 ≤ outLen (toInt p.length)) := by
      intro hbad
      rw [aesEncryption, if_pos hbad] at henc
      cases henc
    obtain ⟨n, hn, hfits, hle⟩ := counted_front hint
    obtain rfl := Option.some.inj ((aesEncryption_eq ssl hn hfits hle).symm.trans henc)
    have htake : Fits (p.take n).length := by rwa [List.length_take_of_le hle]
    rw [aesDecrypt_encode h htake] at hdec
    exact fits_of_take hfits hle (Option.some.inj hdec)
  · intro hp
    have henc := aesEncryption_eq ssl (counted_of_fits hp).1 hp le_rfl
    rw [List.take_length] at henc
    exact ⟨_, henc, aesDecrypt_encode h hp⟩

/-- Under every 16-byte key and `iv`, with 128 key bits, the CBC and the ECB functions return 0 and
give a nonempty input back just if its padded length is an `int`: any bytes with `alignType` 1,
bytes without a NUL with `alignType` 0. So it is with passwords, the empty one included. -/
theorem aes_back_iff (ssl : OpenSsl) (h : ssl.Inverts) :
    (∀ key iv : Bytes, key.length = 16 → iv.length = 16 → ∀ x ≠ [],
      ((CbcBack ssl key iv 1 x ↔ Fits x.length) ∧ (EcbBack ssl key 1 x ↔ Fits x.length)) ∧
      (0 ∉ x → (CbcBack ssl key iv 0 x ↔ Fits x.length) ∧
        (EcbBack ssl key 0 x ↔ Fits x.length))) ∧
    ∀ p, PassBack ssl p ↔ Fits p.length := by
  refine ⟨fun key iv hk hiv x hne => ⟨⟨?_, ?_⟩, fun h0 => ⟨?_, ?_⟩⟩, passBack_iff h⟩
  · exact cbcBack_iff h hk hiv hne fun ha => absurd rfl ha
  · exact ecbBack_iff h hk hne fun ha => absurd rfl ha
  · exact cbcBack_iff h hk hiv hne fun _ => h0
  · exact ecbBack_iff h hk hne fun _ => h0

/-! ## AES on two blocks -/

/-- `0123456789abcdef`. -/
def sampleKey : Bytes := [48, 49, 50, 51, 52, 53, 54, 55, 56, 57, 97, 98, 99, 100, 101, 102]

/-- The filled block of the string `a`, and what AES makes of it under `sampleKey`. -/
def sampleBlock : Block × Block :=
  (⟨[97, 15, 15, 15, 15, 15, 15, 15, 15, 15, 15, 15, 15, 15, 15, 15], rfl⟩,
    ⟨[9, 80, 1, 61, 119, 237, 41, 5, 206, 80, 99, 126, 202, 84, 66, 238], rfl⟩)

/-- The same block mixed with `iv`, and what AES makes of it under `key`. -/
def passBlock : Block × Block :=
  (⟨[12, 120, 97, 106, 123, 98, 120, 97, 106, 123, 98, 120, 97, 106, 123, 98], rfl⟩,
    ⟨[159, 111, 103, 254, 72, 209, 42, 71, 229, 38, 166, 71, 100, 117, 241, 166], rfl⟩)

/-- AES on these blocks; it exchanges each pair and leaves other blocks alone. -/
def sampleCipher (_ : Int) (k : Bytes) : Equiv.Perm Block :=
  if k = sampleKey then Equiv.swap sampleBlock.1 sampleBlock.2
  else if k = key then Equiv.swap passBlock.1 passBlock.2
  else 1

def sampleSsl : OpenSsl := ⟨fun n k => sampleCipher n k, fun n k => (sampleCipher n k).symm⟩

theorem sampleSsl_inverts : sampleSsl.Inverts := fun k _ b => (sampleCipher 128 k).symm_apply_apply b

/-- The string `a` with an `iv` of zeros, and the password `a`. -/
theorem aes_back_sample :
    CbcBack sampleSsl sampleKey (List.replicate 16 0) 1 [97] ∧ EcbBack sampleSsl sampleKey 1 [97] ∧
      PassBack sampleSsl [97] := by
  obtain ⟨hstrings, hpass⟩ := aes_back_iff sampleSsl sampleSsl_inverts
  obtain ⟨hcbc, hecb⟩ := (hstrings sampleKey (List.replicate 16 0) rfl rfl [97] (by decide)).1
  exact ⟨hcbc.mpr (by decide), hecb.mpr (by decide), (hpass [97]).mpr (by decide)⟩

/-- 2^32 times `a`: the `int` is 0, so the encryptions refuse it as empty, and the password is taken
for the empty one. -/
theorem aes_back_fails :
    let x : Bytes := List.replicate (2 ^ 32) 97
    let iv : Bytes := List.replicate 16 0
    (AES.aesCbcEncrypt sampleSsl x sampleKey iv 1 128 = some (-1, []) ∧
      aesEcbEncrypt sampleSsl x sampleKey 1 128 = some (-1, [])) ∧
    ¬ CbcBack sampleSsl sampleKey iv 1 x ∧ ¬ EcbBack sampleSsl sampleKey 1 x ∧
      ¬ PassBack sampleSsl x := by
  intro x iv
  have hlen : x.length = 2 ^ 32 := List.length_replicate
  have hint : toInt x.length = 0 := by rw [hlen]; decide
  have hne : x ≠ [] := List.ne_nil_of_length_pos (by rw [hlen]; decide)
  have hnot : ¬ Fits x.length := by rw [hlen]; decide
  clear_value x
  refine ⟨⟨?_, ?_⟩, fun h => hnot ?_, fun h => hnot ?_, fun h => hnot ?_⟩
  · rw [AES.aesCbcEncrypt, if_pos (.inl hint)]
  · rw [aesEcbEncrypt, if_pos (.inl hint)]
  · exact (cbcBack_iff sampleSsl_inverts rfl rfl hne fun ha => absurd rfl ha).mp h
  · exact (ecbBack_iff sampleSsl_inverts rfl hne fun ha => absurd rfl ha).mp h
  · exact (passBack_iff sampleSsl_inverts x).mp h

end MysqlEncryPass
end CmakeFrame
