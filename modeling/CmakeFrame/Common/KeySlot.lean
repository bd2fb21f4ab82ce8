import CmakeFrame.Lib.Crc
import CmakeFrame.Lib.Search

/-!
# The slot of a key

`redisAsyn` and `rediscluster` each hold a copy of the same three pieces: a table, the CRC16 loop
over it and the search for the hash tag. Here they are written once, over the table, together with
what the specification of Redis Cluster says.

* `crc16Loop`, `hashSlot`: the code of both copies.
* `hashTag`, `crc16Xmodem`: the specification.
* `crc16Loop_eq`: with the entries of CRC16-XMODEM in the table the loop is the bitwise CRC.
* `hashSlot_eq`, `toNat_hashSlot`: and the slot is that of the hash tag.
-/

namespace CmakeFrame
namespace KeySlot

open Lib

/-- A `char`, which is signed, promoted to `int`; the bits of the `int`. -/
def charInt (c : UInt8) : UInt32 := c.toInt8.toInt32.toUInt32

/-- One turn of the loop: `crc = (crc << 8) ^ crc16tab[((crc >> 8) ^ *buf++) & 0x00FF]`. -/
def crc16Turn (crc16tab : List UInt16) (crc : UInt16) (c : UInt8) : UInt16 :=
  (crc <<< 8) ^^^ crc16tab.getD (((crc >>> 8).toUInt32 ^^^ charInt c) &&& 0x00FF).toNat 0

/-- `crc16(buf, len)`. -/
def crc16Loop (crc16tab : List UInt16) (buf : Bytes) : UInt16 :=
  buf.foldl (crc16Turn crc16tab) 0

/-- `keyHashSlot(key, len)`. -/
def hashSlot (crc16 : Bytes → UInt16) (key : Bytes) : UInt16 :=
  match findByte 123 key with
  | none => crc16 key &&& 0x3FFF
  | some s =>
    match findByte 125 (key.drop (s + 1)) with
    | none => crc16 key &&& 0x3FFF
    | some n =>
      if n = 0 then crc16 key &&& 0x3FFF else crc16 ((key.drop (s + 1)).take n) &&& 0x3FFF

/-! ## The specification -/

/-- CRC16-XMODEM: the polynomial 0x1021, from 0, bit by bit. -/
def crc16Xmodem (text : Bytes) : BitVec 16 := crcBitwise 0x1021#16 (text.map UInt8.toBitVec)

/-- The bytes between the first `{` and the first `}` behind it, where both are there and
something is between them; else the whole key. -/
def hashTag (key : Bytes) : Bytes :=
  let behind := (key.dropWhile (· ≠ 123)).drop 1
  let tag := behind.takeWhile (· ≠ 125)
  if 125 ∈ behind ∧ tag ≠ [] then tag else key

theorem ne_of_notMem {c : UInt8} {s : Bytes} (h : c ∉ s) : ∀ a ∈ s, decide (a ≠ c) = true := by
  intro a ha
  rw [decide_eq_true_iff]
  rintro rfl
  exact h ha

/-- A key is read from its first `{`. -/
theorem hashTag_brace {before : Bytes} (behind : Bytes) (hb : 123 ∉ before) :
    hashTag (before ++ 123 :: behind)
      = if 125 ∈ behind ∧ behind.takeWhile (· ≠ 125) ≠ [] then behind.takeWhile (· ≠ 125)
        else before ++ 123 :: behind := by
  have hskip : (before ++ 123 :: behind).dropWhile (· ≠ 123) = 123 :: behind := by
    rw [List.dropWhile_append_of_pos (ne_of_notMem hb)]
    simp
  simp only [hashTag, hskip, List.drop_succ_cons, List.drop_zero]

theorem takeWhile_close {tag : Bytes} (after : Bytes) (ht : 125 ∉ tag) :
    (tag ++ 125 :: after).takeWhile (· ≠ 125) = tag := by
  rw [List.takeWhile_append_of_pos (ne_of_notMem ht)]
  simp

theorem hashTag_no_open {key : Bytes} (h : 123 ∉ key) : hashTag key = key := by
  have hskip : key.dropWhile (· ≠ 123) = [] := List.dropWhile_eq_nil_iff.mpr (ne_of_notMem h)
  simp only [hashTag, hskip]
  simp

/-- Only the first pair of braces counts, and the first closing one. -/
example : hashTag [97, 123, 125, 123, 98, 125] = [97, 123, 125, 123, 98, 125] ∧
    hashTag [97, 123, 123, 98, 125, 125] = [123, 98] := by decide

/-! ## The code and the specification -/

/-- The sign of a `char` is masked away. -/
theorem crc16Turn_index (crc : UInt16) (c : UInt8) :
    (((crc >>> 8).toUInt32 ^^^ charInt c) &&& 0x00FF).toNat
      = (crcIndex crc.toBitVec c.toBitVec).toNat := by
  have hbits : (((crc >>> 8).toUInt32 ^^^ charInt c) &&& 0x00FF).toBitVec
      = (crcIndex crc.toBitVec c.toBitVec).setWidth 32 := by
    have hmask : (0x00FF : UInt32).toBitVec = (BitVec.allOnes 8).setWidth 32 := by decide
    have hshift : (crc >>> 8).toBitVec = crc.toBitVec >>> 8 := by
      simp
    have hsign : (charInt c).toBitVec = c.toBitVec.signExtend 32 := by
      simp [charInt]
    rw [UInt32.toBitVec_and, UInt32.toBitVec_xor, hsign, hmask, UInt16.toBitVec_toUInt32, hshift]
    apply BitVec.eq_of_getLsbD_eq
    intro i hi
    simp only [crcIndex, BitVec.getLsbD_and, BitVec.getLsbD_xor, BitVec.getLsbD_setWidth,
      BitVec.getLsbD_allOnes, BitVec.getLsbD_ushiftRight, BitVec.getLsbD_signExtend]
    by_cases h8 : i < 8
    · simp [h8, hi]
    · simp [h8, BitVec.getLsbD_of_ge c.toBitVec i (by omega)]
  have hlt : (crcIndex crc.toBitVec c.toBitVec).toNat < 2 ^ 32 := by
    have := (crcIndex crc.toBitVec c.toBitVec).isLt
    omega
  calc (((crc >>> 8).toUInt32 ^^^ charInt c) &&& 0x00FF).toNat
      = ((crcIndex crc.toBitVec c.toBitVec).setWidth 32).toNat := congrArg BitVec.toNat hbits
    _ = (crcIndex crc.toBitVec c.toBitVec).toNat := by
        rw [BitVec.toNat_setWidth, Nat.mod_eq_of_lt hlt]

/-- The entries of a CRC16-XMODEM table. -/
def XmodemTable (crc16tab : List UInt16) : Prop :=
  ∀ i < 256, (crc16tab.getD i 0).toBitVec = crcByte 0x1021#16 0#16 (BitVec.ofNat 8 i)

instance (crc16tab : List UInt16) : Decidable (XmodemTable crc16tab) :=
  Nat.decidableBallLT 256 fun i _ =>
    (crc16tab.getD i 0).toBitVec = crcByte 0x1021#16 0#16 (BitVec.ofNat 8 i)

/-- One turn is a look into the table. -/
theorem crc16Turn_eq (crc16tab : List UInt16) (crc : UInt16) (c : UInt8) :
    (crc16Turn crc16tab crc c).toBitVec = (crc.toBitVec <<< 8) ^^^
      (crc16tab.getD (crcIndex crc.toBitVec c.toBitVec).toNat 0).toBitVec := by
  rw [crc16Turn, crc16Turn_index, UInt16.toBitVec_xor]
  simp

/-- The loop over the table is the bitwise CRC. -/
theorem crc16Loop_eq {crc16tab : List UInt16} (h : XmodemTable crc16tab) (buf : Bytes) :
    (crc16Loop crc16tab buf).toBitVec = crc16Xmodem buf := by
  have htable : ∀ i : BitVec 8, (crc16tab.getD i.toNat 0).toBitVec = crcByte 0x1021#16 0#16 i := by
    intro i
    rw [h _ i.isLt, BitVec.ofNat_toNat, BitVec.setWidth_eq]
  rw [crc16Xmodem, ← crc_table 0x1021#16 (by decide) _ htable, List.foldl_map]
  exact (List.foldl_hom UInt16.toBitVec fun crc c => (crc16Turn_eq crc16tab crc c).symm).symm

/-- The two searches find the hash tag. -/
theorem hashSlot_eq (crc16 : Bytes → UInt16) (key : Bytes) :
    hashSlot crc16 key = crc16 (hashTag key) &&& 0x3FFF := by
  unfold hashSlot
  cases hs : findByte 123 key with
  | none => rw [hashTag_no_open (findByte_eq_none.mp hs)]
  | some s =>
    obtain ⟨hkey, hbefore⟩ := findByte_eq_some hs
    have htag := hashTag_brace (key.drop (s + 1)) hbefore
    rw [← hkey] at htag
    rw [htag]
    cases hn : findByte 125 (key.drop (s + 1)) with
    | none =>
      have hno : ¬ (125 ∈ key.drop (s + 1) ∧ (key.drop (s + 1)).takeWhile (· ≠ 125) ≠ []) :=
        fun h => findByte_eq_none.mp hn h.1
      rw [if_neg hno]
      simp only [hn]
    | some n =>
      obtain ⟨hrest, hclose⟩ := findByte_eq_some hn
      have hmem : 125 ∈ key.drop (s + 1) := by
        rw [hrest]
        simp
      have htake : (key.drop (s + 1)).takeWhile (· ≠ 125) = (key.drop (s + 1)).take n := by
        conv => lhs; rw [hrest]
        exact takeWhile_close _ hclose
      have hempty : (key.drop (s + 1)).take n = [] ↔ n = 0 := by
        have hpos : key.drop (s + 1) ≠ [] := List.ne_nil_of_mem hmem
        simp only [List.take_eq_nil_iff, hpos, or_false]
      by_cases h0 : n = 0
      · have hno : ¬ (125 ∈ key.drop (s + 1) ∧ (key.drop (s + 1)).takeWhile (· ≠ 125) ≠ []) := by
          rw [htake]
          exact fun h => h.2 (hempty.mpr h0)
        rw [if_neg hno]
        simp only [hn]
        rw [if_pos h0]
      · have hyes : 125 ∈ key.drop (s + 1) ∧ (key.drop (s + 1)).takeWhile (· ≠ 125) ≠ [] := by
          rw [htake]
          exact ⟨hmem, fun h => h0 (hempty.mp h)⟩
        rw [if_pos hyes, htake]
        simp only [hn]
        rw [if_neg h0]

/-- Masked to its 14 low bits, the CRC is a slot. -/
theorem toNat_hashSlot {crc16tab : List UInt16} (h : XmodemTable crc16tab) (key : Bytes) :
    (hashSlot (crc16Loop crc16tab) key).toNat = (crc16Xmodem (hashTag key)).toNat % 16384 := by
  have hmask : (0x3FFF : UInt16).toNat = 2 ^ 14 - 1 := by decide
  rw [hashSlot_eq, UInt16.toNat_and, hmask, Nat.and_two_pow_sub_one_eq_mod, ← crc16Loop_eq h]
  rfl

end KeySlot
end CmakeFrame
