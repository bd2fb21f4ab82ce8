import CmakeFrame.Lib.BitFields
import Mathlib.Data.List.Nodup
import Mathlib.Data.List.Range
import Mathlib.Tactic.Common

/-!
# The numbers of connections

`uniqueNumId` packs the local time, the number of the node and a running number into 64 bits. The
running number is the 32-bit counter `UniqueTail`, which has been counted up by one, modulo
`0x03ffff`. Its comment promises 262143 different numbers in one second.

* `uniqueNumId`; `uniqueNumIds`: what consecutive calls in one second return.
* `uniqueNumId_inj`: the packing loses nothing.
* `Spans`: when the running numbers of the calls are all different; `2^32` is no multiple of
  `0x03ffff`, so behind the wrap of the counter the remainders begin anew while the last 16384 ones
  before it are still in use. `uniqueNumIds_nodup_iff`.
-/

namespace CmakeFrame
namespace LibeventTcpCli

open Lib

/-- `struct tm`, as far as `uniqueNumId` reads it. -/
structure Tm where
  tm_year : Nat
  tm_mon : Nat
  tm_mday : Nat
  tm_hour : Nat
  tm_min : Nat
  tm_sec : Nat
  year_lt : tm_year + 1900 < 2 ^ 31
  mon_lt : tm_mon < 12
  mday_pos : 0 < tm_mday
  mday_le : tm_mday ≤ 31
  hour_lt : tm_hour < 24
  min_lt : tm_min < 60
  sec_le : tm_sec ≤ 60

/-- What `uniqueNumId` takes of the local time: the year modulo 100 and the other numbers. -/
def Tm.stamp (tm : Tm) : List Nat :=
  [(tm.tm_year + 1900) % 100, tm.tm_mon + 1, tm.tm_mday, tm.tm_hour, tm.tm_min, tm.tm_sec]

/-- `static_cast<int64_t>(v & mask) << s` -/
def shifted (v mask : UInt32) (s : UInt64) : UInt64 := (v &&& mask).toUInt64 <<< s

/-- `uniqueNumId`, with the value of `UniqueTail` behind `incrementAndGet`. -/
def uniqueNumId (tm : Tm) (uniquId UniqueTail : UInt32) : UInt64 :=
  let nNodeid := uniquId % 8191
  let nNo := UniqueTail % 0x03ffff
  let nYear := UInt32.ofNat (tm.tm_year + 1900) % 100
  let nMonth := UInt32.ofNat (tm.tm_mon + 1)
  let nDay := UInt32.ofNat tm.tm_mday
  let nHour := UInt32.ofNat tm.tm_hour
  let nMin := UInt32.ofNat tm.tm_min
  let nSec := UInt32.ofNat tm.tm_sec
  shifted nYear 0x7f 57 ||| shifted nMonth 0x0f 53 ||| shifted nDay 0x1f 48 |||
    shifted nHour 0x1f 43 ||| shifted nMin 0x3f 37 ||| shifted nSec 0x3f 31 |||
    shifted nNodeid 0x01fff 18 ||| shifted nNo 0x03ffff 0

/-- What `k` consecutive calls in one second return, from the counter `UniqueTail` on. -/
def uniqueNumIds (tm : Tm) (uniquId UniqueTail : UInt32) : Nat → List UInt64
  | 0 => []
  | k + 1 => uniqueNumId tm uniquId (UniqueTail + 1) ::
      uniqueNumIds tm uniquId (UniqueTail + 1) k

/-! ## The packing -/

/-- A value that fits the mask is moved to its place. -/
theorem toNat_shifted {x mask : UInt32} {s : UInt64} {v w n : Nat} (hx : x.toNat = v)
    (hv : v < 2 ^ w) (hm : mask.toNat = 2 ^ w - 1) (hs : s.toNat = n) (hn : n < 64)
    (hle : w + n ≤ 64) : (shifted x mask s).toNat = v <<< n := by
  have hlt : v <<< n < 2 ^ 64 := by
    rw [Nat.shiftLeft_eq]
    calc v * 2 ^ n
        _ < 2 ^ w * 2 ^ n := Nat.mul_lt_mul_of_pos_right hv (Nat.two_pow_pos n)
        _ = 2 ^ (w + n) := (Nat.pow_add 2 w n).symm
        _ ≤ 2 ^ 64 := Nat.pow_le_pow_right (by decide) hle
  rw [shifted, UInt64.toNat_shiftLeft, UInt32.toNat_toUInt64, UInt32.toNat_and, hm, hx,
    Nat.and_two_pow_sub_one_eq_mod, hs, Nat.mod_eq_of_lt hn, Nat.mod_eq_of_lt hv,
    Nat.mod_eq_of_lt hlt]

theorem toNat_ofNat_of_lt {v : Nat} (h : v < 2 ^ 32) : (UInt32.ofNat v).toNat = v := by
  rw [UInt32.toNat_ofNat', Nat.mod_eq_of_lt h]

/-- The fields, from the year down. -/
def fields (tm : Tm) (uniquId UniqueTail : UInt32) : List (Nat × Nat) :=
  [(7, (tm.tm_year + 1900) % 100), (4, tm.tm_mon + 1), (5, tm.tm_mday), (5, tm.tm_hour),
    (6, tm.tm_min), (6, tm.tm_sec), (13, uniquId.toNat % 8191), (18, UniqueTail.toNat % 0x03ffff)]

theorem fields_widths (tm : Tm) (uniquId UniqueTail : UInt32) :
    (fields tm uniquId UniqueTail).map Prod.fst = [7, 4, 5, 5, 6, 6, 13, 18] := rfl

theorem fields_fit (tm : Tm) (uniquId UniqueTail : UInt32) :
    ∀ f ∈ fields tm uniquId UniqueTail, f.2 < 2 ^ f.1 := by
  have := tm.mon_lt
  have := tm.mday_le
  have := tm.hour_lt
  have := tm.min_lt
  have := tm.sec_le
  simp only [fields, List.forall_mem_cons, List.not_mem_nil, false_implies, implies_true, and_true]
  omega

theorem toNat_uniqueNumId (tm : Tm) (uniquId UniqueTail : UInt32) :
    (uniqueNumId tm uniquId UniqueTail).toNat = packed 0 (fields tm uniquId UniqueTail) := by
  have hfit := fields_fit tm uniquId UniqueTail
  simp only [fields, List.forall_mem_cons, List.not_mem_nil, false_implies, implies_true,
    and_true] at hfit
  obtain ⟨hyear, hmon, hday, hhour, hmin, hsec, hnode, hno⟩ := hfit
  have hyear' : (UInt32.ofNat (tm.tm_year + 1900) % 100).toNat = (tm.tm_year + 1900) % 100 := by
    rw [UInt32.toNat_mod, toNat_ofNat_of_lt (Nat.lt_trans tm.year_lt (by decide))]
    rfl
  have hnode' : (uniquId % 8191).toNat = uniquId.toNat % 8191 := UInt32.toNat_mod uniquId 8191
  have hno' : (UniqueTail % 0x03ffff).toNat = UniqueTail.toNat % 0x03ffff :=
    UInt32.toNat_mod UniqueTail 0x03ffff
  have hsmall : ∀ {v w : Nat}, v < 2 ^ w → w ≤ 32 → (UInt32.ofNat v).toNat = v :=
    fun hv hw => toNat_ofNat_of_lt (Nat.lt_of_lt_of_le hv (Nat.pow_le_pow_right (by decide) hw))
  simp only [uniqueNumId, UInt64.toNat_or]
  rw [toNat_shifted (n := 57) hyear' hyear rfl rfl (by decide) (by decide),
    toNat_shifted (n := 53) (hsmall hmon (by decide)) hmon rfl rfl (by decide) (by decide),
    toNat_shifted (n := 48) (hsmall hday (by decide)) hday rfl rfl (by decide) (by decide),
    toNat_shifted (n := 43) (hsmall hhour (by decide)) hhour rfl rfl (by decide) (by decide),
    toNat_shifted (n := 37) (hsmall hmin (by decide)) hmin rfl rfl (by decide) (by decide),
    toNat_shifted (n := 31) (hsmall hsec (by decide)) hsec rfl rfl (by decide) (by decide),
    toNat_shifted (n := 18) hnode' hnode rfl rfl (by decide) (by decide),
    toNat_shifted (n := 0) hno' hno rfl rfl (by decide) (by decide)]
  simp only [fields, packed, Nat.zero_shiftLeft, Nat.zero_or, Nat.shiftLeft_or_distrib,
    ← Nat.shiftLeft_add, Nat.shiftLeft_zero, Nat.reduceAdd]

theorem uniqueNumId_inj {tm tm' : Tm} {u u' t t' : UInt32}
    (h : uniqueNumId tm u t = uniqueNumId tm' u' t') :
    tm.stamp = tm'.stamp ∧ u.toNat % 8191 = u'.toNat % 8191 ∧
      t.toNat % 0x03ffff = t'.toNat % 0x03ffff := by
  have hp : packed 0 (fields tm u t) = packed 0 (fields tm' u' t') := by
    rw [← toNat_uniqueNumId, ← toNat_uniqueNumId, h]
  obtain ⟨-, he⟩ := packed_inj ((fields_widths tm u t).trans (fields_widths tm' u' t').symm)
    (fields_fit tm u t) (fields_fit tm' u' t') hp
  simp only [fields, List.cons.injEq, Prod.mk.injEq, true_and, and_true] at he
  obtain ⟨hyear, hmon, hday, hhour, hmin, hsec, hnode, hno⟩ := he
  refine ⟨?_, hnode, hno⟩
  rw [Tm.stamp, Tm.stamp, hyear, hmon, hday, hhour, hmin, hsec]

/-- In one second and on one node the running number decides. -/
theorem uniqueNumId_eq_iff {tm : Tm} {u t t' : UInt32} :
    uniqueNumId tm u t = uniqueNumId tm u t' ↔ t.toNat % 0x03ffff = t'.toNat % 0x03ffff := by
  refine ⟨fun h => (uniqueNumId_inj h).2.2, fun h => ?_⟩
  rw [← UInt64.toNat_inj, toNat_uniqueNumId, toNat_uniqueNumId, fields, fields, h]

/-- The month is never zero. -/
theorem uniqueNumId_ne_zero (tm : Tm) (u t : UInt32) : uniqueNumId tm u t ≠ 0 := by
  intro h
  let zeros : List (Nat × Nat) := [(7, 0), (4, 0), (5, 0), (5, 0), (6, 0), (6, 0), (13, 0), (18, 0)]
  have hp : packed 0 (fields tm u t) = packed 0 zeros := by
    rw [← toNat_uniqueNumId, h]
    rfl
  obtain ⟨-, he⟩ := packed_inj (fields_widths tm u t) (fields_fit tm u t)
    (by decide) hp
  simp [fields, zeros] at he

/-! ## Consecutive calls -/

/-- Calls with different running numbers: the counter does not wrap among them, or it wraps before
the first, or they are no more than the remainders that both sides of the wrap do not share. -/
def Spans (UniqueTail : UInt32) (k : Nat) : Prop :=
  UniqueTail.toNat + k < 2 ^ 32 ∨ UniqueTail.toNat = 2 ^ 32 - 1 ∨ k ≤ 16384

theorem uniqueNumIds_eq_map (tm : Tm) (u t : UInt32) (k : Nat) :
    uniqueNumIds tm u t k =
      (List.range k).map fun i => uniqueNumId tm u (t + 1 + UInt32.ofNat i) := by
  induction k generalizing t with
  | zero => rfl
  | succ k ih =>
    rw [uniqueNumIds, ih, List.range_succ_eq_map, List.map_cons, List.map_map]
    refine congrArg₂ List.cons ?_ ?_
    · simp
    · apply List.map_congr_left
      intro i _
      show uniqueNumId tm u (t + 1 + 1 + .ofNat i) = uniqueNumId tm u (t + 1 + .ofNat (i + 1))
      rw [UInt32.ofNat_add, UInt32.add_assoc (t + 1), UInt32.add_comm (UInt32.ofNat i)]
      rfl

/-- The running number of call `i`. -/
theorem toNat_tail (t : UInt32) (i : Nat) :
    (t + 1 + UInt32.ofNat i).toNat = (t.toNat + 1 + i) % 2 ^ 32 := by
  rw [UInt32.toNat_add, UInt32.toNat_add, UInt32.toNat_ofNat']
  show ((t.toNat + 1) % 2 ^ 32 + i % 2 ^ 32) % 2 ^ 32 = _
  omega

/-- `2^32` is 16384 more than a multiple of `0x03ffff`: behind the wrap, number `r < 16384` has the
remainder of `2^32 - 16384 + r`. -/
theorem remainders_inj_iff {t k : Nat} (ht : t < 2 ^ 32) (hk : k ≤ 262143) :
    (∀ i < k, ∀ j < k, (t + 1 + i) % 2 ^ 32 % 0x03ffff = (t + 1 + j) % 2 ^ 32 % 0x03ffff → i = j) ↔
      t + k < 2 ^ 32 ∨ t = 2 ^ 32 - 1 ∨ k ≤ 16384 := by
  constructor
  · intro h
    by_contra hn
    rw [not_or, not_or] at hn
    obtain ⟨hwrap, hlast, hmany⟩ := hn
    -- the first number that is used before the wrap and has its remainder used behind it
    obtain ⟨r, hr⟩ : ∃ r, r = 16384 - (2 ^ 32 - 1 - t) := ⟨_, rfl⟩
    have hi := h (2 ^ 32 - 16384 + r - (t + 1)) (by omega) (2 ^ 32 + r - (t + 1)) (by omega)
    have heq : 2 ^ 32 - 16384 + r - (t + 1) = 2 ^ 32 + r - (t + 1) := by
      apply hi
      omega
    omega
  · intro h i hi j hj he
    have hside : ∀ n < k, (t + 1 + n) % 2 ^ 32 = t + 1 + n ∨
        2 ^ 32 ≤ t + 1 + n ∧ (t + 1 + n) % 2 ^ 32 = t + 1 + n - 2 ^ 32 := by
      intro n hn
      omega
    rcases hside i hi with hi' | ⟨hi₁, hi'⟩ <;> rcases hside j hj with hj' | ⟨hj₁, hj'⟩ <;>
      rw [hi', hj'] at he
    all_goals omega

theorem uniqueNumIds_nodup_iff (tm : Tm) (u t : UInt32) {k : Nat} (hk : k ≤ 262143) :
    (uniqueNumIds tm u t k).Nodup ↔ Spans t k := by
  rw [uniqueNumIds_eq_map, List.nodup_map_iff_inj_on List.nodup_range]
  simp only [List.mem_range, uniqueNumId_eq_iff, toNat_tail]
  exact remainders_inj_iff t.toNat_lt hk

theorem uniqueNumIds_ne_zero (tm : Tm) (u t : UInt32) (k : Nat) :
    ∀ j ∈ uniqueNumIds tm u t k, j ≠ 0 := by
  rw [uniqueNumIds_eq_map]
  intro j hj
  obtain ⟨i, -, rfl⟩ := List.mem_map.mp hj
  exact uniqueNumId_ne_zero tm u _

/-- The calls in one second return different numbers, and none is zero, exactly when their running
numbers are different; calls that see another time or another node never return the same. -/
theorem uniqueNumIds_unique_iff {k : Nat} (hk : k ≤ 262143) :
    (∀ tm u t, ((uniqueNumIds tm u t k).Nodup ∧ ∀ j ∈ uniqueNumIds tm u t k, j ≠ 0) ↔ Spans t k) ∧
    ∀ tm tm' u u' t t', (tm.stamp ≠ tm'.stamp ∨ u.toNat % 8191 ≠ u'.toNat % 8191) →
      uniqueNumId tm u t ≠ uniqueNumId tm' u' t' := by
  constructor
  · intro tm u t
    rw [and_iff_left (uniqueNumIds_ne_zero tm u t k)]
    exact uniqueNumIds_nodup_iff tm u t hk
  · intro tm tm' u u' t t' hne he
    obtain ⟨hstamp, hnode, -⟩ := uniqueNumId_inj he
    exact hne.elim (fun h => h hstamp) (fun h => h hnode)

/-- The first day of 2026, half past noon. -/
def newYear : Tm where
  tm_year := 126
  tm_mon := 0
  tm_mday := 1
  tm_hour := 12
  tm_min := 30
  tm_sec := 0
  year_lt := by omega
  mon_lt := by omega
  mday_pos := by omega
  mday_le := by omega
  hour_lt := by omega
  min_lt := by omega
  sec_le := by omega

theorem uniqueNumIds_across_wrap : (uniqueNumIds newYear 60 4294967290 100).Nodup ∧
    uniqueNumId newYear 60 1 ≠ uniqueNumId newYear 61 1 := by
  have hk : 100 ≤ 262143 := by omega
  constructor
  · have hspans : Spans 4294967290 100 := .inr (.inr (by omega))
    exact (((uniqueNumIds_unique_iff hk).1 newYear 60 4294967290).mpr hspans).1
  · exact (uniqueNumIds_unique_iff hk).2 newYear newYear 60 61 1 1 (.inr (by decide))

/-- The first of 16385 calls gets the last number before the wrap, and the last call gets the number
with the same remainder behind it. -/
theorem uniqueNumIds_repeat : uniqueNumId newYear 60 4294967295 = uniqueNumId newYear 60 16383 ∧
    ¬ (uniqueNumIds newYear 60 4294967294 16385).Nodup := by
  constructor
  · exact uniqueNumId_eq_iff.mpr rfl
  · rw [uniqueNumIds_nodup_iff newYear 60 4294967294 (by omega)]
    unfold Spans
    decide

end LibeventTcpCli
end CmakeFrame
