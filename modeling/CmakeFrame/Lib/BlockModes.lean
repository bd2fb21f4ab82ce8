import Mathlib.Data.List.GetD
import Mathlib.Data.Vector.Zip

/-!
# Block cipher modes

A cipher works on one block. Two modes make a cipher of block strings out of it: each block by
itself, and each block mixed with the cipher text before it. Strings are cut into blocks of a
fixed length.

* `cbcEncrypt`, `cbcDecrypt`: cipher block chaining over any type of blocks.
* `cbcDecrypt_cbcEncrypt`: decryption inverts encryption if it does so for one block.
* `blocks`, `unblocks`: the blocks of a string and the string of some blocks.
* `blocks_unblocks`, `unblocks_blocks`: they invert each other on whole blocks.
* `zipWith_cancel`: mixing twice with the same block.
-/

namespace CmakeFrame
namespace Lib

/-! ## Chaining -/

section Chain

variable {β : Type*} (mix : β → β → β) (enc dec : β → β)

/-- Each block is mixed with the cipher text of the one before it and encrypted. -/
def cbcEncrypt : β → List β → List β
  | _, [] => []
  | iv, b :: bs => enc (mix b iv) :: cbcEncrypt (enc (mix b iv)) bs

/-- Each block is decrypted and mixed with the cipher text of the one before it. -/
def cbcDecrypt : β → List β → List β
  | _, [] => []
  | iv, c :: cs => mix (dec c) iv :: cbcDecrypt c cs

@[simp] theorem length_cbcEncrypt (iv : β) (bs : List β) :
    (cbcEncrypt mix enc iv bs).length = bs.length := by
  induction bs generalizing iv with
  | nil => rfl
  | cons b bs ih => simp only [cbcEncrypt, List.length_cons, ih]

variable {mix enc dec}

theorem cbcDecrypt_cbcEncrypt (hmix : ∀ a b, mix (mix a b) b = a) (hdec : ∀ b, dec (enc b) = b)
    (iv : β) (bs : List β) : cbcDecrypt mix dec iv (cbcEncrypt mix enc iv bs) = bs := by
  induction bs generalizing iv with
  | nil => rfl
  | cons b bs ih => rw [cbcEncrypt, cbcDecrypt, hdec, hmix, ih]

end Chain

/-! ## Strings and blocks -/

section Blocks

variable {α : Type*} (a : α) {k : Nat}

/-- The `i`th block of a string, with `a` where it ends early. -/
def blockAt (k : Nat) (s : List α) (i : Nat) : List.Vector α k :=
  .ofFn fun j => s.getD (k * i + j) a

/-- The whole blocks of a string. -/
def blocks (k : Nat) (s : List α) : List (List.Vector α k) :=
  (List.range (s.length / k)).map (blockAt a k s)

/-- The string of some blocks. -/
def unblocks (bs : List (List.Vector α k)) : List α := bs.flatMap (·.toList)

@[simp] theorem length_unblocks (bs : List (List.Vector α k)) :
    (unblocks bs).length = k * bs.length := by
  induction bs with
  | nil => rfl
  | cons b bs ih =>
    have hcons : unblocks (b :: bs) = b.toList ++ unblocks bs := rfl
    rw [hcons, List.length_append, ih, List.Vector.toList_length, List.length_cons, Nat.mul_succ]
    omega

theorem length_blocks (s : List α) : (blocks a k s).length = s.length / k := by
  rw [blocks, List.length_map, List.length_range]

theorem blockAt_zero (b : List.Vector α k) (t : List α) : blockAt a k (b.toList ++ t) 0 = b := by
  ext j
  have hj : (j : Nat) < b.toList.length := by rw [List.Vector.toList_length]; exact j.2
  rw [blockAt, List.Vector.get_ofFn, Nat.mul_zero, Nat.zero_add,
    List.getD_eq_getElem _ _ (by rw [List.length_append]; omega), List.getElem_append_left hj]
  exact (List.Vector.get_eq_get_toList b j).symm

theorem blockAt_succ (b : List.Vector α k) (t : List α) (i : Nat) :
    blockAt a k (b.toList ++ t) (i + 1) = blockAt a k t i := by
  unfold blockAt
  congr 1
  funext j
  have hle : b.toList.length ≤ k * (i + 1) + j := by
    rw [List.Vector.toList_length, Nat.mul_succ]
    omega
  rw [List.getD_append_right _ _ _ _ hle, List.Vector.toList_length]
  congr 1
  rw [Nat.mul_succ]
  omega

theorem blocks_append (hk : 0 < k) (b : List.Vector α k) (t : List α) :
    blocks a k (b.toList ++ t) = b :: blocks a k t := by
  have hlen : (b.toList ++ t).length / k = t.length / k + 1 := by
    rw [List.length_append, List.Vector.toList_length, Nat.add_comm, Nat.add_div_right _ hk]
  rw [blocks, hlen, List.range_succ_eq_map, List.map_cons, blockAt_zero, List.map_map]
  congr 1
  exact List.map_congr_left fun i _ => blockAt_succ a b t i

theorem blocks_unblocks (hk : 0 < k) (bs : List (List.Vector α k)) :
    blocks a k (unblocks bs) = bs := by
  induction bs with
  | nil => rw [blocks]; simp [unblocks]
  | cons b bs ih =>
    show blocks a k (b.toList ++ unblocks bs) = _
    rw [blocks_append a hk, ih]

theorem unblocks_blocks (hk : 0 < k) {s : List α} (h : k ∣ s.length) :
    unblocks (blocks a k s) = s := by
  obtain ⟨m, hm⟩ := h
  induction m generalizing s with
  | zero =>
    obtain rfl := List.eq_nil_of_length_eq_zero (hm.trans (Nat.mul_zero k))
    rw [blocks]
    simp [unblocks]
  | succ m ih =>
    rw [Nat.mul_succ] at hm
    -- the first block is what `take` cuts off
    have htake : (s.take k).length = k := by rw [List.length_take]; omega
    let b : List.Vector α k := ⟨s.take k, htake⟩
    have hsplit : s = b.toList ++ s.drop k := (List.take_append_drop k s).symm
    have hrest : unblocks (blocks a k (s.drop k)) = s.drop k :=
      ih (by rw [List.length_drop]; omega)
    have hblocks : blocks a k s = b :: blocks a k (s.drop k) := by
      conv_lhs => rw [hsplit]
      exact blocks_append a hk b _
    rw [hblocks]
    show b.toList ++ unblocks (blocks a k (s.drop k)) = s
    rw [hrest, ← hsplit]

/-- Mixing twice with the same block. -/
theorem zipWith_cancel {f : α → α → α} (hf : ∀ x y, f (f x y) y = x) (v w : List.Vector α k) :
    List.Vector.zipWith f (List.Vector.zipWith f v w) w = v := by
  ext i
  rw [List.Vector.zipWith_get, List.Vector.zipWith_get, hf]

end Blocks

end Lib
end CmakeFrame
