import CmakeFrame.Lib.Decimal

/-!
# `Base64.cpp`

`common/Base64.cpp` and `remainFile/src/Base64.cpp` are the same text, so one model serves both.

* `encode`, `decode`: `Base64::Encode` and `Base64::Decode`. Both leave the destination alone for
  an empty source. `Decode` stops at the first `=` or NUL; at a byte outside the alphabet it
  returns `false` with the destination resized, the bytes decoded so far at its front.
* `decode_encode`: what `Encode` wrote, `Decode` reads back.
* `mem_encodeLoop`: the encoded text is made of the alphabet and `=`.
-/

namespace CmakeFrame
namespace Base64

open Lib

/-- `base64Code`: `A-Z`, `a-z`, `0-9`, `+`, `/`. -/
def base64Code : Bytes :=
  (List.range 26).map (fun i => UInt8.ofNat (65 + i)) ++
    (List.range 26).map (fun i => UInt8.ofNat (97 + i)) ++
    (List.range 10).map (fun i => UInt8.ofNat (48 + i)) ++ [43, 47]

/-- `base64Code[n]`. -/
def codeAt (n : Nat) : UInt8 := base64Code.getD n 0

/-- `Chr2Base`; `64` is "not in the alphabet". -/
def chr2Base (c : UInt8) : UInt8 :=
  if 65 ≤ c ∧ c ≤ 90 then c - 65
  else if 97 ≤ c ∧ c ≤ 122 then c - 97 + 26
  else if 48 ≤ c ∧ c ≤ 57 then c - 48 + 52
  else if c = 43 then 62
  else if c = 47 then 63
  else 64

/-- `Base64DecodeLen`. -/
def base64DecodeLen (n : Nat) : Nat := n / 4 * 3 + 2

/-- The 24 bits of a group; a missing byte counts as `0`. -/
def group (a b c : UInt8) : Nat := a.toNat * 65536 + b.toNat * 256 + c.toNat

/-- The loop of `Encode`: three bytes give four characters, `=` for those of missing bytes. -/
def encodeLoop : Bytes → Bytes
  | [] => []
  | [a] => [codeAt (group a 0 0 / 2 ^ 18 % 64), codeAt (group a 0 0 / 2 ^ 12 % 64), 61, 61]
  | [a, b] =>
    [codeAt (group a b 0 / 2 ^ 18 % 64), codeAt (group a b 0 / 2 ^ 12 % 64),
      codeAt (group a b 0 / 2 ^ 6 % 64), 61]
  | a :: b :: c :: rest =>
    codeAt (group a b c / 2 ^ 18 % 64) :: codeAt (group a b c / 2 ^ 12 % 64) ::
      codeAt (group a b c / 2 ^ 6 % 64) :: codeAt (group a b c % 64) :: encodeLoop rest

/-- `Base64::Encode(src, &dst)`: the return value and `dst` afterwards. -/
def encode (src dst : Bytes) : Bool × Bytes :=
  if src = [] then (false, dst) else (true, encodeLoop src)

/-- The loop of `Decode` at index `i` with the carried bits `t`: the bytes written, and whether
the loop ended without meeting a byte outside the alphabet. -/
def decodeLoop (i : Nat) (t : UInt8) : Bytes → Bytes × Bool
  | [] => ([], true)
  | s :: rest =>
    if s = 61 ∨ s = 0 then ([], true)
    else if chr2Base s = 64 then ([], false)
    else
      let c := chr2Base s
      match i % 4 with
      | 0 => decodeLoop (i + 1) (c <<< 2) rest
      | 1 =>
        let r := decodeLoop (i + 1) (c <<< 4) rest
        ((t ||| (c >>> 4)) :: r.1, r.2)
      | 2 =>
        let r := decodeLoop (i + 1) (c <<< 6) rest
        ((t ||| (c >>> 2)) :: r.1, r.2)
      | _ =>
        let r := decodeLoop (i + 1) t rest
        ((t ||| c) :: r.1, r.2)

/-- `dst->resize(n)`. -/
def resize (dst : Bytes) (n : Nat) : Bytes := dst.take n ++ List.replicate (n - dst.length) 0

/-- `Base64::Decode(src, &dst)`: the return value and `dst` afterwards. -/
def decode (src dst : Bytes) : Bool × Bytes :=
  if src = [] then (false, dst)
  else
    let r := decodeLoop 0 0 src
    if r.2 then (true, r.1)
    else (false, r.1 ++ (resize dst (base64DecodeLen src.length)).drop r.1.length)

/-! ## The alphabet -/

theorem chr2Base_codeAt : ∀ n < 64, chr2Base (codeAt n) = UInt8.ofNat n ∧
    codeAt n ≠ 61 ∧ codeAt n ≠ 0 ∧ codeAt n ∈ base64Code := by decide

theorem mem_encodeLoop {src : Bytes} {c : UInt8} (h : c ∈ encodeLoop src) :
    c = 61 ∨ c ∈ base64Code := by
  have hc : ∀ n, codeAt (n % 64) ∈ base64Code := fun n =>
    (chr2Base_codeAt _ (Nat.mod_lt _ (by decide))).2.2.2
  induction src using encodeLoop.induct with
  | case1 => simp [encodeLoop] at h
  | case2 a =>
    simp only [encodeLoop, List.mem_cons, List.not_mem_nil, or_false] at h
    rcases h with rfl | rfl | h | h
    · exact .inr (hc _)
    · exact .inr (hc _)
    · exact .inl h
    · exact .inl h
  | case3 a b =>
    simp only [encodeLoop, List.mem_cons, List.not_mem_nil, or_false] at h
    rcases h with rfl | rfl | rfl | h
    · exact .inr (hc _)
    · exact .inr (hc _)
    · exact .inr (hc _)
    · exact .inl h
  | case4 a b d rest ih =>
    simp only [encodeLoop, List.mem_cons] at h
    rcases h with rfl | rfl | rfl | rfl | h
    · exact .inr (hc _)
    · exact .inr (hc _)
    · exact .inr (hc _)
    · exact .inr (hc _)
    · exact ih h

/-- A byte outside the alphabet does not occur in encoded text. -/
theorem notMem_encodeLoop {c : UInt8} (h1 : c ≠ 61) (h2 : c ∉ base64Code) (src : Bytes) :
    c ∉ encodeLoop src := fun h => (mem_encodeLoop h).elim h1 h2

theorem length_encodeLoop (src : Bytes) : (encodeLoop src).length = (src.length + 2) / 3 * 4 := by
  induction src using encodeLoop.induct with
  | case1 => rfl
  | case2 a => simp [encodeLoop]
  | case3 a b => simp [encodeLoop]
  | case4 a b d rest ih =>
    simp only [encodeLoop, List.length_cons, ih]
    omega

/-! ## Round trip -/

theorem toNat_ofNat {n : Nat} (h : n < 256) : (UInt8.ofNat n).toNat = n :=
  UInt8.toNat_ofNat_of_lt' h

/-- The bits above and those below a cut join to the byte again. -/
theorem or_shift {k x y : Nat} (hk : k < 8) (hx : x * 2 ^ k < 256) (hy : y < 2 ^ k) :
    UInt8.ofNat (x * 2 ^ k) ||| UInt8.ofNat y = UInt8.ofNat (x * 2 ^ k + y) := by
  have hp : 2 ^ k < 256 := by
    calc 2 ^ k ≤ 2 ^ 7 := Nat.pow_le_pow_right (by decide) (by omega)
      _ < 256 := by decide
  have hor : x * 2 ^ k ||| y = x * 2 ^ k + y := by
    rw [← Nat.shiftLeft_eq, ← Nat.shiftLeft_add_eq_or_of_lt hy]
  rw [← UInt8.toNat_inj, UInt8.toNat_or, toNat_ofNat hx, toNat_ofNat (by omega), hor,
    UInt8.toNat_ofNat', Nat.mod_eq_of_lt]
  exact hor ▸ Nat.or_lt_two_pow (n := 8) hx (by omega)

theorem decodeLoop_codeAt {i n : Nat} (hn : n < 64) (t : UInt8) (rest : Bytes) :
    decodeLoop i t (codeAt n :: rest) =
      match i % 4 with
      | 0 => decodeLoop (i + 1) (UInt8.ofNat n <<< 2) rest
      | 1 => ((t ||| (UInt8.ofNat n >>> 4)) :: (decodeLoop (i + 1) (UInt8.ofNat n <<< 4) rest).1,
          (decodeLoop (i + 1) (UInt8.ofNat n <<< 4) rest).2)
      | 2 => ((t ||| (UInt8.ofNat n >>> 2)) :: (decodeLoop (i + 1) (UInt8.ofNat n <<< 6) rest).1,
          (decodeLoop (i + 1) (UInt8.ofNat n <<< 6) rest).2)
      | _ => ((t ||| UInt8.ofNat n) :: (decodeLoop (i + 1) t rest).1,
          (decodeLoop (i + 1) t rest).2) := by
  obtain ⟨h1, h2, h3, -⟩ := chr2Base_codeAt n hn
  have h4 : UInt8.ofNat n ≠ 64 := by
    intro h
    have := congrArg UInt8.toNat h
    rw [toNat_ofNat (by omega)] at this
    simp at this
    omega
  simp only [decodeLoop, h1, h2, h3, h4, or_self, if_false]

theorem shiftLeft_ofNat {n k : Nat} (hk : k < 8) (hn : n < 256) :
    UInt8.ofNat n <<< UInt8.ofNat k = UInt8.ofNat (n % 2 ^ (8 - k) * 2 ^ k) := by
  have h8 : 2 ^ 8 = 2 ^ (8 - k) * 2 ^ k := by rw [← pow_add, Nat.sub_add_cancel (by omega)]
  have he : n * 2 ^ k % 2 ^ 8 = n % 2 ^ (8 - k) * 2 ^ k := by rw [h8, Nat.mul_mod_mul_right]
  rw [← UInt8.toNat_inj, UInt8.toNat_shiftLeft, toNat_ofNat (by omega),
    toNat_ofNat (by omega), Nat.mod_eq_of_lt (show k < 8 from hk), Nat.shiftLeft_eq, he,
    toNat_ofNat]
  exact he ▸ Nat.mod_lt _ (by decide)

theorem shiftRight_ofNat {n k : Nat} (hk : k < 8) (hn : n < 256) :
    UInt8.ofNat n >>> UInt8.ofNat k = UInt8.ofNat (n / 2 ^ k) := by
  rw [← UInt8.toNat_inj, UInt8.toNat_shiftRight, toNat_ofNat (by omega),
    toNat_ofNat (by omega), UInt8.toNat_ofNat', Nat.shiftRight_eq_div_pow,
    Nat.mod_eq_of_lt (show k < 8 from hk),
    Nat.mod_eq_of_lt (Nat.lt_of_le_of_lt (Nat.div_le_self _ _) hn)]

/-- The six-bit pieces of a group, put together again. -/
theorem group_bytes (a b c : UInt8) :
    group a b c / 2 ^ 18 % 64 * 2 ^ 2 + group a b c / 2 ^ 12 % 64 / 2 ^ 4 = a.toNat ∧
    group a b c / 2 ^ 12 % 64 % 2 ^ (8 - 4) * 2 ^ 4 + group a b c / 2 ^ 6 % 64 / 2 ^ 2 = b.toNat ∧
    group a b c / 2 ^ 6 % 64 % 2 ^ (8 - 6) * 2 ^ 6 + group a b c % 64 = c.toNat := by
  have ha := a.toNat_lt
  have hb := b.toNat_lt
  have hc := c.toNat_lt
  unfold group
  omega

/-- The first byte of a group, from its first two characters. -/
theorem join_first (a b c : UInt8) :
    (UInt8.ofNat (group a b c / 2 ^ 18 % 64) <<< 2) |||
      (UInt8.ofNat (group a b c / 2 ^ 12 % 64) >>> 4) = a := by
  have e1 := shiftLeft_ofNat (n := group a b c / 2 ^ 18 % 64) (k := 2) (by decide) (by omega)
  have e2 := shiftRight_ofNat (n := group a b c / 2 ^ 12 % 64) (k := 4) (by decide) (by omega)
  simp only [UInt8.reduceOfNat] at e1 e2
  rw [e1, e2, or_shift (by decide) (by omega) (by omega), Nat.mod_eq_of_lt (by omega),
    (group_bytes a b c).1, UInt8.ofNat_toNat]

/-- The second byte of a group, from its second and third character. -/
theorem join_second (a b c : UInt8) :
    (UInt8.ofNat (group a b c / 2 ^ 12 % 64) <<< 4) |||
      (UInt8.ofNat (group a b c / 2 ^ 6 % 64) >>> 2) = b := by
  have e1 := shiftLeft_ofNat (n := group a b c / 2 ^ 12 % 64) (k := 4) (by decide) (by omega)
  have e2 := shiftRight_ofNat (n := group a b c / 2 ^ 6 % 64) (k := 2) (by decide) (by omega)
  simp only [UInt8.reduceOfNat] at e1 e2
  rw [e1, e2, or_shift (by decide) (by omega) (by omega), (group_bytes a b c).2.1,
    UInt8.ofNat_toNat]

/-- The third byte of a group, from its last two characters. -/
theorem join_third (a b c : UInt8) :
    (UInt8.ofNat (group a b c / 2 ^ 6 % 64) <<< 6) ||| UInt8.ofNat (group a b c % 64) = c := by
  have e1 := shiftLeft_ofNat (n := group a b c / 2 ^ 6 % 64) (k := 6) (by decide) (by omega)
  simp only [UInt8.reduceOfNat] at e1
  rw [e1, or_shift (by decide) (by omega) (by omega), (group_bytes a b c).2.2, UInt8.ofNat_toNat]

/-- `Decode` at a group boundary reads the bytes `Encode` wrote, whatever `t` holds there. -/
theorem decodeLoop_encodeLoop (src : Bytes) {i : Nat} (hi : i % 4 = 0) (t : UInt8) :
    decodeLoop i t (encodeLoop src) = (src, true) := by
  have hm : ∀ n, n % 64 < 64 := fun n => Nat.mod_lt n (by decide)
  have h1 : (i + 1) % 4 = 1 := by omega
  have h2 : (i + 2) % 4 = 2 := by omega
  have h3 : (i + 3) % 4 = 3 := by omega
  induction src using encodeLoop.induct generalizing i t with
  | case1 => rfl
  | case2 a =>
    simp only [encodeLoop, decodeLoop_codeAt (hm _), hi, h1, join_first]
    simp [decodeLoop]
  | case3 a b =>
    simp only [encodeLoop, decodeLoop_codeAt (hm _), hi, h1, h2, join_first, join_second]
    simp [decodeLoop]
  | case4 a b c rest ih =>
    simp only [encodeLoop, decodeLoop_codeAt (hm _), hi, h1, h2, h3, join_first, join_second,
      join_third]
    rw [ih (i := i + 1 + 1 + 1 + 1) (by omega) _ (by omega) (by omega) (by omega)]

/-- A nonempty string survives `Encode` and `Decode`; both return `true`. -/
theorem decode_encode {src : Bytes} (h : src ≠ []) (d₁ d₂ : Bytes) :
    decode (encode src d₁).2 d₂ = (true, src) := by
  have hne : encodeLoop src ≠ [] := by
    intro hc
    have := congrArg List.length hc
    rw [length_encodeLoop, List.length_nil] at this
    have := List.length_pos_iff.mpr h
    omega
  simp [encode, decode, h, hne, decodeLoop_encodeLoop src (i := 0) rfl]

end Base64
end CmakeFrame
