import CmakeFrame.Common.UpdateIniFile

/-!
# `strFirstConstStr` on memory

The search stands in `remainFile/src/Incommon.h`, and once more as `framestr_first_conststr` in
`common/UpdateIniFile.cpp` and in `common/MysqlEncryPass.cpp`. Here a pointer is the memory from its
address on, so that `p++` is the tail. `none` is a read behind the memory or an overflow of an `int`.

* `strlenLoop`, `charLoop`, `compareLoop`, `searchLoop`: the four loops.
* `Incommon.strFirstConstStr`, `UpdateIniFile.framestrFirstConststr`,
  `MysqlEncryPass.framestrFirstConststr`: the three functions.
* `searchLoop_eq`: on C strings the search comes to `Remain.strFirstConstStr`.
* `FirstAt`: the leftmost occurrence; `first_conststr`: it is what all three find.
-/

namespace CmakeFrame

open Lib

/-! ## The loops -/

/-- `strIntLen` and `frame_strlen`, with `len` counted so far. -/
def strlenLoop (len : Nat) : Bytes → Option Nat
  | [] => none
  | c :: str =>
    if c = 0 then some len
    else if len + 1 < 2 ^ 31 then strlenLoop (len + 1) str else none

/-- `strFristConstChar` and `framestr_frist_constchar`. -/
def charLoop (c : UInt8) : Bytes → Option (Option Bytes)
  | [] => none
  | a :: p =>
    if a = 0 then some none
    else if a = c then some (some (a :: p)) else charLoop c p

/-- The `for` loop with `n` turns left: whether it comes to `i == q_len`. -/
def compareLoop : (n : Nat) → (p_for q : Bytes) → Option Bool
  | 0, _, _ => some true
  | n + 1, a :: p_for, b :: q => if a = b then compareLoop n p_for q else some false
  | _ + 1, _, _ => none

/-- The `do … while(1)` loop, for `turns` turns at most. -/
def searchLoop (tar : Bytes) (tar_fri : UInt8) (q_len : Nat) : (turns : Nat) → Bytes →
    Option (Option Bytes)
  | 0, _ => none
  | turns + 1, p => do
    match ← charLoop tar_fri p with
    | none => some none
    | some p =>
      let p_len ← strlenLoop 0 p
      if q_len > p_len then some none
      else if ← compareLoop q_len p tar then some (some p)
      else searchLoop tar tar_fri q_len turns p.tail

/-- The function, with `str` null or not. It reads `*tar` first. -/
def firstConstStr (turns : Nat) (str : Option Bytes) (tar : Bytes) : Option (Option Bytes) := do
  let tar_fri ← tar.head?
  match str with
  | none => some none
  | some str =>
    let p_len ← strlenLoop 0 str
    let q_len ← strlenLoop 0 tar
    if q_len > p_len then some none else searchLoop tar tar_fri q_len turns str

/-- `strFirstConstStr(str, tar)` -/
def Incommon.strFirstConstStr (turns : Nat) (str : Option Bytes) (tar : Bytes) :
    Option (Option Bytes) :=
  firstConstStr turns str tar

/-- `framestr_first_conststr(str, tar)` -/
def UpdateIniFile.framestrFirstConststr (turns : Nat) (str : Option Bytes) (tar : Bytes) :
    Option (Option Bytes) :=
  firstConstStr turns str tar

/-- `framestr_first_conststr(str, tar)` -/
def MysqlEncryPass.framestrFirstConststr (turns : Nat) (str : Option Bytes) (tar : Bytes) :
    Option (Option Bytes) :=
  firstConstStr turns str tar

/-! ## On C strings -/

theorem strlenLoop_eq {s : Bytes} (hs : 0 ∉ s) (r : Bytes) (len : Nat)
    (hlen : len + s.length < 2 ^ 31) : strlenLoop len (s ++ 0 :: r) = some (len + s.length) := by
  induction s generalizing len with
  | nil => simp [strlenLoop]
  | cons c s ih =>
    obtain ⟨hc, hs⟩ := not_or.mp (List.mem_cons.not.mp hs)
    rw [List.length_cons] at hlen
    rw [List.cons_append, strlenLoop, if_neg (Ne.symm hc), if_pos (by omega), ih hs _ (by omega),
      List.length_cons]
    congr 1
    omega

/-- The pointer goes to the first `c`. -/
theorem charLoop_eq {s : Bytes} (hs : 0 ∉ s) (c : UInt8) (r : Bytes) :
    charLoop c (s ++ 0 :: r) = some ((findByte c s).map fun k => (s ++ 0 :: r).drop k) := by
  induction s with
  | nil => simp [charLoop, findByte]
  | cons a s ih =>
    obtain ⟨ha, hs⟩ := not_or.mp (List.mem_cons.not.mp hs)
    rw [List.cons_append, charLoop, if_neg (Ne.symm ha), findByte]
    split
    · rfl
    · rw [ih hs, Option.map_map]
      rfl

/-- At the end of the shorter text the NUL differs. -/
theorem compareLoop_eq (s r r' : Bytes) {t : Bytes} (ht : 0 ∉ t) :
    compareLoop t.length (s ++ 0 :: r) (t ++ 0 :: r') = some (t.isPrefixOf s) := by
  induction t generalizing s with
  | nil => simp [compareLoop]
  | cons b t ih =>
    obtain ⟨hb, ht⟩ := not_or.mp (List.mem_cons.not.mp ht)
    cases s with
    | nil =>
      rw [List.nil_append, List.cons_append, List.length_cons, compareLoop, if_neg hb]
      rfl
    | cons a s =>
      rw [List.cons_append, List.cons_append, List.length_cons, compareLoop, List.isPrefixOf]
      by_cases hab : a = b
      · rw [if_pos hab, ih s ht, hab, beq_self_eq_true, Bool.true_and]
      · rw [if_neg hab, beq_eq_false_iff_ne.mpr (Ne.symm hab), Bool.false_and]

/-- The turns are those of `Remain.strFirstConstStrLoop`. -/
theorem searchLoop_eq {c : UInt8} {tar : Bytes} (ht : 0 ∉ c :: tar) (r r' : Bytes) {s : Bytes}
    (hs : 0 ∉ s) (hlen : s.length < 2 ^ 31) {turns : Nat} (hturns : s.length < turns) :
    searchLoop (c :: tar ++ 0 :: r') c (c :: tar).length turns (s ++ 0 :: r) =
      some ((findSub (c :: tar) s).map fun i => (s ++ 0 :: r).drop i) := by
  induction turns generalizing s with
  | zero => omega
  | succ turns ih =>
    have hloop := Remain.strFirstConstStrLoop_eq c tar (turns + 1) s 0 hturns
    have hzero : (fun i => 0 + i) = (id : Nat → Nat) := funext Nat.zero_add
    rw [hzero, Option.map_id, id_eq] at hloop
    rw [← hloop, searchLoop, charLoop_eq hs, Remain.strFirstConstStrLoop, Remain.strFristConstChar,
      List.headD_cons]
    cases hk : findByte c s with
    | none => rfl
    | some k =>
      have hlt := UpdateIni.findByte_lt hk
      have hdrop : (s ++ 0 :: r).drop k = s.drop k ++ 0 :: r :=
        List.drop_append_of_le_length (by omega)
      have hnul : ∀ n, 0 ∉ s.drop n := fun n hmem => hs (List.mem_of_mem_drop hmem)
      have hp_len : strlenLoop 0 (s.drop k ++ 0 :: r) = some (s.drop k).length := by
        rw [strlenLoop_eq (hnul k) r 0 (by rw [List.length_drop]; omega), Nat.zero_add]
      simp only [Option.map_some, Option.bind_eq_bind, Option.bind_some, hdrop, hp_len,
        compareLoop_eq _ _ _ ht]
      by_cases hshort : (c :: tar).length > (s.drop k).length
      · rw [if_pos hshort, if_pos hshort]
        rfl
      · rw [if_neg hshort, if_neg hshort]
        by_cases hpre : (c :: tar).isPrefixOf (s.drop k) = true
        · rw [if_pos hpre, if_pos hpre, Option.map_some, Nat.zero_add, hdrop]
        · -- the next turn starts one behind
          have htail : (s.drop k ++ 0 :: r).tail = s.drop (k + 1) ++ 0 :: r := by
            rw [← hdrop, List.tail_drop, List.drop_append_of_le_length (by omega)]
          have hrest : (s.drop (k + 1)).length < turns := by
            rw [List.length_drop]
            omega
          rw [if_neg hpre, if_neg hpre, htail,
            ih (hnul (k + 1)) (by rw [List.length_drop]; omega) hrest,
            Remain.strFirstConstStrLoop_eq c tar turns _ _ hrest, Option.map_map, Nat.zero_add]
          congr 2
          funext i
          rw [← List.drop_append_of_le_length (by omega), List.drop_drop]
          rfl

/-! ## The leftmost occurrence -/

/-- `t` stands in `s` at `i`, and nowhere before. -/
def FirstAt (t s : Bytes) (i : Nat) : Prop := t <+: s.drop i ∧ ∀ j < i, ¬ t <+: s.drop j

theorem findSub_eq_some_iff {t s : Bytes} {i : Nat} :
    findSub t s = some i ↔ FirstAt t s i := by
  have hfirst {i : Nat} (h : findSub t s = some i) : FirstAt t s i := by
    refine ⟨(findSub_eq_some h).2, fun j hj ⟨r, hr⟩ => ?_⟩
    have hle : j ≤ s.length := le_trans hj.le (findSub_eq_some h).1
    have hsplit : s.take j ++ t ++ r = s := by
      rw [List.append_assoc, hr, List.take_append_drop]
    obtain ⟨k, hk, hfound⟩ := findSub_le t (s.take j) r
    rw [hsplit, h, Option.some.injEq] at hfound
    rw [List.length_take] at hk
    omega
  refine ⟨hfirst, fun h => ?_⟩
  obtain ⟨k, hk⟩ : ∃ k, findSub t s = some k :=
    Option.isSome_iff_exists.mp (findSub_isSome.mpr (h.1.isInfix.trans (List.drop_suffix i s).isInfix))
  -- both are leftmost
  have hki : ¬ k < i := fun hlt => h.2 k hlt (hfirst hk).1
  have hik : ¬ i < k := fun hlt => (hfirst hk).2 i hlt h.1
  rw [hk]
  congr 1
  omega

/-- **The search finds the leftmost occurrence**, with as many turns as the text has bytes and one
more, and with any more turns. The two copies do the same on all arguments. -/
theorem first_conststr (str tar r r' : Bytes) (hstr : 0 ∉ str) (htar : 0 ∉ tar) (hne : tar ≠ [])
    (hlen : str.length < 2 ^ 31) (htlen : tar.length < 2 ^ 31) :
    (∃ p, (∀ turns, str.length < turns →
        Incommon.strFirstConstStr turns (some (str ++ 0 :: r)) (tar ++ 0 :: r') = some p) ∧
      (∀ i, FirstAt tar str i → p = some ((str ++ 0 :: r).drop i)) ∧
      (p = none ↔ ¬ tar <:+: str)) ∧
    ∀ turns s t,
      UpdateIniFile.framestrFirstConststr turns s t = Incommon.strFirstConstStr turns s t ∧
      MysqlEncryPass.framestrFirstConststr turns s t = Incommon.strFirstConstStr turns s t := by
  refine ⟨⟨(findSub tar str).map fun i => (str ++ 0 :: r).drop i, fun turns hturns => ?_,
    fun i hi => ?_, ?_⟩, fun turns s t => ⟨rfl, rfl⟩⟩
  · obtain ⟨c, t, rfl⟩ := List.exists_cons_of_ne_nil hne
    have hp_len := strlenLoop_eq hstr r 0 (by omega)
    have hq_len := strlenLoop_eq htar r' 0 (by omega)
    rw [Nat.zero_add] at hp_len hq_len
    rw [Incommon.strFirstConstStr, firstConstStr]
    simp only [List.cons_append, List.head?_cons, Option.bind_eq_bind, Option.bind_some, hp_len]
    rw [← List.cons_append, hq_len, Option.bind_some]
    split
    · rename_i hshort
      rw [Remain.findSub_none_of_short hshort]
      rfl
    · exact searchLoop_eq htar r r' hstr hlen hturns
  · rw [findSub_eq_some_iff.mpr hi, Option.map_some]
  · rw [Option.map_eq_none_iff, ← findSub_isSome, Option.not_isSome_iff_eq_none]

/-- `\r\n` in `\r\r\n`: the first CR is no match. -/
theorem first_conststr_crlf :
    ∃ p, (∀ turns, 3 < turns →
        Incommon.strFirstConstStr turns (some [13, 13, 10, 0]) [13, 10, 0] = some p) ∧
      (∀ i, FirstAt [13, 10] [13, 13, 10] i → p = some ([13, 13, 10, 0].drop i)) ∧
      (p = none ↔ ¬ [13, 10] <:+: ([13, 13, 10] : Bytes)) :=
  (first_conststr [13, 13, 10] [13, 10] [] [] (by decide) (by decide) (by decide) (by decide)
    (by decide)).1

end CmakeFrame
