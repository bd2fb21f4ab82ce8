import CmakeFrame.RedisLibevent.Async

/-!
# Which commands subscribe

`__redisAsyncCommand` reads the name of the command back from the text that was formatted for the wire.

* `formatArgv`: the text of `redisFormatSdsCommandArgv`.
* `nextArgument_argument`: an argument is read back whole.
* `regular`: a command that neither subscribes nor monitors. `regular_formatArgv`: the names that are.
-/

namespace CmakeFrame
namespace RedisLibevent

open Lib

/-- A command that neither subscribes nor monitors. -/
def regular (cmd : Bytes) : Bool :=
  match commandKind cmd with
  | .ok .unsubscribe => true
  | .ok .other => true
  | _ => false

/-- `$len\r\narg\r\n`. -/
def formatArgument (arg : Bytes) : Bytes := 36 :: natDec arg.length ++ [13, 10] ++ arg ++ [13, 10]

/-- `*argc\r\n`, and the arguments. -/
def formatArgv (argv : List Bytes) : Bytes :=
  42 :: natDec argv.length ++ [13, 10] ++ argv.flatMap formatArgument

/-! ## Reading an argument back -/

theorem strchr_append {p : Bytes} {c : UInt8} (h : ∀ b ∈ p, b ≠ c ∧ b ≠ 0) (s : Bytes) :
    strchr (p ++ c :: s) c = some (c :: s) := by
  induction p with
  | nil => simp [strchr]
  | cons b p ih =>
    have hb := h b (by simp)
    rw [List.cons_append, strchr, if_neg hb.1, if_neg hb.2]
    exact ih fun b' hb' => h b' (List.mem_cons_of_mem b hb')

theorem ne_of_mem_natDec {b c : UInt8} {n : Nat} (hc : isDigit c = false) (h : b ∈ natDec n) : b ≠ c := by
  rintro rfl
  exact notMem_natDec hc n h

/-- What stands before the `$` of an argument is not read. -/
theorem nextArgument_argument {p arg : Bytes} (h : ∀ b ∈ p, b ≠ 36 ∧ b ≠ 0)
    (hlen : arg.length < 2 ^ 31) (rest : Bytes) :
    nextArgument (p ++ formatArgument arg ++ rest) =
      .ok (some ⟨arg ++ [13, 10] ++ rest, arg.length, rest⟩) := by
  have hdollar : strchr (p ++ formatArgument arg ++ rest) 36 =
      some (36 :: (natDec arg.length ++ (13 :: 10 :: (arg ++ [13, 10] ++ rest)))) := by
    have hsplit : p ++ formatArgument arg ++ rest =
        p ++ 36 :: (natDec arg.length ++ (13 :: 10 :: (arg ++ [13, 10] ++ rest))) := by
      simp [formatArgument, List.append_assoc]
    rw [hsplit, strchr_append h]
  have hcr : strchr (36 :: (natDec arg.length ++ (13 :: 10 :: (arg ++ [13, 10] ++ rest)))) 13 =
      some (13 :: 10 :: (arg ++ [13, 10] ++ rest)) := by
    rw [← List.cons_append]
    refine strchr_append (fun b hb => ?_) _
    rcases List.mem_cons.mp hb with rfl | hb
    · exact ⟨by decide, by decide⟩
    · exact ⟨ne_of_mem_natDec (by decide) hb, ne_of_mem_natDec (by decide) hb⟩
  have hdec : intDec (arg.length : Int) = natDec arg.length := by
    rw [intDec, if_neg (by omega), Int.natAbs_natCast]
  have hint : (Int32.ofInt (arg.length : Int)).toInt = arg.length :=
    Int32.toInt_ofInt_of_le (by show -2 ^ 31 ≤ _; omega) (by show _ < 2 ^ 31; omega)
  have hatoi : (atoi (natDec arg.length ++ (13 :: 10 :: (arg ++ [13, 10] ++ rest)))).toInt =
      arg.length := by
    have h := atoi_intDec (Int32.ofInt (arg.length : Int))
      (s := 13 :: 10 :: (arg ++ [13, 10] ++ rest)) (endsNumber_cons (by decide))
    rw [hint, hdec] at h
    rw [h, hint]
  have hdrop : (arg ++ [13, 10] ++ rest).drop ((arg.length : Int) + 2).toNat = rest := by
    have hn : ((arg.length : Int) + 2).toNat = (arg ++ [13, 10]).length := by
      rw [List.length_append]
      show _ = arg.length + 2
      omega
    rw [hn, List.drop_left]
  unfold nextArgument
  rw [hdollar]
  simp only [hcr, List.tail_cons, hatoi, List.drop_succ_cons, List.drop_zero, hdrop]

/-! ## The name of a command -/

/-- A name that is compared up to the end of its line. -/
theorem startsWith_line {x t : Bytes} (hx : 13 ∉ x) (ht : 13 ∉ t) (rest : Bytes) :
    startsWith (x ++ [13, 10] ++ rest) (t ++ [13, 10]) = true ↔ x.map tolower = t := by
  have h13 : ∀ b, tolower b = 13 → b = 13 := by
    intro b hb
    unfold tolower at hb
    split at hb
    · rename_i hr
      have h1 := hr.1
      have h2 := hr.2
      have hb' : b.toNat + 32 = 13 := by
        have h3 := congrArg UInt8.toNat hb
        have h4 : b.toNat ≤ 90 := by simpa [UInt8.le_iff_toNat_le] using h2
        rw [UInt8.toNat_add] at h3
        have h5 : (32 : UInt8).toNat = 32 := rfl
        have h6 : (13 : UInt8).toNat = 13 := rfl
        omega
      omega
    · exact hb
  unfold startsWith
  rw [beq_iff_eq]
  constructor
  · intro h
    induction x generalizing t with
    | nil =>
      cases t with
      | nil => rfl
      | cons b t =>
        simp only [List.nil_append, List.cons_append, List.length_cons, List.take_succ_cons,
          List.map_cons, List.cons.injEq] at h
        exact absurd (by simp [← h.1, tolower]) ht
    | cons a x ih =>
      cases t with
      | nil =>
        simp only [List.nil_append, List.cons_append, List.length_cons, List.take_succ_cons,
          List.map_cons, List.cons.injEq] at h
        exact absurd (by simp [h13 a h.1]) hx
      | cons b t =>
        simp only [List.cons_append, List.length_cons, List.take_succ_cons, List.map_cons,
          List.cons.injEq] at h ⊢
        refine ⟨h.1, ih (fun hm => hx (List.mem_cons_of_mem a hm))
          (fun hm => ht (List.mem_cons_of_mem b hm)) ?_⟩
        simpa using h.2
  · rintro rfl
    have hlen : (x.map tolower ++ [13, 10]).length = (x ++ [13, 10]).length := by simp
    rw [hlen, List.take_left]
    simp only [List.map_append, List.map_cons, List.map_nil, List.append_cancel_left_eq]
    rfl

/-- A name behind its first letter if that is a `p`. -/
def withoutP (name : Bytes) : Bytes := name.drop (if name.head?.map tolower = some 112 then 1 else 0)

theorem head_line (name rest : Bytes) :
    (name ++ [13, 10] ++ rest).head?.map tolower = some 112 ↔ name.head?.map tolower = some 112 := by
  cases name with
  | nil => simp [tolower]
  | cons b name => rfl

theorem drop_line (name rest : Bytes) :
    (name ++ [13, 10] ++ rest).drop
        (if (name ++ [13, 10] ++ rest).head?.map tolower = some 112 then 1 else 0) =
      withoutP name ++ [13, 10] ++ rest := by
  rw [withoutP, if_congr (head_line name rest) rfl rfl]
  cases name with
  | nil => rfl
  | cons b name => split <;> rfl

/-- There is an argument behind the name. -/
theorem head_arguments (args : List Bytes) :
    (args.flatMap formatArgument).head? = some 36 ↔ args ≠ [] := by
  cases args with
  | nil => simp
  | cons arg args => simp [formatArgument]

/-- `SUBSCRIBE` with a channel, `MONITOR` and the same names behind a `p` are the only commands that are
not regular, in any case of letters. -/
theorem regular_formatArgv {name : Bytes} (hcr : 13 ∉ name) (hlen : name.length < 2 ^ 31)
    (args : List Bytes) :
    regular (formatArgv (name :: args)) = true ↔
      (withoutP name).map tolower ++ [13, 10] ≠ monitorText ∧
        ((withoutP name).map tolower ++ [13, 10] = subscribeText → args = []) := by
  have hsplit : formatArgv (name :: args) =
      42 :: natDec (name :: args).length ++ [13, 10] ++ formatArgument name ++
        args.flatMap formatArgument := by
    simp [formatArgv, List.append_assoc]
  have hbefore : ∀ b ∈ 42 :: natDec (name :: args).length ++ [13, 10], b ≠ 36 ∧ b ≠ 0 := by
    intro b hb
    rcases List.mem_append.mp hb with hb | hb
    · rcases List.mem_cons.mp hb with rfl | hb
      · exact ⟨by decide, by decide⟩
      · exact ⟨ne_of_mem_natDec (by decide) hb, ne_of_mem_natDec (by decide) hb⟩
    · rcases List.mem_cons.mp hb with rfl | hb
      · exact ⟨by decide, by decide⟩
      · rw [List.mem_singleton.mp hb]
        exact ⟨by decide, by decide⟩
  have hp : 13 ∉ withoutP name := fun h => hcr (List.mem_of_mem_drop h)
  have hname (t : Bytes) (ht : 13 ∉ t) :
      startsWith (withoutP name ++ [13, 10] ++ args.flatMap formatArgument) (t ++ [13, 10]) = true ↔
        (withoutP name).map tolower ++ [13, 10] = t ++ [13, 10] := by
    rw [startsWith_line hp ht, List.append_cancel_right_eq]
  have hsub : startsWith _ subscribeText = true ↔ _ := hname (subscribeText.take 9) (by decide)
  have hunsub : startsWith _ unsubscribeText = true ↔ _ := hname (unsubscribeText.take 11) (by decide)
  have hmon : startsWith _ monitorText = true ↔ _ := hname (monitorText.take 7) (by decide)
  unfold regular commandKind
  rw [hsplit, nextArgument_argument hbefore hlen]
  simp only [bind, Except.bind, drop_line, hsub, hunsub, hmon, head_arguments]
  generalize (withoutP name).map tolower ++ [13, 10] = line
  show _ ↔ line ≠ monitorText ∧ (line = subscribeText → args = [])
  split_ifs with h1 h2 h3
  · cases namesFrom (args.flatMap formatArgument).length (args.flatMap formatArgument) with
    | error e => exact iff_of_false (fun h => by cases h) fun h => h1.1 (h.2 h1.2)
    | ok names => exact iff_of_false (fun h => by cases h) fun h => h1.1 (h.2 h1.2)
  · exact iff_of_true rfl ⟨by rw [show line = unsubscribeText from h2]; decide,
      fun h => by rw [show line = unsubscribeText from h2] at h; exact absurd h (by decide)⟩
  · exact iff_of_false (fun h => by cases h) fun h => h.1 h3
  · exact iff_of_true rfl ⟨h3, fun h => by_contra fun hne => h1 ⟨hne, h⟩⟩

/-- `PSUBSCRIBE` with a pattern is not regular. -/
theorem regular_formatArgv_psubscribe :
    13 ∉ ([80, 83, 85, 66, 83, 67, 82, 73, 66, 69] : Bytes) ∧
    ¬ regular (formatArgv [[80, 83, 85, 66, 83, 67, 82, 73, 66, 69], [97, 42]]) = true := by
  refine ⟨by decide, fun h => ?_⟩
  have := (regular_formatArgv
    (show 13 ∉ ([80, 83, 85, 66, 83, 67, 82, 73, 66, 69] : Bytes) by decide) (by decide) [[97, 42]]).mp h
  exact absurd (this.2 (by decide)) (by simp)

end RedisLibevent
end CmakeFrame
