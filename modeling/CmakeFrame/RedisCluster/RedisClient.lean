import CmakeFrame.RedisAsyn.Argv

/-!
# The commands of `RedisClient`

`rediscluster/RedisClient.cpp`: what an operation gives to hiredis, and the arguments that are sent.
The replies are not modelled here.

* `RedisContext`: hiredis. `redisvCommand` sends what a format comes to, `redisCommandArgv` a vector.
  `RedisContext.Printf`: what is assumed of the directives.
* `RedisClient.get` .. `RedisClient.set`: the operations, each with its emptiness check.
* `Op`: one of them with its arguments. `Op.argv`: the command as it was meant.
* `commandArgv_iff`, `command_iff`, `commandText_iff`: the three ways of building a command.
* `sent_iff`: the operations that send what was meant.
-/

namespace CmakeFrame
namespace RedisCluster

open Lib
open RedisAsyn (Formatting Directive PrintfLike Literal)

/-- The bytes of a literal. -/
def ascii (s : String) : Bytes := s.toList.map fun c => UInt8.ofNat c.toNat

/-! ## hiredis -/

/-- A variadic argument. A `double` is given by the text that `%f` makes of it. -/
inductive VaArg where
  | str (s : Bytes)
  | int (n : Int32)
  | double (text : Bytes)
  deriving DecidableEq, Repr

namespace VaArg

/-- The conversion that reads it: `s`, `d` or `f`. -/
def conv : VaArg → UInt8
  | str _ => 115
  | int _ => 100
  | double _ => 102

/-- What the conversion puts into the command. -/
def text : VaArg → Bytes
  | str s => cstr s
  | int n => intDec n.toInt
  | double text => text

/-- What was passed. -/
def whole : VaArg → Bytes
  | str s => s
  | int n => intDec n.toInt
  | double text => text

end VaArg

/-- A directive: the bytes behind the `%` that belong to it, what it expands to, and the variadic
arguments that are left. -/
structure VaDirective where
  taken : Nat
  text : Bytes
  args : List VaArg
  deriving DecidableEq, Repr

/-- A connection. `directive args c` is what the text `c` behind a `%` begins with. It is `none` where
the format is refused or an argument is read that was not passed, which has no defined result. -/
structure RedisContext where
  directive : List VaArg → Bytes → Option VaDirective

namespace RedisContext

/-- What is assumed of hiredis: `%%` is a `%`, a conversion takes the argument it is for, any other
directive needs an argument, and a `%` with nothing behind it is copied unless the format is
refused. -/
structure Printf (c : RedisContext) : Prop where
  percent : ∀ args rest, c.directive args (37 :: rest) = some ⟨1, [37], args⟩
  passed : ∀ (a : VaArg) args rest, c.directive (a :: args) (a.conv :: rest) = some ⟨1, a.text, args⟩
  unpassed : ∀ b rest, b ≠ 37 → c.directive [] (b :: rest) = none
  last : ∀ args d, c.directive args [] = some d → d = ⟨0, [37], args⟩

variable (c : RedisContext)

/-- The loop over a format. `skip` is how many bytes still belong to the last directive. -/
def formatLoop : Bytes → Nat → List VaArg → Formatting → Option Formatting
  | [], _, _, s => some s
  | _ :: t, skip + 1, args, s => formatLoop t skip args s
  | b :: t, 0, args, s =>
    if b = 37 then
      match c.directive args t with
      | none => none
      | some d => formatLoop t d.taken d.args (s.put d.text)
    else if b = 32 then formatLoop t 0 args s.endArg
    else formatLoop t 0 args (s.put [b])

/-- `redisvCommand(c, format, ap)`: the arguments that are sent. -/
def redisvCommand (format : Bytes) (args : List VaArg) : Option (List Bytes) :=
  (c.formatLoop (cstr format) 0 args ⟨[], [], false, 0⟩).map fun s => s.endArg.argv

/-- `redisCommandArgv(c, argc, argv, argvlen)`. A negative `argc` is no vector. -/
def redisCommandArgv (_ : RedisContext) (argc : Int32) (argv : List Bytes) : Option (List Bytes) :=
  if argc < 0 then none else some (argv.take argc.toInt.toNat)

/-- The directives when no variadic argument is passed. -/
def plain (text : Bytes) : Option Directive :=
  (c.directive [] text).map fun d => ⟨d.taken, d.text, 0⟩

end RedisContext

/-! ## The operations -/

structure RedisClient where
  context_ : Option RedisContext

namespace RedisClient

variable (self : RedisClient)

/-- What the functions with a format send. They differ in what they read of the reply. -/
def command (cmd : Bytes) (args : List VaArg) : Option (List Bytes) :=
  self.context_.bind fun c => c.redisvCommand cmd args

/-- What the functions with a vector send. -/
def commandArgv (vData : List Bytes) : Option (List Bytes) :=
  self.context_.bind fun c => c.redisCommandArgv (Int32.ofNat vData.length) vData

def commandInteger (cmd : Bytes) (args : List VaArg) : Option (List Bytes) := self.command cmd args

def commandString (cmd : Bytes) (args : List VaArg) : Option (List Bytes) := self.command cmd args

def commandList (cmd : Bytes) (args : List VaArg) : Option (List Bytes) := self.command cmd args

def commandArray (cmd : Bytes) (args : List VaArg) : Option (List Bytes) := self.command cmd args

def commandBool (cmd : Bytes) (args : List VaArg) : Option (List Bytes) := self.command cmd args

def commandArgvStatus (vData : List Bytes) : Option (List Bytes) := self.commandArgv vData

def commandArgvInteger (vData : List Bytes) : Option (List Bytes) := self.commandArgv vData

def commandArgvArray (vData : List Bytes) : Option (List Bytes) := self.commandArgv vData

def addParam (dest src : List Bytes) : List Bytes := dest ++ src

def exists_ (key : Bytes) : Option (List Bytes) :=
  if key = [] then none else self.commandBool (ascii "EXISTS %s") [.str key]

def set (key value : Bytes) : Option (List Bytes) :=
  if key = [] ∨ value = [] then none else self.commandArgvStatus [ascii "SET", key, value]

def get (key : Bytes) : Option (List Bytes) :=
  if key = [] then none else self.commandString (ascii "GET %s") [.str key]

def getset (key newValue : Bytes) : Option (List Bytes) :=
  if key = [] ∨ newValue = [] then none
  else self.commandString (ascii "GETSET %s %s") [.str key, .str newValue]

def del (key : Bytes) : Option (List Bytes) :=
  if key = [] then none else self.commandBool (ascii "DEL %s") [.str key]

def hset (key field value : Bytes) : Option (List Bytes) :=
  if key = [] ∨ field = [] ∨ value = [] then none
  else self.commandArgvInteger [ascii "HSET", key, field, value]

def hget (key field : Bytes) : Option (List Bytes) :=
  if key = [] ∨ field = [] then none
  else self.commandString (ascii "HGET %s %s") [.str key, .str field]

def hgetall (key : Bytes) : Option (List Bytes) :=
  if key = [] then none else self.commandArray (ascii "hgetall %s") [.str key]

def hdel (key field : Bytes) : Option (List Bytes) :=
  if key = [] ∨ field = [] then none
  else self.commandInteger (ascii "HDEL %s %s") [.str key, .str field]

/-- The entries of a `std::map` come in its order. -/
def hmset (key : Bytes) (hashMap : List (Bytes × Bytes)) : Option (List Bytes) :=
  if key = [] ∨ hashMap = [] then none
  else self.commandArgvInteger ([ascii "HMSET", key] ++ hashMap.flatMap fun it => [it.1, it.2])

def hmget (key : Bytes) (fieldList : List Bytes) : Option (List Bytes) :=
  if key = [] ∨ fieldList = [] then none
  else self.commandArgvArray (addParam [ascii "HMGET", key] fieldList)

def sadd (key : Bytes) (vValue : List Bytes) : Option (List Bytes) :=
  if key = [] ∨ vValue = [] then none
  else self.commandArgvInteger (addParam [ascii "SADD", key] vValue)

def srem (key : Bytes) (members : List Bytes) : Option (List Bytes) :=
  if key = [] ∨ members = [] then none
  else self.commandArgvInteger (addParam [ascii "SREM", key] members)

/-- The member is not checked. -/
def sismember (key member : Bytes) : Option (List Bytes) :=
  if key = [] then none else self.commandBool (ascii "SISMEMBER %s %s") [.str key, .str member]

def zaddInt (key : Bytes) (score : Int32) (member : Bytes) : Option (List Bytes) :=
  if key = [] ∨ member = [] then none
  else self.commandInteger (ascii "ZADD %s %d %s") [.str key, .int score, .str member]

def zaddDouble (key score member : Bytes) : Option (List Bytes) :=
  if key = [] ∨ member = [] then none
  else self.commandInteger (ascii "ZADD %s %f %s") [.str key, .double score, .str member]

def zaddString (key score member : Bytes) : Option (List Bytes) :=
  if key = [] ∨ score = [] ∨ member = [] then none
  else self.commandInteger (ascii "ZADD %s %s %s") [.str key, .str score, .str member]

/-- From a map of the members to their scores. -/
def zaddMap (key : Bytes) (mMap : List (Bytes × Bytes)) : Option (List Bytes) :=
  if key = [] ∨ mMap = [] then none
  else self.commandArgvInteger ([ascii "ZADD", key] ++ mMap.flatMap fun it => [it.2, it.1])

def zrem (key : Bytes) (vMembers : List Bytes) : Option (List Bytes) :=
  if key = [] ∨ vMembers = [] then none
  else self.commandArgvInteger (addParam [ascii "ZREM", key] vMembers)

def lpush (key value : Bytes) : Option (List Bytes) :=
  if key = [] ∨ value = [] then none else self.commandArgvInteger [ascii "LPUSH", key, value]

def rpush (key value : Bytes) : Option (List Bytes) :=
  if key = [] ∨ value = [] then none else self.commandArgvInteger [ascii "RPUSH", key, value]

def lpop (key : Bytes) : Option (List Bytes) :=
  if key = [] then none else self.commandString (ascii "LPOP " ++ key) []

def rpop (key : Bytes) : Option (List Bytes) :=
  if key = [] then none else self.commandString (ascii "RPOP " ++ key) []

def blpop (key : Bytes) (timeout : Int64) : Option (List Bytes) :=
  if key = [] then none
  else self.commandList (ascii "BLPOP " ++ key ++ ascii " " ++ intDec timeout.toInt) []

def brpop (key : Bytes) (timeout : Int64) : Option (List Bytes) :=
  if key = [] then none
  else self.commandList (ascii "BRPOP " ++ key ++ ascii " " ++ intDec timeout.toInt) []

end RedisClient

/-- A call. -/
inductive Op where
  | exists_ (key : Bytes)
  | set (key value : Bytes)
  | get (key : Bytes)
  | getset (key newValue : Bytes)
  | del (key : Bytes)
  | hset (key field value : Bytes)
  | hget (key field : Bytes)
  | hgetall (key : Bytes)
  | hdel (key field : Bytes)
  | hmset (key : Bytes) (hashMap : List (Bytes × Bytes))
  | hmget (key : Bytes) (fieldList : List Bytes)
  | sadd (key : Bytes) (vValue : List Bytes)
  | srem (key : Bytes) (members : List Bytes)
  | sismember (key member : Bytes)
  | zaddInt (key : Bytes) (score : Int32) (member : Bytes)
  | zaddDouble (key score member : Bytes)
  | zaddString (key score member : Bytes)
  | zaddMap (key : Bytes) (mMap : List (Bytes × Bytes))
  | zrem (key : Bytes) (vMembers : List Bytes)
  | lpush (key value : Bytes)
  | rpush (key value : Bytes)
  | lpop (key : Bytes)
  | rpop (key : Bytes)
  | blpop (key : Bytes) (timeout : Int64)
  | brpop (key : Bytes) (timeout : Int64)
  deriving DecidableEq, Repr

namespace Op

/-- What is sent. -/
def send (self : RedisClient) : Op → Option (List Bytes)
  | exists_ key => self.exists_ key
  | set key value => self.set key value
  | get key => self.get key
  | getset key newValue => self.getset key newValue
  | del key => self.del key
  | hset key field value => self.hset key field value
  | hget key field => self.hget key field
  | hgetall key => self.hgetall key
  | hdel key field => self.hdel key field
  | hmset key hashMap => self.hmset key hashMap
  | hmget key fieldList => self.hmget key fieldList
  | sadd key vValue => self.sadd key vValue
  | srem key members => self.srem key members
  | sismember key member => self.sismember key member
  | zaddInt key score member => self.zaddInt key score member
  | zaddDouble key score member => self.zaddDouble key score member
  | zaddString key score member => self.zaddString key score member
  | zaddMap key mMap => self.zaddMap key mMap
  | zrem key vMembers => self.zrem key vMembers
  | lpush key value => self.lpush key value
  | rpush key value => self.rpush key value
  | lpop key => self.lpop key
  | rpop key => self.rpop key
  | blpop key timeout => self.blpop key timeout
  | brpop key timeout => self.brpop key timeout

/-- The emptiness check of the operation. -/
def Passes : Op → Prop
  | exists_ key | get key | del key | hgetall key | sismember key _ | lpop key | rpop key
  | blpop key _ | brpop key _ => key ≠ []
  | set key x | getset key x | hget key x | hdel key x | zaddInt key _ x | zaddDouble key _ x
  | lpush key x | rpush key x => key ≠ [] ∧ x ≠ []
  | hset key x y | zaddString key x y => key ≠ [] ∧ x ≠ [] ∧ y ≠ []
  | hmget key l | sadd key l | srem key l | zrem key l => key ≠ [] ∧ l ≠ []
  | hmset key m | zaddMap key m => key ≠ [] ∧ m ≠ []

/-- The command, the key and the other arguments. -/
def argv : Op → List Bytes
  | exists_ key => [ascii "EXISTS", key]
  | set key value => [ascii "SET", key, value]
  | get key => [ascii "GET", key]
  | getset key newValue => [ascii "GETSET", key, newValue]
  | del key => [ascii "DEL", key]
  | hset key field value => [ascii "HSET", key, field, value]
  | hget key field => [ascii "HGET", key, field]
  | hgetall key => [ascii "hgetall", key]
  | hdel key field => [ascii "HDEL", key, field]
  | hmset key hashMap => ascii "HMSET" :: key :: hashMap.flatMap fun it => [it.1, it.2]
  | hmget key fieldList => ascii "HMGET" :: key :: fieldList
  | sadd key vValue => ascii "SADD" :: key :: vValue
  | srem key members => ascii "SREM" :: key :: members
  | sismember key member => [ascii "SISMEMBER", key, member]
  | zaddInt key score member => [ascii "ZADD", key, intDec score.toInt, member]
  | zaddDouble key score member => [ascii "ZADD", key, score, member]
  | zaddString key score member => [ascii "ZADD", key, score, member]
  | zaddMap key mMap => ascii "ZADD" :: key :: mMap.flatMap fun it => [it.2, it.1]
  | zrem key vMembers => ascii "ZREM" :: key :: vMembers
  | lpush key value => [ascii "LPUSH", key, value]
  | rpush key value => [ascii "RPUSH", key, value]
  | lpop key => [ascii "LPOP", key]
  | rpop key => [ascii "RPOP", key]
  | blpop key timeout => [ascii "BLPOP", key, intDec timeout.toInt]
  | brpop key timeout => [ascii "BRPOP", key, intDec timeout.toInt]

/-- What the arguments may be. A vector takes any strings as long as an `int` counts them, a
conversion takes strings without a NUL, and a key in the format itself has no space and no `%`, but
for a `%` at the very end that hiredis copies. -/
def Safe (c : RedisContext) : Op → Prop
  | set .. | hset .. | lpush .. | rpush .. => True
  | hmset _ m | zaddMap _ m => 2 + 2 * m.length < 2 ^ 31
  | hmget _ l | sadd _ l | srem _ l | zrem _ l => 2 + l.length < 2 ^ 31
  | exists_ key | get key | del key | hgetall key => 0 ∉ key
  | getset key x | hget key x | hdel key x | sismember key x | zaddInt key _ x
  | zaddDouble key _ x => 0 ∉ key ∧ 0 ∉ x
  | zaddString key x y => 0 ∉ key ∧ 0 ∉ x ∧ 0 ∉ y
  | lpop key | rpop key => 0 ∉ key ∧ 32 ∉ key ∧ Literal c.plain key
  | blpop key _ | brpop key _ => 0 ∉ key ∧ 32 ∉ key ∧ 37 ∉ key

end Op

/-- A command word. -/
def IsWord (verb : Bytes) : Prop := verb ≠ [] ∧ 0 ∉ verb ∧ 32 ∉ verb ∧ 37 ∉ verb

instance (verb : Bytes) : Decidable (IsWord verb) := inferInstanceAs (Decidable (_ ∧ _))

/-! ## A vector -/

namespace RedisClient

variable {self : RedisClient} {c : RedisContext} (hself : self.context_ = some c)
include hself

/-- A vector is sent as it is exactly if an `int` counts it. -/
theorem commandArgv_iff (v : List Bytes) :
    self.commandArgv v = some v ↔ v.length < 2 ^ 31 := by
  rw [commandArgv, hself, Option.bind_some, RedisContext.redisCommandArgv]
  constructor
  · intro h
    split at h
    · cases h
    · -- `argc` is below `2 ^ 31`, and all of the vector has been taken.
      have hlt := (Int32.ofNat v.length).toInt_lt
      have hle := List.take_eq_self_iff v |>.mp (Option.some_inj.mp h)
      omega
  · intro h
    have hargc : (Int32.ofNat v.length).toInt = v.length := Int32.toInt_ofNat_of_lt h
    have hpos : ¬ Int32.ofNat v.length < 0 := by
      rw [Int32.lt_iff_toInt_lt, hargc]
      simp
    rw [if_neg hpos, hargc, Int.toNat_natCast, List.take_length]

end RedisClient

/-! ## A format with arguments -/

namespace RedisContext

variable {c : RedisContext} (hc : c.Printf)

/-- Text without a space and a `%`. -/
theorem formatLoop_append {verb : Bytes} (hsp : 32 ∉ verb) (hpct : 37 ∉ verb) (t : Bytes)
    (args : List VaArg) {s : Formatting} (hs : s.touched = true) :
    c.formatLoop (verb ++ t) 0 args s =
      c.formatLoop t 0 args { s with curarg := s.curarg ++ verb } := by
  induction verb generalizing s with
  | nil => simp
  | cons b verb ih =>
    simp only [List.mem_cons, not_or] at hsp hpct
    rw [List.cons_append, formatLoop, if_neg (Ne.symm hpct.1), if_neg (Ne.symm hsp.1),
      ih hsp.2 hpct.2 rfl]
    simp [Formatting.put, hs]

include hc

/-- A space and a conversion: the argument it is for is the next one of the command. -/
theorem formatLoop_conv (a : VaArg) (t : Bytes) (args : List VaArg) {s : Formatting}
    (hs : s.touched = true) :
    c.formatLoop (32 :: 37 :: a.conv :: t) 0 (a :: args) s =
      c.formatLoop t 0 args { s with argv := s.argv ++ [s.curarg], curarg := a.text } := by
  rw [formatLoop, if_neg (by decide), if_pos rfl, formatLoop, if_pos rfl, hc.passed]
  simp only [formatLoop]
  congr 1
  simp [Formatting.endArg, Formatting.put, hs]

/-- Conversions with their arguments. -/
theorem formatLoop_convs (args : List VaArg) {s : Formatting} (hs : s.touched = true) :
    ∃ s', c.formatLoop (args.flatMap fun a => [32, 37, a.conv]) 0 args s = some s' ∧
      s'.endArg.argv = s.argv ++ s.curarg :: args.map VaArg.text := by
  induction args generalizing s with
  | nil => exact ⟨s, rfl, by simp [Formatting.endArg, hs]⟩
  | cons a args ih =>
    obtain ⟨s', heq, hargv⟩ :=
      ih (s := { s with argv := s.argv ++ [s.curarg], curarg := a.text }) hs
    refine ⟨s', ?_, by rw [hargv, List.append_assoc]; rfl⟩
    rw [List.flatMap_cons]
    exact (formatLoop_conv hc a _ args hs).trans heq

/-- A command word and conversions: every argument is sent up to its first NUL. -/
theorem redisvCommand_convs {verb : Bytes} (hverb : IsWord verb) (args : List VaArg) :
    c.redisvCommand (verb ++ args.flatMap fun a => [32, 37, a.conv]) args =
      some (verb :: args.map VaArg.text) := by
  obtain ⟨hne, hnul, hsp, hpct⟩ := hverb
  have hformat : 0 ∉ verb ++ args.flatMap fun a => [32, 37, a.conv] := by
    intro hmem
    rcases List.mem_append.mp hmem with hmem | hmem
    · exact hnul hmem
    · obtain ⟨a, -, ha⟩ := List.mem_flatMap.mp hmem
      cases a <;> simp [VaArg.conv] at ha
  obtain ⟨b, verb, rfl⟩ := List.exists_cons_of_ne_nil hne
  simp only [List.mem_cons, not_or] at hsp hpct
  obtain ⟨s', heq, hargv⟩ := formatLoop_convs hc args (s := ⟨[], b :: verb, true, 0⟩) rfl
  rw [redisvCommand, cstr_eq_self hformat, List.cons_append, formatLoop, if_neg (Ne.symm hpct.1),
    if_neg (Ne.symm hsp.1), formatLoop_append hsp.2 hpct.2 _ _ rfl]
  exact (congrArg _ heq).trans (congrArg some hargv)

end RedisContext

/-- An argument comes through a conversion unless it is a string with a NUL. -/
theorem VaArg.text_eq_whole_iff (a : VaArg) : a.text = a.whole ↔ ∀ s, a = .str s → 0 ∉ s := by
  cases a with
  | str s =>
    constructor
    · intro h t ht
      cases ht
      exact (show cstr s = s from h) ▸ zero_notMem_cstr s
    · intro h
      exact cstr_eq_self (h s rfl)
  | int n => simp [VaArg.text, VaArg.whole]
  | double text => simp [VaArg.text, VaArg.whole]

namespace RedisClient

variable {self : RedisClient} {c : RedisContext} (hself : self.context_ = some c) (hc : c.Printf)
include hself hc

/-- A format with its arguments sends them as they are exactly if no string among them has a NUL. -/
theorem command_iff {verb : Bytes} (hverb : IsWord verb) (args : List VaArg) :
    self.command (verb ++ args.flatMap fun a => [32, 37, a.conv]) args =
        some (verb :: args.map VaArg.whole) ↔
      ∀ s, .str s ∈ args → 0 ∉ s := by
  rw [command, hself, Option.bind_some, RedisContext.redisvCommand_convs hc hverb,
    Option.some_inj, List.cons_inj_right, List.map_inj_left]
  constructor
  · intro h s hs
    exact (VaArg.text_eq_whole_iff _).mp (h _ hs) s rfl
  · intro h a ha
    exact (VaArg.text_eq_whole_iff a).mpr fun s hs => h s (hs ▸ ha)

end RedisClient

/-! ## A text used as a format -/

namespace RedisContext

variable {c : RedisContext} (hc : c.Printf)
include hc

theorem Printf.plain : PrintfLike c.plain where
  percent rest := by
    rw [RedisContext.plain, hc.percent]
    rfl
  argument b rest d hb h := by
    rw [RedisContext.plain, hc.unpassed b rest hb] at h
    cases h
  last d h := by
    obtain ⟨d', hd', rfl⟩ := Option.map_eq_some_iff.mp h
    rw [hc.last [] d' hd']

/-- Without arguments none is left. -/
theorem directive_nil {t : Bytes} {d : VaDirective} (h : c.directive [] t = some d) :
    d.args = [] := by
  cases t with
  | nil => rw [hc.last [] d h]
  | cons b t =>
    by_cases hb : b = 37
    · subst hb
      rw [hc.percent] at h
      cases h
      rfl
    · rw [hc.unpassed b t hb] at h
      cases h

/-- Without arguments it is the loop of `redisAsyncCommand`. -/
theorem formatLoop_nil (t : Bytes) (skip : Nat) (s : Formatting) :
    c.formatLoop t skip [] s = RedisAsyn.formatLoop c.plain t skip s := by
  induction t generalizing skip s with
  | nil => cases skip <;> rfl
  | cons b t ih =>
    cases skip with
    | succ skip => exact ih skip s
    | zero =>
      rw [formatLoop, RedisAsyn.formatLoop]
      by_cases hb : b = 37
      · rw [if_pos hb, if_pos hb, plain]
        cases hdir : c.directive [] t with
        | none => rfl
        | some d =>
          show c.formatLoop t d.taken d.args (s.put d.text) = _
          rw [directive_nil hc hdir]
          exact ih d.taken (s.put d.text)
      · rw [if_neg hb, if_neg hb, ih, ih]

omit hc in
theorem plain_reads {t : Bytes} {skip : Nat} {s s' : Formatting}
    (h : RedisAsyn.formatLoop c.plain t skip s = some s') : s'.reads = s.reads := by
  induction t generalizing skip s with
  | nil =>
    cases h
    rfl
  | cons b t ih =>
    cases skip with
    | succ skip => exact ih h
    | zero =>
      rw [RedisAsyn.formatLoop] at h
      split at h
      · cases hdir : c.directive [] t with
        | none =>
          rw [plain, hdir] at h
          cases h
        | some d =>
          rw [plain, hdir] at h
          exact ih (s := (s.put d.text).read 0) h
      · split at h
        · exact (ih h).trans (Formatting.endArg_reads s)
        · exact ih (s := s.put [b]) h

/-- Without arguments a format comes to what `redisAsyncCommand` makes of it. -/
theorem redisvCommand_nil_iff (t : Bytes) (argv : List Bytes) :
    c.redisvCommand t [] = some argv ↔
      RedisAsyn.redisvFormatCommand c.plain t = some (argv, 0) := by
  rw [redisvCommand, formatLoop_nil hc, RedisAsyn.redisvFormatCommand, Option.map_eq_some_iff,
    Option.map_eq_some_iff]
  constructor
  · rintro ⟨s, hloop, rfl⟩
    exact ⟨s, hloop, by rw [plain_reads hloop]⟩
  · rintro ⟨s, hloop, hs⟩
    exact ⟨s, hloop, (Prod.mk.inj hs).1⟩

/-- The arguments have no more bytes than the text, spaces apart. -/
theorem redisvCommand_nil_size {t : Bytes} {argv : List Bytes}
    (h : c.redisvCommand t [] = some argv) :
    argv.flatten.length ≤ (t.filter (· ≠ 32)).length := by
  obtain ⟨s, hloop, hs⟩ := Option.map_eq_some_iff.mp ((redisvCommand_nil_iff hc t argv).mp h)
  obtain ⟨rfl, hreads⟩ := Prod.mk.inj hs
  have hle := (RedisAsyn.formatLoop_size hc.plain hloop hreads).1
  have hcstr := (RedisAsyn.length_filter_cstr t).1
  have hsize : s.endArg.argv.flatten.length ≤ s.size := by
    rw [← Formatting.endArg_size]
    exact Nat.le_add_right _ _
  have hzero : (⟨[], [], false, 0⟩ : Formatting).size = 0 := rfl
  omega

/-- Words with spaces between them, as a format: they are sent as they are exactly if none has a
space or a NUL and every `%` is copied. -/
theorem redisvCommand_words_iff {ws : List Bytes} (hne : ∀ w ∈ ws, w ≠ []) :
    c.redisvCommand ([32].intercalate ws) [] = some ws ↔
      (∀ w ∈ ws, 32 ∉ w) ∧ 0 ∉ [32].intercalate ws ∧ Literal c.plain ([32].intercalate ws) := by
  have hsent (hsp : ∀ w ∈ ws, 32 ∉ w) : c.redisvCommand ([32].intercalate ws) [] = some ws ↔
      0 ∉ [32].intercalate ws ∧ Literal c.plain ([32].intercalate ws) := by
    have hiff := RedisAsyn.redisvFormatCommand_words_iff hc.plain ([32].intercalate ws)
    rw [words_intercalate hne hsp] at hiff
    exact (redisvCommand_nil_iff hc _ _).trans hiff
  constructor
  · intro h
    -- All bytes come through, so none of them has been left out as a space.
    have hsize := redisvCommand_nil_size hc h
    rw [filter_intercalate] at hsize
    have hall := List.length_filter_eq_length_iff.mp
      (Nat.le_antisymm (List.length_filter_le _ _) hsize)
    have hsp : ∀ w ∈ ws, 32 ∉ w := by
      intro w hw hmem
      have := hall 32 (List.mem_flatten.mpr ⟨w, hw, hmem⟩)
      simp at this
    exact ⟨hsp, (hsent hsp).mp h⟩
  · rintro ⟨hsp, hlit⟩
    exact (hsent hsp).mpr hlit

end RedisContext

/-- Behind a text without `%`. -/
theorem literal_append_iff {directive : Bytes → Option Directive} {l : Bytes} (hl : 37 ∉ l)
    (t : Bytes) : Literal directive (l ++ t) ↔ Literal directive t := by
  constructor
  · intro h pre post heq
    exact h (l ++ pre) post (by rw [heq, List.append_assoc])
  · exact Literal.append hl

/-- In front of other bytes a `%` is not copied. -/
theorem literal_append_cons_iff {directive : Bytes → Option Directive} (t : Bytes) {b : UInt8}
    {r : Bytes} (hr : 37 ∉ b :: r) : Literal directive (t ++ b :: r) ↔ 37 ∉ t := by
  constructor
  · intro h hmem
    obtain ⟨pre, post, rfl⟩ := List.append_of_mem hmem
    have hend := (h pre (post ++ b :: r) (by simp)).1
    simp at hend
  · intro h pre post heq
    have hmem : 37 ∈ t ++ b :: r := heq ▸ by simp
    exact absurd hmem (by simp only [List.mem_append, not_or]; exact ⟨h, hr⟩)

namespace RedisClient

variable {self : RedisClient} {c : RedisContext} (hself : self.context_ = some c) (hc : c.Printf)
  {verb key : Bytes} (hverb : IsWord verb) (hkey : key ≠ [])
include hself hc hverb hkey

/-- A command word and a key, as a format. -/
theorem commandText_iff :
    self.command (verb ++ 32 :: key) [] = some [verb, key] ↔
      0 ∉ key ∧ 32 ∉ key ∧ Literal c.plain key := by
  obtain ⟨hne, hnul, hsp, hpct⟩ := hverb
  have htext : verb ++ 32 :: key = [32].intercalate [verb, key] := by simp
  have hlit : Literal c.plain (verb ++ 32 :: key) ↔ Literal c.plain key := by
    rw [List.append_cons]
    exact literal_append_iff (by simp [hpct]) key
  rw [command, hself, Option.bind_some, htext,
    RedisContext.redisvCommand_words_iff hc (by simp [hne, hkey]), ← htext, hlit]
  simp only [List.mem_append, List.mem_cons, List.not_mem_nil, or_false, forall_eq_or_imp,
    forall_eq, not_or]
  constructor
  · rintro ⟨⟨-, hsp⟩, ⟨-, -, hnul⟩, hlit⟩
    exact ⟨hnul, hsp, hlit⟩
  · rintro ⟨hnul', hsp', hlit⟩
    exact ⟨⟨hsp, hsp'⟩, ⟨hnul, by decide, hnul'⟩, hlit⟩

/-- A number behind it. -/
theorem commandNumber_iff (z : Int) :
    self.command (verb ++ 32 :: key ++ [32] ++ intDec z) [] = some [verb, key, intDec z] ↔
      0 ∉ key ∧ 32 ∉ key ∧ 37 ∉ key := by
  obtain ⟨hne, hnul, hsp, hpct⟩ := hverb
  have hdec (b : UInt8) (hb : b ≠ 45) (hd : isDigit b = false) : b ∉ intDec z := by
    intro hmem
    rcases mem_intDec hmem with h | h
    · exact hb h
    · rw [hd] at h
      cases h
  have hnum : intDec z ≠ [] := by
    unfold intDec
    split
    · exact List.cons_ne_nil _ _
    · exact natDec_ne_nil _
  have htext : verb ++ 32 :: key ++ [32] ++ intDec z = [32].intercalate [verb, key, intDec z] := by
    simp
  have hlit : Literal c.plain (verb ++ 32 :: key ++ [32] ++ intDec z) ↔ 37 ∉ key := by
    rw [List.append_assoc, List.singleton_append, literal_append_cons_iff]
    · simp [hpct]
    · simp [hdec 37 (by decide) (by decide)]
  rw [command, hself, Option.bind_some, htext,
    RedisContext.redisvCommand_words_iff hc (by simp [hne, hkey, hnum]), ← htext, hlit]
  simp only [List.mem_append, List.mem_cons, List.not_mem_nil, or_false, forall_eq_or_imp,
    forall_eq, not_or]
  constructor
  · rintro ⟨⟨-, hsp, -⟩, ⟨⟨⟨-, -, hnul⟩, -⟩, -⟩, hpct⟩
    exact ⟨hnul, hsp, hpct⟩
  · rintro ⟨hnul', hsp', hpct'⟩
    exact ⟨⟨hsp, hsp', hdec 32 (by decide) (by decide)⟩,
      ⟨⟨⟨hnul, by decide, hnul'⟩, by decide⟩, hdec 0 (by decide) (by decide)⟩, hpct'⟩

end RedisClient

/-! ## The commands -/

/-- A command, a key and the entries of a list, in an `int`. -/
theorem length_list (verb key : Bytes) (l : List Bytes) :
    (verb :: key :: l).length < 2 ^ 31 ↔ 2 + l.length < 2 ^ 31 := by
  rw [List.length_cons, List.length_cons, Nat.add_comm 2]

/-- And the two parts of every entry of a map. -/
theorem length_map (verb key : Bytes) (m : List (Bytes × Bytes)) {f : Bytes × Bytes → List Bytes}
    (hf : ∀ it, (f it).length = 2) :
    (verb :: key :: m.flatMap f).length < 2 ^ 31 ↔ 2 + 2 * m.length < 2 ^ 31 := by
  have hlen : (m.flatMap f).length = 2 * m.length := by
    rw [List.length_flatMap, funext hf, List.map_const', List.sum_replicate, smul_eq_mul,
      Nat.mul_comm]
  rw [length_list, hlen]

/-- For any operation of a connected client, with any arguments that pass its check: it sends the
command, the key and the other arguments, each as one argument, exactly if they are safe for the way
the command is built. -/
theorem sent_iff {self : RedisClient} {c : RedisContext} (hself : self.context_ = some c)
    (hc : c.Printf) (op : Op) (hp : op.Passes) : op.send self = some op.argv ↔ op.Safe c := by
  have hvector (v : List Bytes) : self.commandArgv v = some v ↔ v.length < 2 ^ 31 :=
    RedisClient.commandArgv_iff hself v
  have hformat (verb : Bytes) (hverb : IsWord verb) (args : List VaArg) :=
    RedisClient.command_iff hself hc hverb args
  have htext (verb key : Bytes) (hverb : IsWord verb) (hkey : key ≠ []) :=
    RedisClient.commandText_iff hself hc hverb hkey
  have hnumber (verb key : Bytes) (hverb : IsWord verb) (hkey : key ≠ []) (z : Int) :=
    RedisClient.commandNumber_iff hself hc hverb hkey z
  cases op with
  | exists_ key =>
    rw [Op.send, RedisClient.exists_, if_neg hp]
    exact (hformat (ascii "EXISTS") (by decide) [.str key]).trans (by simp [Op.Safe])
  | set key value =>
    rw [Op.send, RedisClient.set, if_neg (not_or.mpr hp)]
    exact (hvector _).trans (by simp [Op.Safe])
  | get key =>
    rw [Op.send, RedisClient.get, if_neg hp]
    exact (hformat (ascii "GET") (by decide) [.str key]).trans (by simp [Op.Safe])
  | getset key newValue =>
    rw [Op.send, RedisClient.getset, if_neg (not_or.mpr hp)]
    exact (hformat (ascii "GETSET") (by decide) [.str key, .str newValue]).trans (by simp [Op.Safe])
  | del key =>
    rw [Op.send, RedisClient.del, if_neg hp]
    exact (hformat (ascii "DEL") (by decide) [.str key]).trans (by simp [Op.Safe])
  | hset key field value =>
    rw [Op.send, RedisClient.hset, if_neg (not_or.mpr ⟨hp.1, not_or.mpr hp.2⟩)]
    exact (hvector _).trans (by simp [Op.Safe])
  | hget key field =>
    rw [Op.send, RedisClient.hget, if_neg (not_or.mpr hp)]
    exact (hformat (ascii "HGET") (by decide) [.str key, .str field]).trans (by simp [Op.Safe])
  | hgetall key =>
    rw [Op.send, RedisClient.hgetall, if_neg hp]
    exact (hformat (ascii "hgetall") (by decide) [.str key]).trans (by simp [Op.Safe])
  | hdel key field =>
    rw [Op.send, RedisClient.hdel, if_neg (not_or.mpr hp)]
    exact (hformat (ascii "HDEL") (by decide) [.str key, .str field]).trans (by simp [Op.Safe])
  | hmset key hashMap =>
    rw [Op.send, RedisClient.hmset, if_neg (not_or.mpr hp)]
    exact (hvector _).trans (length_map _ _ hashMap fun _ => rfl)
  | hmget key fieldList =>
    rw [Op.send, RedisClient.hmget, if_neg (not_or.mpr hp)]
    exact (hvector _).trans (length_list _ _ fieldList)
  | sadd key vValue =>
    rw [Op.send, RedisClient.sadd, if_neg (not_or.mpr hp)]
    exact (hvector _).trans (length_list _ _ vValue)
  | srem key members =>
    rw [Op.send, RedisClient.srem, if_neg (not_or.mpr hp)]
    exact (hvector _).trans (length_list _ _ members)
  | sismember key member =>
    rw [Op.send, RedisClient.sismember, if_neg hp]
    exact (hformat (ascii "SISMEMBER") (by decide) [.str key, .str member]).trans
      (by simp [Op.Safe])
  | zaddInt key score member =>
    rw [Op.send, RedisClient.zaddInt, if_neg (not_or.mpr hp)]
    exact (hformat (ascii "ZADD") (by decide) [.str key, .int score, .str member]).trans
      (by simp [Op.Safe])
  | zaddDouble key score member =>
    rw [Op.send, RedisClient.zaddDouble, if_neg (not_or.mpr hp)]
    exact (hformat (ascii "ZADD") (by decide) [.str key, .double score, .str member]).trans
      (by simp [Op.Safe])
  | zaddString key score member =>
    rw [Op.send, RedisClient.zaddString, if_neg (not_or.mpr ⟨hp.1, not_or.mpr hp.2⟩)]
    exact (hformat (ascii "ZADD") (by decide) [.str key, .str score, .str member]).trans
      (by simp [Op.Safe])
  | zaddMap key mMap =>
    rw [Op.send, RedisClient.zaddMap, if_neg (not_or.mpr hp)]
    exact (hvector _).trans (length_map _ _ mMap fun _ => rfl)
  | zrem key vMembers =>
    rw [Op.send, RedisClient.zrem, if_neg (not_or.mpr hp)]
    exact (hvector _).trans (length_list _ _ vMembers)
  | lpush key value =>
    rw [Op.send, RedisClient.lpush, if_neg (not_or.mpr hp)]
    exact (hvector _).trans (by simp [Op.Safe])
  | rpush key value =>
    rw [Op.send, RedisClient.rpush, if_neg (not_or.mpr hp)]
    exact (hvector _).trans (by simp [Op.Safe])
  | lpop key =>
    rw [Op.send, RedisClient.lpop, if_neg hp]
    exact htext (ascii "LPOP") key (by decide) hp
  | rpop key =>
    rw [Op.send, RedisClient.rpop, if_neg hp]
    exact htext (ascii "RPOP") key (by decide) hp
  | blpop key timeout =>
    rw [Op.send, RedisClient.blpop, if_neg hp]
    exact hnumber (ascii "BLPOP") key (by decide) hp timeout.toInt
  | brpop key timeout =>
    rw [Op.send, RedisClient.brpop, if_neg hp]
    exact hnumber (ascii "BRPOP") key (by decide) hp timeout.toInt

/-- The directives without flags, a width or a length. -/
def plainContext : RedisContext where
  directive args text :=
    match args, text with
    | args, [] => some ⟨0, [37], args⟩
    | [], b :: _ => if b = 37 then some ⟨1, [37], []⟩ else none
    | a :: args, b :: _ =>
      if b = 37 then some ⟨1, [37], a :: args⟩
      else if b = a.conv then some ⟨1, a.text, args⟩
      else none

theorem plainContext_printf : plainContext.Printf where
  percent args rest := by cases args <;> rfl
  passed a args rest := by
    cases a <;> simp [plainContext, VaArg.conv]
  unpassed b rest hb := if_neg hb
  last args d h := by
    cases args <;> exact (Option.some_inj.mp h).symm

/-- `getset("a b", "50%")` sends `GETSET`, `a b` and `50%`, and `rpop("50%")` sends `RPOP` and
`50%`. -/
theorem sent_iff_plain :
    (Op.getset (ascii "a b") (ascii "50%")).send ⟨some plainContext⟩ =
        some [ascii "GETSET", ascii "a b", ascii "50%"] ∧
      (Op.rpop (ascii "50%")).send ⟨some plainContext⟩ = some [ascii "RPOP", ascii "50%"] := by
  have hlast : Literal plainContext.plain [37] := RedisAsyn.literal_percent (by decide)
  constructor
  · have hpasses : (Op.getset (ascii "a b") (ascii "50%")).Passes := ⟨by decide, by decide⟩
    exact (sent_iff rfl plainContext_printf _ hpasses).mpr ⟨by decide, by decide⟩
  · have hpasses : (Op.rpop (ascii "50%")).Passes := show _ ≠ _ by decide
    exact (sent_iff rfl plainContext_printf _ hpasses).mpr
      ⟨by decide, by decide, hlast.append (l := ascii "50") (by decide)⟩

/-- `lpop("a b")` sends `LPOP`, `a` and `b`. -/
theorem sent_fails :
    ¬ ∀ (self : RedisClient) (c : RedisContext), self.context_ = some c → c.Printf →
      ∀ op : Op, op.Passes → op.send self = some op.argv := by
  intro h
  have hpasses : (Op.lpop (ascii "a b")).Passes := show _ ≠ _ by decide
  have hsent := h ⟨some plainContext⟩ plainContext rfl plainContext_printf _ hpasses
  exact absurd hsent (by decide)

/-- A `%s` in a key reads an argument that was not passed. -/
example : (Op.lpop (ascii "%s")).send ⟨some plainContext⟩ = none := by decide

/-- The text behind a NUL is not sent. -/
example : (Op.get [97, 0, 98]).send ⟨some plainContext⟩ = some [ascii "GET", ascii "a"] := by
  decide

end RedisCluster
end CmakeFrame
