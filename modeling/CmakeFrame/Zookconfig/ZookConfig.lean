import CmakeFrame.Lib.Decimal
import CmakeFrame.Lib.Search

/-!
# `zookconfig/ZookConfig.cpp`: codes, paths and the loop around a call of zookeeper

* The codes of `ZookConfig.h`, and those of `zookeeper/zookeeper.h` that the code compares with.
* `Reply`, `retry`: every call of zookeeper stands in a loop that tries again when the connection is
  lost, `colonyNum` times at most.
* `zookeeperPathCheck`, `utilFristChar`, `utilLastConstchar`.
* `childPath`: the path of a child, as both loaders and the callback build it; `isBelow`: the test
  of `watcher`.
-/

namespace CmakeFrame
namespace Zookconfig

open Lib

/-! ## Codes -/

def ZOOK_CONFIG_PARAMETER_ERROR : Int := -10001
def ZOOK_CONFIG_ALREADY_INIT : Int := -10002
def ZOOK_SERVER_INFO_ERROR : Int := -10006

def ZOK : Int := 0
def ZCONNECTIONLOSS : Int := -4
def ZBADARGUMENTS : Int := -8
def ZNONODE : Int := -101
def ZNOAUTH : Int := -102
def ZNOCHILDRENFOREPHEMERALS : Int := -108
def ZNODEEXISTS : Int := -110

/-! ## The loop around a call -/

/-- What one call of zookeeper gives: `ZOK` with a result, `ZCONNECTIONLOSS`, or another code. -/
inductive Reply (α : Type) where
  | ok (a : α)
  | loss
  | error (code : Int)
  deriving DecidableEq, Repr

/-- The rest of `do { … } while(tryTime < colonyNum)` from try number `tryTime` on, with `left` more
tries to go when this one is lost. -/
def retryFrom {α : Type} (replies : Nat → Reply α) : (left tryTime : Nat) → Reply α
  | 0, tryTime => replies tryTime
  | left + 1, tryTime =>
    match replies tryTime with
    | .ok a => .ok a
    | .error code => .error code
    | .loss => retryFrom replies left (tryTime + 1)

/-- The loop, where `replies n` is the reply to try number `n`. -/
def retry {α : Type} (colonyNum : Nat) (replies : Nat → Reply α) : Reply α :=
  retryFrom replies (colonyNum - 1) 0

section

variable {α : Type} {replies : Nat → Reply α}

theorem retryFrom_eq (left tryTime : Nat) : ∃ n, retryFrom replies left tryTime = replies n := by
  induction left generalizing tryTime with
  | zero => exact ⟨tryTime, rfl⟩
  | succ left ih =>
    cases h : replies tryTime with
    | ok a => exact ⟨tryTime, by simp [retryFrom, h]⟩
    | error code => exact ⟨tryTime, by simp [retryFrom, h]⟩
    | loss =>
      obtain ⟨n, hn⟩ := ih (tryTime + 1)
      exact ⟨n, by simpa [retryFrom, h] using hn⟩

/-- The loop gives one of the replies. -/
theorem retry_eq (colonyNum : Nat) : ∃ n, retry colonyNum replies = replies n :=
  retryFrom_eq _ _

end

/-! ## Paths -/

/-- `zookeeperPathCheck`: the length, or an error. -/
def zookeeperPathCheck (str : Bytes) : Int :=
  let str := cstr str
  if str.length = 0 then ZOOK_CONFIG_PARAMETER_ERROR
  else if str.head? ≠ some 47 then ZOOK_CONFIG_PARAMETER_ERROR
  else if str.length = 1 then 1
  else if str.getLast? = some 47 then ZOOK_CONFIG_PARAMETER_ERROR
  else str.length

theorem zookeeperPathCheck_le_zero {str : Bytes} (h : zookeeperPathCheck str ≤ 0) :
    zookeeperPathCheck str = ZOOK_CONFIG_PARAMETER_ERROR := by
  unfold zookeeperPathCheck at h ⊢
  grind

/-- `utilFristChar`, as the text before the character and the text behind it. -/
def utilFristChar (str : Bytes) (c : UInt8) : Option (Bytes × Bytes) :=
  let str := cstr str
  match findByte c str with
  | none => none
  | some i => some (str.take i, str.drop (i + 1))

/-- `utilLastConstchar`, as the text behind the character. -/
def utilLastConstchar (str : Bytes) (c : UInt8) : Option Bytes :=
  let str := cstr str
  if c ∈ str then some (str.reverse.takeWhile (· ≠ c)).reverse else none

/-- `sprintf(path, "%s/%s", …)` -/
def childPath (root child : Bytes) : Bytes := cstr root ++ 47 :: cstr child

theorem childPath_injective {root a b : Bytes} (ha : 0 ∉ a) (hb : 0 ∉ b)
    (h : childPath root a = childPath root b) : a = b := by
  unfold childPath at h
  rw [cstr_eq_self ha, cstr_eq_self hb] at h
  simpa using h

/-- `strncmp(path, root.c_str(), root.length()) == 0` -/
def isBelow (root path : Bytes) : Bool :=
  (cstr path).take root.length = (cstr root).take root.length

/-- The `char path[512]` of the code has room for a path. -/
def PathFits (path : Bytes) : Prop := path.length < 512

/-- The `char cfg[1024]` of the code has room for a value and for the 0 behind it. -/
def ValueFits (value : Bytes) : Prop := value.length < 1024

instance (path : Bytes) : Decidable (PathFits path) := inferInstanceAs (Decidable (_ < _))
instance (value : Bytes) : Decidable (ValueFits value) := inferInstanceAs (Decidable (_ < _))

end Zookconfig
end CmakeFrame
