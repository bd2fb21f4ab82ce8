import CmakeFrame.RedisAsyn.KeySlot
import CmakeFrame.RedisAsyn.SlaveNodes

/-!
# `redisAsyn/v1.0/src/RedisAsync.cpp`: `redisAsyncCommand` with its handle

`SlaveNodes` has the choice of a client for a given manager and slot. Here is the whole call: the
handle, the slot of the key, and the order that is put into the queue of a loop.

* `RedisAsync`, `QueuedCmd`: the managers behind the handles; an order in the queue of a loop.
* `RedisAsync.redisAsyncCommand`.
* `redisAsyncCommand_ok`, `redisAsyncCommand_eq`: what an accepted command comes to, and the call
  once its parameters have been accepted.
-/

namespace CmakeFrame
namespace RedisAsyn

open Lib

/-- The members of `RedisAsync` that `redisAsyncCommand` reads. -/
structure RedisAsync where
  vectRedisCliMgr : List (Option RedisMgr)
  nowSecond_ : UInt64

/-- The `OrderNode` of a command, without what the answer sets. `resultCb_` is whether there is a
callback, `cmdPri_` the pointer that it gets. -/
structure CmdOrder where
  cmdMsg_ : Bytes
  resultCb_ : Bool
  cmdPri_ : UInt64
  outSecond_ : Int32
  cmdOutSecond_ : UInt64
  deriving DecidableEq, Repr

/-- `libeventIoPtrVect[ioIndex]->libeventIoOrder(RedisCliOrderNode(cli_, cmdOrd_, outSecond_))`. -/
structure QueuedCmd where
  ioIndex : Nat
  cli_ : RedisCli
  cmdOrd_ : CmdOrder
  outSecond_ : UInt64
  deriving DecidableEq, Repr

/-- What is queued for a command on the client `cli`. -/
def RedisAsync.queuedCmd (self : RedisAsync) (cli : RedisCli) (cb : Bool) (outSecond : Int32)
    (priv : UInt64) (cmdStr : Bytes) : QueuedCmd :=
  let cmdOutSecond_ := self.nowSecond_ + outSecond.toInt64.toUInt64
  ⟨cli.ioIndex_, cli, ⟨cmdStr, cb, priv, outSecond, cmdOutSecond_⟩, cmdOutSecond_⟩

/-- `redisAsyncCommand(asyFd, cb, outSecond, priv, key, cmdStr)`: the error code, or what is queued
when it returns 0. -/
def RedisAsync.redisAsyncCommand (self : RedisAsync) (asyFd : Int32) (cb : Bool) (outSecond : Int32)
    (priv : UInt64) (key cmdStr : Bytes) : Except Int QueuedCmd :=
  if asyFd < 0 ∨ key = [] ∨ cmdStr = [] ∨ outSecond = 0 then .error CMD_PARAMETER_ERROR_CODE
  else
    match self.vectRedisCliMgr[asyFd.toNatClampNeg]? with
    | none => .error CMD_PARAMETER_ERROR_CODE
    | some none => .error CMD_SVR_INVALID_CODE
    | some (some mgr) =>
      match RedisAsyn.redisAsyncCommand mgr (getKeySlotIndex key) outSecond key cmdStr with
      | .error code => .error code
      | .ok cli => .ok (self.queuedCmd cli cb outSecond priv cmdStr)

variable {self : RedisAsync} {asyFd : Int32} {cb : Bool} {outSecond : Int32} {priv : UInt64}
  {key cmdStr : Bytes}

/-- An accepted command is queued as it was given, on the loop of the client that was chosen. -/
theorem redisAsyncCommand_ok {q : QueuedCmd}
    (h : self.redisAsyncCommand asyFd cb outSecond priv key cmdStr = .ok q) :
    q.cmdOrd_.cmdMsg_ = cmdStr ∧ q.ioIndex = q.cli_.ioIndex_ := by
  unfold RedisAsync.redisAsyncCommand at h
  split at h
  · cases h
  split at h
  · cases h
  · cases h
  · split at h
    · cases h
    · cases h
      exact ⟨rfl, rfl⟩

/-- With parameters that are accepted and a manager behind the handle, the manager decides. -/
theorem redisAsyncCommand_eq {mgr : RedisMgr} (hfd : 0 ≤ asyFd) (hkey : key ≠ [])
    (hcmd : cmdStr ≠ []) (hout : outSecond ≠ 0)
    (hmgr : self.vectRedisCliMgr[asyFd.toNatClampNeg]? = some (some mgr)) :
    self.redisAsyncCommand asyFd cb outSecond priv key cmdStr =
      (RedisAsyn.redisAsyncCommand mgr (getKeySlotIndex key) outSecond key cmdStr).map
        fun cli => self.queuedCmd cli cb outSecond priv cmdStr := by
  have hparam : ¬ (asyFd < 0 ∨ key = [] ∨ cmdStr = [] ∨ outSecond = 0) := by
    simp [hkey, hcmd, hout, Int32.not_lt.mpr hfd]
  rw [RedisAsync.redisAsyncCommand, if_neg hparam, hmgr]
  simp only
  cases RedisAsyn.redisAsyncCommand mgr (getKeySlotIndex key) outSecond key cmdStr <;> rfl

end RedisAsyn
end CmakeFrame
