import CmakeFrame.Lib.Search
import CmakeFrame.Lib.WaitQueue

/-!
# `msgFile/DetailFileSys.cpp`: `DetailQueue`

The records on their way to the writer threads.

* `DETAILTYPE`, `DetailInfo`: a record and the kind of file that it belongs to.
* `DetailQueue.detailInsert`, `detailWrite`, `detailQueueExit`.
* `DetailQueue.closable`: as a queue that is waited on and closed.
-/

namespace CmakeFrame
namespace MsgFile

open Lib

inductive DETAILTYPE where
  | recvMsg
  | mtMsg
  | recvRe
  | sendRe
  | recvMo
  | sendMo
  | unknow
  deriving DecidableEq, Repr

structure DetailInfo where
  type : DETAILTYPE
  detail : Bytes
  deriving DecidableEq, Repr

/-- The queue, over the type of what stands for a `DetailInfoPtr`. -/
structure DetailQueue (ι : Type) where
  isExit_ : Int
  maxSize_ : Nat
  queue_ : List ι
  deriving DecidableEq, Repr

namespace DetailQueue

variable {ι : Type}

/-- The constructor. -/
def new : DetailQueue ι := ⟨0, 10000, []⟩

def isFull (q : DetailQueue ι) : Bool := 0 < q.maxSize_ ∧ q.maxSize_ ≤ q.queue_.length

/-- `detailInsert` without its `notify`. A full queue is reported, and takes the record. -/
def detailInsert (q : DetailQueue ι) (detail : ι) : DetailQueue ι × Int :=
  ({ q with queue_ := q.queue_ ++ [detail] }, if q.isFull then 1 else 0)

/-- One turn of the loop of `detailWrite`, under the mutex. -/
def detailWrite (q : DetailQueue ι) : Turn (DetailQueue ι) ι :=
  .loop q.queue_ (q.isExit_ ≠ 0) fun rest => { q with queue_ := rest }

/-- `detailQueueExit` without its `notifyAll`. -/
def detailQueueExit (q : DetailQueue ι) : DetailQueue ι := { q with isExit_ := 1 }

/-- The queue, with the mutex and `notEmpty_`. -/
def closable : Closable (DetailQueue ι) ι where
  contents q := q.queue_
  isExit q := q.isExit_ ≠ 0
  insert q detail := (q.detailInsert detail).1
  turn := detailWrite
  exit := detailQueueExit
  contents_insert _ _ := rfl
  isExit_insert _ _ := rfl
  contents_exit _ := rfl
  isExit_exit _ := rfl
  took q detail q' h := by
    obtain ⟨rest, hq, rfl⟩ := Turn.loop_took h
    exact ⟨hq, rfl⟩
  exits _ := Turn.loop_exits
  waits _ := Turn.loop_waits

end DetailQueue

end MsgFile
end CmakeFrame
