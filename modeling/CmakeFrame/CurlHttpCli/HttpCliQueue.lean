import CmakeFrame.Lib.Search
import CmakeFrame.Lib.WaitQueue

/-!
# `curlHttpCli/src/HttpCliQueue.h`: the responses, and the connections of each URL

* `HttpReqSession`: what the modelled functions read of a request.
* `HttpResponseQueue`: `httpResponse`, `dealResponse`, `httpResponseExit`.
* `ConnId`: a `ConnInfo*`, as its loop and its place in the vector of the loop.
* `HttpConnInfoQueue`, `UrlMap`: `httpcliConnPop`, `httpcliConnInsert`, `addUrlConnInfo`,
  `returnUrlConnInfo`.
-/

namespace CmakeFrame
namespace CurlHttp

open Lib

/-- `supported` is whether `httpRequestType()` is one of the five that `requetHttpServer` knows. -/
structure HttpReqSession where
  httpRequestUrl : Bytes
  httpUrlmaxConns : Nat
  supported : Bool
  deriving DecidableEq, Repr

/-- The responses on their way to the response thread, over the type of what stands for a
`HttpReqSession*`. -/
structure HttpResponseQueue (ρ : Type) where
  isExit_ : Int
  queue_ : List ρ
  deriving DecidableEq, Repr

namespace HttpResponseQueue

variable {ρ : Type}

/-- The constructor. -/
def new : HttpResponseQueue ρ := ⟨0, []⟩

/-- `httpResponse` without its `notify`. -/
def httpResponse (q : HttpResponseQueue ρ) (req : ρ) : HttpResponseQueue ρ :=
  { q with queue_ := q.queue_ ++ [req] }

/-- One turn of the loop of `dealResponse`, under the mutex. -/
def dealResponse (q : HttpResponseQueue ρ) : Turn (HttpResponseQueue ρ) ρ :=
  .loop q.queue_ (q.isExit_ ≠ 0) fun rest => { q with queue_ := rest }

/-- `httpResponseExit` without its `notifyAll`. -/
def httpResponseExit (q : HttpResponseQueue ρ) : HttpResponseQueue ρ := { q with isExit_ := 1 }

/-- The queue, with the mutex and `notEmpty_`. -/
def closable : Closable (HttpResponseQueue ρ) ρ where
  contents q := q.queue_
  isExit q := q.isExit_ ≠ 0
  insert := httpResponse
  turn := dealResponse
  exit := httpResponseExit
  contents_insert _ _ := rfl
  isExit_insert _ _ := rfl
  contents_exit _ := rfl
  isExit_exit _ := rfl
  took q req q' h := by
    obtain ⟨rest, hq, rfl⟩ := Turn.loop_took h
    exact ⟨hq, rfl⟩
  exits _ := Turn.loop_exits
  waits _ := Turn.loop_waits

end HttpResponseQueue

/-- A `ConnInfo*`. -/
structure ConnId where
  ioThreadSubindex : Nat
  conn : Nat
  deriving DecidableEq, Repr

/-- The idle connections of a URL; `queueSize` is `queueSize_`, which the constructor leaves as it
is. -/
structure HttpConnInfoQueue where
  maxSize : Nat
  queueSize : Nat
  queue : List ConnId
  deriving DecidableEq, Repr

namespace HttpConnInfoQueue

def isFull (q : HttpConnInfoQueue) : Bool := 0 < q.maxSize ∧ q.maxSize ≤ q.queueSize

def httpcliConnInsert (q : HttpConnInfoQueue) (conn : ConnId) (isNew : Bool) : HttpConnInfoQueue :=
  { q with
    queue := q.queue ++ [conn]
    queueSize := if isNew then q.queueSize + 1 else q.queueSize }

end HttpConnInfoQueue

/-- What `httpcliConnPop` finds. -/
inductive Popped where
  | conn (conn : ConnId) (q : HttpConnInfoQueue)
  /-- It returns a null pointer. -/
  | null
  /-- It waits. -/
  | wait
  deriving DecidableEq, Repr

def HttpConnInfoQueue.httpcliConnPop (q : HttpConnInfoQueue) : Popped :=
  match q.queue with
  | conn :: rest => .conn conn { q with queue := rest }
  | [] => if q.isFull then .wait else .null

abbrev UrlMap := Bytes → Option HttpConnInfoQueue

/-- `urlMap_.insert` of a new queue, which leaves an entry that is there. `garbage url` is what
`queueSize_` holds in the memory of the queue of `url`. -/
def UrlMap.insert (urlMap : UrlMap) (garbage : Bytes → Nat) (url : Bytes) (maxSize : Nat) :
    UrlMap :=
  match urlMap url with
  | some _ => urlMap
  | none => Function.update urlMap url (some ⟨maxSize, garbage url, []⟩)

/-- A connection that goes back: the arguments of `returnUrlConnInfo`. -/
structure Return where
  url : Bytes
  conn : Nat
  isNew : Bool
  deriving DecidableEq, Repr

def UrlMap.returnUrlConnInfo (urlMap : UrlMap) (garbage : Bytes → Nat) (loop : Nat) (r : Return) :
    UrlMap :=
  match urlMap r.url with
  | some q => Function.update urlMap r.url (some (q.httpcliConnInsert ⟨loop, r.conn⟩ r.isNew))
  | none =>
    Function.update urlMap r.url
      (some (HttpConnInfoQueue.httpcliConnInsert ⟨0, garbage r.url, []⟩ ⟨loop, r.conn⟩ r.isNew))

end CurlHttp
end CmakeFrame
