import CmakeFrame.Lib.Decimal
import Mathlib.Data.List.Nodup
import Mathlib.Data.List.Perm.Basic
import Mathlib.Data.List.Range

/-!
# `redisSync/redisClient.cpp`: the context of hiredis

A client that waits for its answers. It owns a `redisContext`, makes one in `connect` and frees it in
`disConnect`, which the destructor calls. When `redisConnectWithTimeout` gives a context with an error,
`connect` frees it and keeps the pointer.

* `connect`, `disConnect`, `ping`, `auth`: the members, with what hiredis gives as an argument.
* `Call.outcome`: what a call means for the context.
* `Careful`: behind a connection comes `disConnect`, if anything, and behind a context with an error
  another attempt, before anything else touches the context.
* `freed_once_iff`: a client that lives through some calls frees each context once and uses no freed
  one exactly when the calls are careful.
-/

namespace CmakeFrame
namespace RedisSync

open Lib

/-! ## The client -/

/-- What `redisConnectWithTimeout` gives. -/
inductive Connection where
  | null
  /-- A context with `err`. -/
  | error
  | ready
  deriving DecidableEq, Repr

/-- A `redisReply`; its type is only logged. -/
structure RedisReply where
  str : Option Bytes
  deriving DecidableEq, Repr

/-- `context_` is the number of a context. `made`, `freed` and `fault` (a use of no context or of a
freed one) are history. -/
structure RedisClient where
  isConn : Bool
  redisPort : Int32
  timeoutMs : Int32
  redisHost : Bytes
  redisPass : Bytes
  context_ : Option Nat
  made : Nat
  freed : List Nat
  fault : Bool
  deriving DecidableEq, Repr

def REDIS_SYNC_PARAMETER_ERROR : Int := -4000
def REDIS_SYNC_DISCONNECT_ERROR : Int := -4001
def REDIS_SYNC_PASS_ERROR : Int := -4003

def tolower (c : UInt8) : UInt8 := if 65 ≤ c ∧ c ≤ 90 then c + 32 else c

/-- `strcasecmp(s, t) == 0`. -/
def sameText (s t : Bytes) : Bool := (cstr s).map tolower == (cstr t).map tolower

namespace RedisClient

/-- The constructor. -/
def new : RedisClient := ⟨false, 0, 0, [], [], none, 0, [], false⟩

/-- A new context in `context_`. -/
def create (s : RedisClient) : RedisClient := { s with context_ := some s.made, made := s.made + 1 }

def redisFree (s : RedisClient) (id : Nat) : RedisClient :=
  { s with freed := id :: s.freed, fault := s.fault || s.freed.contains id }

/-- A command reads and writes the context. -/
def redisCommand (s : RedisClient) : RedisClient :=
  { s with fault := s.fault || (s.context_.map s.freed.contains).getD true }

/-- What a command returns whose reply should be `text`. -/
def replied (text : Bytes) : Option RedisReply → Int
  | none => REDIS_SYNC_DISCONNECT_ERROR
  | some reply =>
    match reply.str with
    | some str => if sameText str text then 0 else REDIS_SYNC_DISCONNECT_ERROR
    | none => 0

def disConnect (s : RedisClient) : RedisClient :=
  match s.context_ with
  | some id => { s.redisFree id with context_ := none, isConn := false }
  | none => { s with isConn := false }

def ping (s : RedisClient) (reply : Option RedisReply) : RedisClient × Int :=
  if s.isConn = false then (s, REDIS_SYNC_DISCONNECT_ERROR)
  else (s.redisCommand, replied [80, 79, 78, 71] reply)

def auth (s : RedisClient) (reply : Option RedisReply) : RedisClient × Int :=
  (s.redisCommand, replied [79, 75] reply)

/-- `connect` behind the check of its parameters, with what hiredis gives: the context, and the reply
to `AUTH`. -/
def makeContext (s : RedisClient) (pass : Bytes) (context : Connection) (reply : Option RedisReply) :
    RedisClient × Int :=
  match context with
  | .null => ({ s with context_ := none }, REDIS_SYNC_DISCONNECT_ERROR)
  | .error =>
    -- `redisFree(context_)`, and nothing sets the pointer
    (s.create.redisFree s.made, REDIS_SYNC_DISCONNECT_ERROR)
  | .ready =>
    if pass = [] then ({ s.create with isConn := true }, 0)
    else
      let r := s.create.auth reply
      if r.2 < 0 then (r.1.disConnect, REDIS_SYNC_PASS_ERROR) else ({ r.1 with isConn := true }, 0)

def connect (s : RedisClient) (port : Int32) (host : Bytes) (outMs : Int32) (pass : Bytes)
    (context : Connection) (reply : Option RedisReply) : RedisClient × Int :=
  if host = [] ∨ port = 0 then (s, REDIS_SYNC_PARAMETER_ERROR)
  else
    let s := { s with
      timeoutMs := outMs
      redisPort := port
      redisHost := host
      redisPass := if pass = [] then s.redisPass else pass }
    s.makeContext pass context reply

end RedisClient

inductive Call where
  | connect (port : Int32) (host : Bytes) (outMs : Int32) (pass : Bytes) (context : Connection)
      (reply : Option RedisReply)
  | disConnect
  | ping (reply : Option RedisReply)
  deriving DecidableEq, Repr

def RedisClient.step (s : RedisClient) : Call → RedisClient
  | .connect port host outMs pass context reply => (s.connect port host outMs pass context reply).1
  | .disConnect => s.disConnect
  | .ping reply => (s.ping reply).1

/-- A client behind its destructor. -/
def RedisClient.life (calls : List Call) : RedisClient :=
  (calls.foldl RedisClient.step RedisClient.new).disConnect

/-! ## What a call means for the context -/

inductive Outcome where
  /-- The context stays: `ping`, or parameters that are refused. -/
  | idle
  | closed
  | opened
  /-- No context, or one that is freed because `AUTH` failed. -/
  | missed
  /-- A context with an error. -/
  | broken
  deriving DecidableEq, Repr

/-- Behind the check of the parameters. -/
def Connection.outcome (pass : Bytes) (reply : Option RedisReply) : Connection → Outcome
  | .null => .missed
  | .error => .broken
  | .ready => if pass ≠ [] ∧ RedisClient.replied [79, 75] reply < 0 then .missed else .opened

def Call.outcome : Call → Outcome
  | .connect port host _ pass context reply =>
    if host = [] ∨ port = 0 then .idle else context.outcome pass reply
  | .disConnect => .closed
  | .ping _ => .idle

/-- The next call that is not idle. -/
def nextOutcome (os : List Outcome) : Option Outcome := os.find? fun o => o ≠ .idle

/-- What may follow `o`: `disConnect` behind a connection, another attempt behind a context with an
error. -/
def Follows (o : Outcome) (os : List Outcome) : Prop :=
  (o = .opened → ∀ n ∈ nextOutcome os, n = .closed) ∧
  (o = .broken → ∃ n ∈ nextOutcome os, n ≠ .closed)

def Careful (os : List Outcome) : Prop :=
  ∀ before o after, os = before ++ o :: after → Follows o after

theorem careful_nil : Careful [] := by
  intro before o after h
  simp at h

theorem careful_cons (o : Outcome) (os : List Outcome) :
    Careful (o :: os) ↔ Follows o os ∧ Careful os := by
  constructor
  · intro h
    exact ⟨h [] o os rfl, fun before o' after he => h (o :: before) o' after (by rw [he]; rfl)⟩
  · rintro ⟨ho, hos⟩ before o' after he
    cases before with
    | nil =>
      obtain ⟨rfl, rfl⟩ := List.cons.inj he
      exact ho
    | cons p before => exact hos before o' after (List.cons.inj he).2

/-- Behind the last call comes the destructor. -/
theorem follows_nil {o : Outcome} : Follows o [] ↔ o ≠ .broken := by
  simp [Follows, nextOutcome]

theorem follows_idle_cons {o : Outcome} {os : List Outcome} : Follows o (.idle :: os) ↔ Follows o os :=
  Iff.rfl

theorem follows_cons {o p : Outcome} (hp : p ≠ .idle) {os : List Outcome} :
    Follows o (p :: os) ↔ (o = .opened → p = .closed) ∧ (o = .broken → p ≠ .closed) := by
  have hnext : nextOutcome (p :: os) = some p := by simp [nextOutcome, hp]
  simp [Follows, hnext]

/-! ## The contexts -/

namespace RedisClient

/-- Each context was freed, and none twice; none was used behind that. -/
def Once (s : RedisClient) : Prop := s.fault = false ∧ s.freed.Perm (List.range s.made)

/-- What the client is like if the last call that was not idle had the outcome `o`. -/
def Fits (s : RedisClient) : Outcome → Prop
  | .opened => s.fault = false ∧ s.isConn = true ∧
    ∃ id, s.context_ = some id ∧ (id :: s.freed).Perm (List.range s.made)
  | .broken => s.Once ∧ s.isConn = false ∧ ∃ id ∈ s.freed, s.context_ = some id
  | .idle | .closed | .missed => s.Once ∧ s.isConn = false ∧ s.context_ = none

/-- Something went wrong, or a context is neither freed nor held. -/
def Lost (s : RedisClient) : Prop :=
  s.fault = true ∨ ∃ id < s.made, id ∉ s.freed ∧ s.context_ ≠ some id

theorem Lost.not_once {s : RedisClient} (h : s.Lost) : ¬ s.Once := by
  rintro ⟨hfault, hperm⟩
  rcases h with h | ⟨id, hlt, hnot, -⟩
  · rw [hfault] at h
    cases h
  · exact hnot (hperm.mem_iff.mpr (List.mem_range.mpr hlt))

/-- What every call keeps of the past. -/
structure Later (s s' : RedisClient) : Prop where
  fault : s.fault = true → s'.fault = true
  made : s.made ≤ s'.made
  lost : ∀ id < s.made, id ∉ s.freed → s.context_ ≠ some id → id ∉ s'.freed ∧ s'.context_ ≠ some id

theorem Later.trans {s s' s'' : RedisClient} (h : Later s s') (h' : Later s' s'') : Later s s'' where
  fault hf := h'.fault (h.fault hf)
  made := h.made.trans h'.made
  lost id hlt hnot hne :=
    h'.lost id (hlt.trans_le h.made) (h.lost id hlt hnot hne).1 (h.lost id hlt hnot hne).2

theorem Lost.later {s s' : RedisClient} (h : s.Lost) (hl : Later s s') : s'.Lost := by
  rcases h with h | ⟨id, hlt, hnot, hne⟩
  · exact .inl (hl.fault h)
  · exact .inr ⟨id, hlt.trans_le hl.made, hl.lost id hlt hnot hne⟩

theorem create_later (s : RedisClient) : Later s s.create where
  fault := id
  made := Nat.le_succ _
  lost id hlt hnot _ := ⟨hnot, fun h => by cases h; exact absurd hlt (Nat.lt_irrefl _)⟩

theorem redisCommand_later (s : RedisClient) : Later s s.redisCommand where
  fault h := by simp [redisCommand, h]
  made := le_rfl
  lost _ _ hnot hne := ⟨hnot, hne⟩

/-- Nothing that matters for the contexts has changed. -/
theorem Later.of_eq {s s' : RedisClient} (hfault : s'.fault = s.fault) (hmade : s'.made = s.made)
    (hfreed : s'.freed = s.freed) (hcontext : s'.context_ = s.context_) : Later s s' := by
  refine ⟨fun h => by rw [hfault, h], hmade.ge, fun id _ hnot hne => ?_⟩
  rw [hfreed, hcontext]
  exact ⟨hnot, hne⟩

theorem redisFree_later {s : RedisClient} {c : Nat} (hc : s.context_ = some c) :
    Later s (s.redisFree c) := by
  refine ⟨fun h => by simp [redisFree, h], le_rfl, fun id _ hnot hne => ⟨?_, hne⟩⟩
  rw [hc] at hne
  simp only [redisFree, List.mem_cons, not_or]
  exact ⟨fun h => hne (by rw [h]), hnot⟩

theorem disConnect_later (s : RedisClient) : Later s s.disConnect := by
  unfold disConnect
  split
  · rename_i id hc
    exact (redisFree_later hc).trans ⟨fun h => h, le_rfl, fun _ _ hnot _ => ⟨hnot, nofun⟩⟩
  · exact .of_eq rfl rfl rfl rfl

theorem makeContext_later (s : RedisClient) (pass : Bytes) (context : Connection)
    (reply : Option RedisReply) : Later s (s.makeContext pass context reply).1 := by
  cases context with
  | null => exact ⟨fun h => h, le_rfl, fun _ _ hnot _ => ⟨hnot, nofun⟩⟩
  | error => exact (create_later s).trans (redisFree_later rfl)
  | ready =>
    simp only [makeContext]
    split
    · exact (create_later s).trans (.of_eq rfl rfl rfl rfl)
    · split
      · exact ((create_later s).trans (redisCommand_later _)).trans (disConnect_later _)
      · exact ((create_later s).trans (redisCommand_later _)).trans (.of_eq rfl rfl rfl rfl)

theorem step_later (s : RedisClient) (c : Call) : Later s (s.step c) := by
  cases c with
  | connect port host outMs pass context reply =>
    simp only [step, connect]
    split
    · exact .of_eq rfl rfl rfl rfl
    · refine Later.trans ?_ (makeContext_later _ pass context reply)
      exact .of_eq rfl rfl rfl rfl
  | disConnect => exact disConnect_later s
  | ping reply =>
    simp only [step, ping]
    split
    · exact .of_eq rfl rfl rfl rfl
    · exact redisCommand_later s

/-! ## The calls -/

theorem perm_create {s : RedisClient} (h : s.freed.Perm (List.range s.made)) :
    s.made ∉ s.freed ∧ (s.made :: s.freed).Perm (List.range (s.made + 1)) := by
  refine ⟨fun hm => Nat.lt_irrefl _ (List.mem_range.mp (h.mem_iff.mp hm)), ?_⟩
  rw [List.range_succ]
  exact (h.cons _).trans (List.perm_append_singleton _ _).symm

/-- A context that is held is not freed. -/
theorem held_notMem {s : RedisClient} {id : Nat} (h : (id :: s.freed).Perm (List.range s.made)) :
    id ∉ s.freed :=
  (List.nodup_cons.mp (h.nodup_iff.mpr List.nodup_range)).1

theorem makeContext_fits {s : RedisClient} (h : s.Once) (hconn : s.isConn = false) (pass : Bytes)
    (context : Connection) (reply : Option RedisReply) :
    (s.makeContext pass context reply).1.Fits (context.outcome pass reply) := by
  obtain ⟨hfault, hperm⟩ := h
  obtain ⟨hnew, hperm'⟩ := perm_create hperm
  cases context with
  | null => exact ⟨⟨hfault, hperm⟩, hconn, rfl⟩
  | error =>
    exact ⟨⟨by simp [makeContext, redisFree, create, hfault, hnew], hperm'⟩, hconn, s.made,
      List.mem_cons_self, rfl⟩
  | ready =>
    have hused : s.create.redisCommand.fault = false := by
      simp [redisCommand, create, hfault, hnew]
    simp only [makeContext, Connection.outcome]
    by_cases hpass : pass = []
    · rw [if_pos hpass, if_neg fun h => h.1 hpass]
      exact ⟨hfault, rfl, s.made, rfl, hperm'⟩
    · rw [if_neg hpass]
      by_cases hret : (s.create.auth reply).2 < 0
      · rw [if_pos hret, if_pos ⟨hpass, hret⟩]
        refine ⟨⟨?_, hperm'⟩, rfl, rfl⟩
        simp [auth, disConnect, redisCommand, redisFree, create, hfault, hnew]
      · rw [if_neg hret, if_neg fun h => hret h.2]
        exact ⟨hused, rfl, s.made, rfl, hperm'⟩

theorem step_fits_idle {s : RedisClient} {o : Outcome} {c : Call} (h : s.Fits o)
    (hc : c.outcome = .idle) : (s.step c).Fits o := by
  cases c with
  | connect port host outMs pass context reply =>
    simp only [Call.outcome] at hc
    simp only [step, connect]
    split
    · exact h
    · rename_i hok
      rw [if_neg hok] at hc
      cases context with
      | null => cases hc
      | error => cases hc
      | ready =>
        simp only [Connection.outcome] at hc
        split at hc <;> cases hc
  | disConnect => cases hc
  | ping reply =>
    simp only [step, ping]
    split
    · exact h
    · rename_i hconn
      cases o with
      | opened =>
        obtain ⟨hfault, hconn, id, hid, hperm⟩ := h
        have hnot := held_notMem hperm
        exact ⟨by simp [redisCommand, hfault, hid, hnot], hconn, id, hid, hperm⟩
      | _ => exact absurd h.2.1 hconn

/-- An attempt where no context is held. -/
theorem connect_fits {s : RedisClient} (h : s.Once) (hconn : s.isConn = false) {port : Int32}
    {host : Bytes} {outMs : Int32} {pass : Bytes} {context : Connection} {reply : Option RedisReply}
    (hne : (Call.connect port host outMs pass context reply).outcome ≠ .idle) :
    (s.connect port host outMs pass context reply).1.Fits
      (Call.connect port host outMs pass context reply).outcome := by
  simp only [Call.outcome] at hne ⊢
  simp only [connect]
  split
  · rename_i hrefused
    exact absurd (if_pos hrefused) hne
  · exact makeContext_fits (s := { s with
      timeoutMs := outMs
      redisPort := port
      redisHost := host
      redisPass := if pass = [] then s.redisPass else pass }) h hconn pass context reply

/-- `disConnect` where the context is held, or there is none. -/
theorem disConnect_fits {s : RedisClient} {o : Outcome} (h : s.Fits o) (ho : o ≠ .broken) :
    s.disConnect.Fits .closed := by
  cases o with
  | opened =>
    obtain ⟨hfault, -, id, hid, hperm⟩ := h
    have hnot := held_notMem hperm
    simp only [disConnect, hid]
    exact ⟨⟨by simp [redisFree, hfault, hnot], hperm⟩, rfl, rfl⟩
  | broken => exact absurd rfl ho
  | _ =>
    obtain ⟨honce, -, hnone⟩ := h
    simp only [disConnect, hnone]
    exact ⟨honce, rfl, rfl⟩

theorem outcome_connect_ne (port : Int32) (host : Bytes) (outMs : Int32) (pass : Bytes)
    (context : Connection) (reply : Option RedisReply) :
    (Call.connect port host outMs pass context reply).outcome ≠ .closed := by
  simp only [Call.outcome]
  split
  · nofun
  · cases context with
    | ready =>
      simp only [Connection.outcome]
      split <;> nofun
    | _ => nofun

/-- A call that may follow. -/
theorem step_fits {s : RedisClient} {o : Outcome} {c : Call} (h : s.Fits o) (hc : c.outcome ≠ .idle)
    (hopened : o = .opened → c.outcome = .closed) (hbroken : o = .broken → c.outcome ≠ .closed) :
    (s.step c).Fits c.outcome := by
  cases c with
  | connect port host outMs pass context reply =>
    cases o with
    | opened => exact absurd (hopened rfl) (outcome_connect_ne _ _ _ _ _ _)
    | _ => exact connect_fits h.1 h.2.1 hc
  | disConnect => exact disConnect_fits h fun ho => hbroken ho rfl
  | ping reply => exact absurd rfl hc

/-- Another attempt while the context is held. -/
theorem connect_lost {s : RedisClient} (h : s.Fits .opened) {c : Call} (hc : c.outcome ≠ .idle)
    (hne : c.outcome ≠ .closed) : (s.step c).Lost := by
  obtain ⟨-, -, id, hid, hperm⟩ := h
  have hnot := held_notMem hperm
  have hlt : id < s.made := List.mem_range.mp (hperm.mem_iff.mp List.mem_cons_self)
  cases c with
  | connect port host outMs pass context reply =>
    -- `context_` is set before it is read
    have hsame : (s.connect port host outMs pass context reply).1 =
        (({ s with context_ := none }).connect port host outMs pass context reply).1 := by
      simp only [Call.outcome] at hc
      simp only [connect]
      split
      · rename_i hrefused
        exact absurd (if_pos hrefused) hc
      · cases context <;> rfl
    rw [step, hsame]
    exact Lost.later (s := { s with context_ := none }) (.inr ⟨id, hlt, hnot, nofun⟩)
      (step_later _ (.connect port host outMs pass context reply))
  | disConnect => exact absurd rfl hne
  | ping reply => exact absurd rfl hc

theorem disConnect_lost {s : RedisClient} (h : s.Fits .broken) : s.disConnect.Lost := by
  obtain ⟨-, -, id, hmem, hid⟩ := h
  simp only [disConnect, hid]
  exact .inl (by simp [redisFree, hmem])

/-- What is lost stays lost. -/
theorem not_once_of_lost {s : RedisClient} (h : s.Lost) (calls : List Call) :
    ¬ (calls.foldl step s).disConnect.Once := by
  induction calls generalizing s with
  | nil => exact (h.later (disConnect_later s)).not_once
  | cons c calls ih => exact ih (h.later (step_later s c))

/-- The calls and the destructor, from a client behind the outcome `o`. -/
theorem once_iff {s : RedisClient} {o : Outcome} (h : s.Fits o) (calls : List Call) :
    (calls.foldl step s).disConnect.Once ↔
      Follows o (calls.map Call.outcome) ∧ Careful (calls.map Call.outcome) := by
  induction calls generalizing s o with
  | nil =>
    rw [List.map_nil, and_iff_left careful_nil, follows_nil]
    by_cases ho : o = .broken
    · subst ho
      exact iff_of_false (disConnect_lost h).not_once fun hne => hne rfl
    · exact iff_of_true (disConnect_fits h ho).1 ho
  | cons c calls ih =>
    rw [List.foldl_cons, List.map_cons, careful_cons]
    by_cases hc : c.outcome = .idle
    · rw [ih (step_fits_idle h hc), hc, follows_idle_cons]
      exact and_congr_right fun _ => (and_iff_right ⟨nofun, nofun⟩).symm
    · rw [follows_cons hc]
      by_cases hok : (o = .opened → c.outcome = .closed) ∧ (o = .broken → c.outcome ≠ .closed)
      · rw [ih (step_fits h hc hok.1 hok.2), and_iff_right hok]
      · refine iff_of_false (not_once_of_lost ?_ calls) fun hf => hok hf.1
        rcases not_and_or.mp hok with hopened | hbroken
        · obtain ⟨rfl, hne⟩ := Classical.not_imp.mp hopened
          exact connect_lost h hc hne
        · obtain ⟨rfl, hcl⟩ := Classical.not_imp.mp hbroken
          cases c with
          | connect port host outMs pass context reply =>
            exact absurd (outcome_connect_ne _ _ _ _ _ _) hcl
          | disConnect => exact disConnect_lost h
          | ping reply => exact absurd rfl hc

end RedisClient

/-- In every life of a client: each context is freed once, and none is used behind that, exactly when
the calls are careful. -/
theorem freed_once_iff (calls : List Call) :
    (RedisClient.life calls).Once ↔ Careful (calls.map Call.outcome) := by
  have hnew : RedisClient.new.Fits .closed := ⟨⟨rfl, .rfl⟩, rfl, rfl⟩
  rw [RedisClient.life, RedisClient.once_iff hnew]
  exact and_iff_right ⟨nofun, nofun⟩

/-- The program of `redisTest.cpp` where nobody listens: the context is freed twice. -/
example : (RedisClient.life [.connect 6379 [49] 1500 [] .error none, .ping none, .disConnect]).freed =
    [0, 0] := by decide

end RedisSync
end CmakeFrame
