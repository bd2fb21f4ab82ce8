import CmakeFrame.RedisAsyn.RedisMgr

/-!
# `redisAsyn/v1.0/src/RedisAsync.cpp`: adding a service

`addSigleRedisInfo`, `addMasterSlaveInfo` and `addClusterInfo` append a manager to
`vectRedisCliMgr`; then `redisInitConnect` reads the addresses of its servers from the text that it
was given, and queues a connect order for the first one.

* `initSvrLoop`, `redisInitConnect`, `addRedisInfo`: the calls.
* `Entry`, `infoText`: a list of entries. `Faulty`: a piece that is none.
* `initSvrLoop_infoText`: a list is read as it was written; `initSvrLoop_length`: no text has more
  servers than colons.
* `allOrNothing_iff`: the texts for which a service is added as a whole or not at all.
-/

namespace CmakeFrame
namespace RedisAsyn

open Lib

def INIT_SUCCESS_CODE : Int := 0
def INIT_PARAMETER_ERROR : Int := -1
def INIT_NO_INIT_ERROR : Int := -3

def MAX_IP_ADDR_LEN : Nat := 15
def MAX_PORT_NUM_LEN : Nat := 5

/-- The `RedisClientMgr` of a service that is being added. -/
structure InitMgr extends RedisMgr where
  initSvrIndex_ : Nat
  mgrFd_ : Int32
  auth_ : Bytes
  initSvrInfo_ : List RedisSvrInfo

/-- The members of `RedisAsync` that adding a service uses, with the counter `initIoIndex`. The numbers
are those that `redisAsyncInit` sets. `queued` are the clients with a connect order in the queue of
their loop; `created` numbers the clients. -/
structure InitAsync where
  callBackNum_ : Nat
  ioThreadNum_ : Nat
  keepSecond_ : Nat
  connOutSecond_ : Nat
  vectRedisCliMgr : List InitMgr
  initIoIndex : UInt32
  created : Nat
  queued : List RedisCli

/-! ## The text -/

/-- `utilFristConstchar(str, c)`, as a position in the C string. -/
def utilFristConstchar (str : Bytes) (c : UInt8) : Option Nat := findByte c (cstr str)

/-- `size_t len = p - q`, for two positions. -/
def sizeDiff (p q : Nat) : Nat := if q ≤ p then p - q else 2 ^ 64 - (q - p)

/-- The loop of `redisInitConnect` at `pBegin`, with the code that it returns or 0. Every turn but the
last passes a comma. -/
def initSvrLoop : Nat → Bytes → List RedisSvrInfo → Option (Int × List RedisSvrInfo)
  | 0, _, _ => none
  | fuel + 1, pBegin, initSvrInfo_ =>
    let pComma := utilFristConstchar pBegin 44
    match utilFristConstchar pBegin 58 with
    | none => some (INIT_PARAMETER_ERROR, initSvrInfo_)
    | some pColon =>
      if pColon > MAX_IP_ADDR_LEN then some (INIT_PARAMETER_ERROR, initSvrInfo_)
      else
        let ipAddr := pBegin.take pColon
        let port := pBegin.drop (pColon + 1)
        let len :=
          match pComma with
          | some pComma => sizeDiff pComma (pColon + 1)
          | none => (cstr port).length
        if len > MAX_PORT_NUM_LEN then some (INIT_PARAMETER_ERROR, initSvrInfo_)
        else
          let initSvrInfo_ := initSvrInfo_ ++ [⟨ipAddr, atoi port⟩]
          match pComma with
          | some pComma => initSvrLoop fuel (pBegin.drop (pComma + 1)) initSvrInfo_
          | none => some (INIT_SUCCESS_CODE, initSvrInfo_)

/-! ## The calls -/

namespace InitAsync

/-- The last manager as it is now. -/
def setLast (self : InitAsync) (cli : InitMgr) : InitAsync :=
  { self with vectRedisCliMgr := self.vectRedisCliMgr.dropLast ++ [cli] }

/-- `redisInitConnect()`, for the manager that was added last. `none` if it uses an element that is not
there. -/
def redisInitConnect (self : InitAsync) : Option (Int × InitAsync) :=
  match self.vectRedisCliMgr.getLast? with
  | none => none
  | some cli =>
    match initSvrLoop (cli.inSvrInfoStr_.length + 1) cli.inSvrInfoStr_ cli.initSvrInfo_ with
    | none => none
    | some (code, initSvrInfo_) =>
      if code < 0 then some (code, self.setLast { cli with initSvrInfo_ := initSvrInfo_ })
      else
        let initIoIndex := self.initIoIndex + 1
        match initSvrInfo_[cli.initSvrIndex_]? with
        | none => none
        | some svr =>
          let tmpRedisCli : RedisCli :=
            ⟨self.created, svr, initIoIndex.toNat % self.ioThreadNum_, .init⟩
          some (INIT_SUCCESS_CODE,
            { self.setLast { cli with initSvrInfo_ := initSvrInfo_, nodeCli_ := some tmpRedisCli } with
              initIoIndex := initIoIndex
              created := self.created + 1
              queued := self.queued ++ [tmpRedisCli] })

/-- The manager that is added. -/
def newClientMgr (self : InitAsync) (svrType_ : SvrType) (ipPortInfo auth : Bytes) : InitMgr :=
  { masterConn_ := 0, slaveConn_ := 0, nodeCli_ := none, cluterCli_ := none
    svrType_ := svrType_, initState_ := .init, inSvrInfoStr_ := ipPortInfo, mSlaveCli_ := none
    initSvrIndex_ := 0, mgrFd_ := Int32.ofNat self.vectRedisCliMgr.length, auth_ := auth
    initSvrInfo_ := [] }

/-- What the three calls have in common: all but the type. -/
def addRedisInfo (svrType_ : SvrType) (self : InitAsync) (ipPortInfo auth : Bytes) :
    Option (Int × InitAsync) :=
  if self.callBackNum_ = 0 ∨ self.ioThreadNum_ = 0 ∨ self.keepSecond_ = 0 ∨
      self.connOutSecond_ = 0 then
    some (INIT_NO_INIT_ERROR, self)
  else
    let asyFd := Int32.ofNat self.vectRedisCliMgr.length
    let added := { self with
      vectRedisCliMgr := self.vectRedisCliMgr ++ [self.newClientMgr svrType_ ipPortInfo auth] }
    added.redisInitConnect.map fun (ret, self) => (if ret < 0 then ret else asyFd.toInt, self)

def addSigleRedisInfo : InitAsync → Bytes → Bytes → Option (Int × InitAsync) := addRedisInfo .single

def addMasterSlaveInfo : InitAsync → Bytes → Bytes → Option (Int × InitAsync) :=
  addRedisInfo .masterSlave

def addClusterInfo : InitAsync → Bytes → Bytes → Option (Int × InitAsync) := addRedisInfo .cluster

end InitAsync

inductive AddCall where
  | addSigleRedisInfo
  | addMasterSlaveInfo
  | addClusterInfo
  deriving DecidableEq, Repr

def AddCall.run : AddCall → InitAsync → Bytes → Bytes → Option (Int × InitAsync)
  | .addSigleRedisInfo => InitAsync.addSigleRedisInfo
  | .addMasterSlaveInfo => InitAsync.addMasterSlaveInfo
  | .addClusterInfo => InitAsync.addClusterInfo

/-! ## Lists of entries -/

/-- The host and the port of a server, as they are written. -/
structure Entry where
  host : Bytes
  port : Bytes
  deriving DecidableEq, Repr

namespace Entry

def text (e : Entry) : Bytes := e.host ++ 58 :: e.port

def svrInfo (e : Entry) : RedisSvrInfo := ⟨e.host, atoi e.port⟩

structure Ok (e : Entry) : Prop where
  host : 44 ∉ e.host ∧ 58 ∉ e.host
  port : 44 ∉ e.port ∧ 58 ∉ e.port
  hostLen : e.host.length ≤ MAX_IP_ADDR_LEN
  portLen : e.port.length ≤ MAX_PORT_NUM_LEN

end Entry

/-- The entries, separated by commas. -/
def infoText (entries : List Entry) : Bytes := List.intercalate [44] (entries.map Entry.text)

/-- A list of entries that are all right. -/
def IsList (ipPortInfo : Bytes) (entries : List Entry) : Prop :=
  entries ≠ [] ∧ (∀ e ∈ entries, e.Ok) ∧ ipPortInfo = infoText entries

/-- What stands between two commas has no colon, or more before or behind it than is allowed. -/
def Faulty (piece : Bytes) : Prop :=
  58 ∉ piece ∨ MAX_IP_ADDR_LEN < (piece.takeWhile (· ≠ 58)).length ∨
    MAX_PORT_NUM_LEN < (piece.dropWhile (· ≠ 58)).tail.length

/-- A list of entries is added as the manager behind the index that is returned, with a connect order;
for a text with a faulty entry a negative code is returned, and the managers are as before. -/
def AllOrNothing (call : AddCall) (self : InitAsync) (ipPortInfo auth : Bytes) : Prop :=
  (∀ entries, IsList ipPortInfo entries → ∃ self' mgr cli,
    call.run self ipPortInfo auth = some ((self.vectRedisCliMgr.length : Int), self') ∧
      self'.vectRedisCliMgr = self.vectRedisCliMgr ++ [mgr] ∧
      mgr.initSvrInfo_ = entries.map Entry.svrInfo ∧ mgr.nodeCli_ = some cli ∧
      self'.queued = self.queued ++ [cli]) ∧
  ((∃ piece ∈ ipPortInfo.splitOn 44, Faulty piece) → ∃ ret self',
    call.run self ipPortInfo auth = some (ret, self') ∧ ret < 0 ∧
      self'.vectRedisCliMgr = self.vectRedisCliMgr)

/-! ## Reading a list -/

theorem utilFristConstchar_eq {l r : Bytes} {c : UInt8} (hc : c ≠ 0) (hnul : 0 ∉ l) (hl : c ∉ l) :
    utilFristConstchar (l ++ c :: r) c = some l.length := by
  have hcstr : cstr (c :: r) = c :: cstr r := by simp [cstr, hc]
  rw [utilFristConstchar, cstr_append hnul, hcstr, findByte_append hl]

theorem utilFristConstchar_none {s : Bytes} {c : UInt8} (h : c ∉ s) :
    utilFristConstchar s c = none := by
  rw [utilFristConstchar, findByte_eq_none]
  exact fun hmem => h ((List.takeWhile_sublist _).subset hmem)

/-- An entry with a comma behind it. -/
theorem initSvrLoop_comma {e : Entry} (h : e.Ok) (hnul : 0 ∉ e.text) (fuel : Nat) (rest : Bytes)
    (acc : List RedisSvrInfo) :
    initSvrLoop (fuel + 1) (e.text ++ 44 :: rest) acc =
      initSvrLoop fuel rest (acc ++ [e.svrInfo]) := by
  have hcomma : utilFristConstchar (e.text ++ 44 :: rest) 44 = some e.text.length :=
    utilFristConstchar_eq (by decide) hnul (by simp [Entry.text, h.host.1, h.port.1])
  have hassoc : e.text ++ 44 :: rest = e.host ++ 58 :: (e.port ++ 44 :: rest) := by
    simp [Entry.text]
  have hcolon : utilFristConstchar (e.text ++ 44 :: rest) 58 = some e.host.length := by
    rw [hassoc]
    refine utilFristConstchar_eq (by decide) (fun hmem => hnul ?_) h.host.2
    exact List.mem_append_left _ hmem
  have hlen : sizeDiff e.text.length (e.host.length + 1) = e.port.length := by
    simp only [sizeDiff, Entry.text, List.length_append, List.length_cons]
    rw [if_pos (by omega)]
    omega
  have hhost := h.hostLen
  have hport := h.portLen
  rw [initSvrLoop]
  simp only [hcomma, hcolon, hlen, if_neg (Nat.not_lt.mpr hhost), if_neg (Nat.not_lt.mpr hport)]
  have htake : (e.text ++ 44 :: rest).take e.host.length = e.host := by
    rw [hassoc, List.take_left]
  have hdrop : (e.text ++ 44 :: rest).drop (e.host.length + 1) = e.port ++ 44 :: rest := by
    rw [hassoc, ← List.drop_drop, List.drop_left]
    rfl
  have hnext : (e.text ++ 44 :: rest).drop (e.text.length + 1) = rest := by
    rw [← List.drop_drop, List.drop_left]
    rfl
  rw [htake, hdrop, hnext,
    atoi_append_cons (by decide) (by decide) (by decide) (by decide) e.port rest]
  rfl

/-- The last entry. -/
theorem initSvrLoop_last {e : Entry} (h : e.Ok) (hnul : 0 ∉ e.host) (fuel : Nat)
    (acc : List RedisSvrInfo) :
    initSvrLoop (fuel + 1) e.text acc = some (INIT_SUCCESS_CODE, acc ++ [e.svrInfo]) := by
  have hcomma : utilFristConstchar e.text 44 = none :=
    utilFristConstchar_none (by simp [Entry.text, h.host.1, h.port.1])
  have hcolon : utilFristConstchar e.text 58 = some e.host.length :=
    utilFristConstchar_eq (by decide) hnul h.host.2
  have hdrop : e.text.drop (e.host.length + 1) = e.port := by
    rw [Entry.text, ← List.drop_drop, List.drop_left]
    rfl
  have htake : e.text.take e.host.length = e.host := by rw [Entry.text, List.take_left]
  have hport := (cstr_length_le e.port).trans h.portLen
  rw [initSvrLoop]
  simp only [hcomma, hcolon, hdrop, htake, if_neg (Nat.not_lt.mpr h.hostLen),
    if_neg (Nat.not_lt.mpr hport)]
  rfl

theorem infoText_cons (e : Entry) {entries : List Entry} (h : entries ≠ []) :
    infoText (e :: entries) = e.text ++ 44 :: infoText entries := by
  unfold infoText
  rw [List.map_cons, List.intercalate_cons_of_ne_nil (by simpa using h), List.append_assoc]
  rfl

theorem colon_mem_infoText {entries : List Entry} (h : entries ≠ []) : 58 ∈ infoText entries := by
  cases entries with
  | nil => exact absurd rfl h
  | cons e entries =>
    have hmem : 58 ∈ e.text := by simp [Entry.text]
    by_cases hnil : entries = []
    · subst hnil
      simpa [infoText] using hmem
    · rw [infoText_cons e hnil]
      exact List.mem_append_left _ hmem

/-- No colon stands behind a NUL. -/
def NulBehind (s : Bytes) : Prop := ∀ pre post, s = pre ++ 0 :: post → 58 ∉ post

theorem NulBehind.notMem {l r : Bytes} (h : NulBehind (l ++ r)) (hr : 58 ∈ r) : 0 ∉ l := by
  intro hmem
  obtain ⟨pre, post, rfl⟩ := List.append_of_mem hmem
  refine h pre (post ++ r) (by simp) (List.mem_append_right _ hr)

theorem NulBehind.right {l r : Bytes} (h : NulBehind (l ++ r)) : NulBehind r :=
  fun pre post heq => h (l ++ pre) post (by rw [heq, List.append_assoc])

/-- A list is read as it was written. -/
theorem initSvrLoop_infoText {entries : List Entry} (hne : entries ≠ []) (h : ∀ e ∈ entries, e.Ok)
    (hnul : NulBehind (infoText entries)) {fuel : Nat} (hfuel : (infoText entries).length < fuel)
    (acc : List RedisSvrInfo) :
    initSvrLoop fuel (infoText entries) acc =
      some (INIT_SUCCESS_CODE, acc ++ entries.map Entry.svrInfo) := by
  induction entries generalizing fuel acc with
  | nil => exact absurd rfl hne
  | cons e entries ih =>
    obtain ⟨he, hentries⟩ := List.forall_mem_cons.mp h
    cases fuel with
    | zero => omega
    | succ fuel =>
      by_cases hnil : entries = []
      · subst hnil
        have htext : infoText [e] = e.text := by simp [infoText]
        rw [htext] at hnul ⊢
        rw [initSvrLoop_last he (hnul.notMem List.mem_cons_self)]
        rfl
      · rw [infoText_cons e hnil] at hnul hfuel ⊢
        have hcolon := List.mem_cons_of_mem 44 (colon_mem_infoText hnil)
        have hnul' : NulBehind (infoText entries) := by
          have hright := hnul.right
          exact NulBehind.right (l := [44]) hright
        simp only [List.length_append, List.length_cons] at hfuel
        rw [initSvrLoop_comma he (hnul.notMem hcolon), ih hnil hentries hnul' (by omega),
          List.append_assoc]
        rfl

/-! ## Reading any text -/

/-- Behind the first colon there is one less. -/
theorem count_drop_lt {s : Bytes} {i n : Nat} (h : findByte 58 s = some i) (hn : i + 1 ≤ n) :
    (s.drop n).count 58 < s.count 58 := by
  have hcount : s.count 58 = (s.take i).count 58 + ((s.drop (i + 1)).count 58 + 1) := by
    conv_lhs => rw [(findByte_eq_some h).1]
    rw [List.count_append, List.count_cons_self]
  have hsub : s.drop n = (s.drop (i + 1)).drop (n - (i + 1)) := by
    rw [List.drop_drop, Nat.add_sub_cancel' hn]
  have hle : (s.drop n).count 58 ≤ (s.drop (i + 1)).count 58 := by
    rw [hsub]
    exact (List.drop_sublist _ _).count_le 58
  omega

/-- A turn refuses the text, or has read one server: the last one, or one in front of fewer
colons. -/
theorem initSvrLoop_cases (fuel : Nat) (s : Bytes) (acc : List RedisSvrInfo) :
    initSvrLoop (fuel + 1) s acc = some (INIT_PARAMETER_ERROR, acc) ∨
    (∃ svr, initSvrLoop (fuel + 1) s acc = some (INIT_SUCCESS_CODE, acc ++ [svr]) ∧
      0 < (cstr s).count 58) ∨
    ∃ svr n, initSvrLoop (fuel + 1) s acc = initSvrLoop fuel (s.drop n) (acc ++ [svr]) ∧
      (cstr (s.drop n)).count 58 < (cstr s).count 58 := by
  rw [initSvrLoop]
  cases hcolon : utilFristConstchar s 58 with
  | none => exact .inl rfl
  | some pColon =>
    simp only
    split
    · exact .inl rfl
    rename_i hhost
    cases hcomma : utilFristConstchar s 44 with
    | none =>
      simp only
      split
      · exact .inl rfl
      · refine .inr (.inl ⟨_, rfl, Nat.pos_of_ne_zero fun hzero => ?_⟩)
        rw [utilFristConstchar, findByte_eq_none.mpr (List.count_eq_zero.mp hzero)] at hcolon
        cases hcolon
    | some pComma =>
      simp only
      split
      · exact .inl rfl
      · rename_i hport
        -- a comma in front of the colon would give a huge length
        have hbehind : pColon + 1 ≤ pComma := by
          unfold sizeDiff at hport
          split at hport
          · assumption
          · unfold MAX_PORT_NUM_LEN at hport
            unfold MAX_IP_ADDR_LEN at hhost
            omega
        have hin : pComma + 1 ≤ (cstr s).length := by
          have hlen := congrArg List.length (findByte_eq_some hcomma).1
          simp only [List.length_append, List.length_take, List.length_cons,
            List.length_drop] at hlen
          omega
        refine .inr (.inr ⟨_, pComma + 1, rfl, ?_⟩)
        rw [cstr_drop hin]
        exact count_drop_lt hcolon (by omega)

/-- Every server that is read has a colon of its own. -/
theorem initSvrLoop_length {fuel : Nat} {s : Bytes} {acc svrs : List RedisSvrInfo} {code : Int}
    (h : initSvrLoop fuel s acc = some (code, svrs)) :
    svrs.length ≤ acc.length + (cstr s).count 58 := by
  induction fuel generalizing s acc with
  | zero => cases h
  | succ fuel ih =>
    rcases initSvrLoop_cases fuel s acc with heq | ⟨svr, heq, hcount⟩ | ⟨svr, n, heq, hcount⟩
    · rw [heq] at h
      cases h
      exact Nat.le_add_right _ _
    · rw [heq] at h
      cases h
      rw [List.length_append, List.length_singleton]
      omega
    · have hle := ih (heq ▸ h)
      rw [List.length_append, List.length_singleton] at hle
      omega

theorem count_infoText {entries : List Entry} (h : ∀ e ∈ entries, e.Ok) :
    (infoText entries).count 58 = entries.length := by
  induction entries with
  | nil => rfl
  | cons e entries ih =>
    obtain ⟨he, hentries⟩ := List.forall_mem_cons.mp h
    have htext : e.text.count 58 = 1 := by
      rw [Entry.text, List.count_append, List.count_cons_self, List.count_eq_zero.mpr he.host.2,
        List.count_eq_zero.mpr he.port.2]
    by_cases hnil : entries = []
    · subst hnil
      simpa [infoText] using htext
    · rw [infoText_cons e hnil, List.count_append, htext, List.count_cons_of_ne (by decide),
        ih hentries, List.length_cons, Nat.add_comm]

/-- A text with a colon behind a NUL has more colons than its C string. -/
theorem count_cstr_lt {s : Bytes} (h : ¬ NulBehind s) : (cstr s).count 58 < s.count 58 := by
  unfold NulBehind at h
  push Not at h
  obtain ⟨pre, post, rfl, hmem⟩ := h
  have hpre : (cstr (pre ++ 0 :: post)).count 58 ≤ pre.count 58 := by
    by_cases hnul : 0 ∈ pre
    · rw [cstr_append_of_mem hnul]
      exact (List.takeWhile_sublist _).count_le 58
    · have hnil : cstr (0 :: post) = [] := by simp [cstr]
      rw [cstr_append hnul, hnil, List.append_nil]
  have hpost : 0 < post.count 58 := List.count_pos_iff.mpr hmem
  rw [List.count_append, List.count_cons_of_ne (by decide)]
  omega

/-! ## Adding a service -/

/-- `redisAsyncInit` has been called. -/
def InitAsync.Initialised (self : InitAsync) : Prop :=
  self.callBackNum_ ≠ 0 ∧ self.ioThreadNum_ ≠ 0 ∧ self.keepSecond_ ≠ 0 ∧ self.connOutSecond_ ≠ 0

section

variable {self : InitAsync} (hinit : self.Initialised) (call : AddCall) (ipPortInfo auth : Bytes)
include hinit

/-- What any of the three calls comes to, by what the loop makes of the text. -/
theorem run_eq :
    ∃ svrType_, call.run self ipPortInfo auth =
      match initSvrLoop (ipPortInfo.length + 1) ipPortInfo [] with
      | none => none
      | some (code, svrs) =>
        let mgr := { self.newClientMgr svrType_ ipPortInfo auth with initSvrInfo_ := svrs }
        if code < 0 then some (code, { self with vectRedisCliMgr := self.vectRedisCliMgr ++ [mgr] })
        else
          match svrs[0]? with
          | none => none
          | some svr =>
            let cli : RedisCli :=
              ⟨self.created, svr, (self.initIoIndex + 1).toNat % self.ioThreadNum_, .init⟩
            some ((Int32.ofNat self.vectRedisCliMgr.length).toInt, { self with
              vectRedisCliMgr := self.vectRedisCliMgr ++ [{ mgr with nodeCli_ := some cli }]
              initIoIndex := self.initIoIndex + 1
              created := self.created + 1
              queued := self.queued ++ [cli] }) := by
  have hrun : ∃ svrType_, call.run self ipPortInfo auth =
      InitAsync.addRedisInfo svrType_ self ipPortInfo auth := by
    cases call with
    | addSigleRedisInfo => exact ⟨.single, rfl⟩
    | addMasterSlaveInfo => exact ⟨.masterSlave, rfl⟩
    | addClusterInfo => exact ⟨.cluster, rfl⟩
  obtain ⟨svrType_, hrun⟩ := hrun
  have hparam : ¬ (self.callBackNum_ = 0 ∨ self.ioThreadNum_ = 0 ∨ self.keepSecond_ = 0 ∨
      self.connOutSecond_ = 0) := by
    obtain ⟨h1, h2, h3, h4⟩ := hinit
    simp [h1, h2, h3, h4]
  refine ⟨svrType_, ?_⟩
  rw [hrun, InitAsync.addRedisInfo, if_neg hparam]
  have hsuccess : ¬ INIT_SUCCESS_CODE < 0 := by decide
  simp only [InitAsync.redisInitConnect, List.getLast?_concat, InitAsync.newClientMgr]
  cases initSvrLoop (ipPortInfo.length + 1) ipPortInfo [] with
  | none => rfl
  | some result =>
    obtain ⟨code, svrs⟩ := result
    by_cases hcode : code < 0
    · simp only [if_pos hcode, Option.map_some, InitAsync.setLast, List.dropLast_concat]
    · simp only [if_neg hcode]
      cases svrs[0]? with
      | none => rfl
      | some svr =>
        simp only [Option.map_some, if_neg hsuccess, InitAsync.setLast, List.dropLast_concat]

/-- Whatever the text is, the manager is added, with the servers that the loop has read. -/
theorem run_adds {ret : Int} {self' : InitAsync}
    (h : call.run self ipPortInfo auth = some (ret, self')) :
    ∃ mgr code, self'.vectRedisCliMgr = self.vectRedisCliMgr ++ [mgr] ∧
      initSvrLoop (ipPortInfo.length + 1) ipPortInfo [] = some (code, mgr.initSvrInfo_) ∧
      (ret < 0 ∨ ret = (Int32.ofNat self.vectRedisCliMgr.length).toInt) := by
  obtain ⟨svrType_, hrun⟩ := run_eq hinit call ipPortInfo auth
  rw [hrun] at h
  cases hloop : initSvrLoop (ipPortInfo.length + 1) ipPortInfo [] with
  | none =>
    rw [hloop] at h
    cases h
  | some result =>
    obtain ⟨code, svrs⟩ := result
    simp only [hloop] at h
    split at h
    · rename_i hcode
      cases h
      exact ⟨_, _, rfl, rfl, .inl hcode⟩
    · split at h
      · cases h
      · cases h
        exact ⟨_, _, rfl, rfl, .inr rfl⟩

/-- A list is added as a whole. -/
theorem run_infoText {entries : List Entry} (hlist : IsList ipPortInfo entries)
    (hnul : NulBehind ipPortInfo) :
    ∃ self' mgr cli, call.run self ipPortInfo auth =
        some ((Int32.ofNat self.vectRedisCliMgr.length).toInt, self') ∧
      self'.vectRedisCliMgr = self.vectRedisCliMgr ++ [mgr] ∧
      mgr.initSvrInfo_ = entries.map Entry.svrInfo ∧ mgr.nodeCli_ = some cli ∧
      self'.queued = self.queued ++ [cli] := by
  obtain ⟨hne, hok, rfl⟩ := hlist
  obtain ⟨svrType_, hrun⟩ := run_eq hinit call (infoText entries) auth
  have hloop := initSvrLoop_infoText hne hok hnul (Nat.lt_succ_self _) []
  rw [hloop, List.nil_append] at hrun
  obtain ⟨e, es, rfl⟩ := List.exists_cons_of_ne_nil hne
  exact ⟨_, _, _, hrun, rfl, rfl, rfl, rfl⟩

/-- For any text, once `redisAsyncInit` has been called: a service is added as a whole or not at all
exactly if no piece of the text is faulty, and, if the text is a list of entries, the index of the new
manager is an `int` and no colon stands behind a NUL. -/
theorem allOrNothing_iff :
    AllOrNothing call self ipPortInfo auth ↔
      (∀ piece ∈ ipPortInfo.splitOn 44, ¬ Faulty piece) ∧
        ((∃ entries, IsList ipPortInfo entries) →
          self.vectRedisCliMgr.length < 2 ^ 31 ∧ NulBehind ipPortInfo) := by
  constructor
  · rintro ⟨hlist, hfaulty⟩
    constructor
    · intro piece hpiece hbad
      obtain ⟨ret, self', hrun, -, hsame⟩ := hfaulty ⟨piece, hpiece, hbad⟩
      obtain ⟨mgr, -, hadd, -⟩ := run_adds hinit call ipPortInfo auth hrun
      have hlen := congrArg List.length (hsame.symm.trans hadd)
      simp at hlen
    · rintro ⟨entries, hentries⟩
      obtain ⟨self', mgr, cli, hrun, hadd, hsvrs, -⟩ := hlist entries hentries
      obtain ⟨mgr', code, hadd', hloop, hret⟩ := run_adds hinit call ipPortInfo auth hrun
      have hmgr : mgr' = mgr := by
        have heq := List.append_cancel_left (hadd'.symm.trans hadd)
        exact (List.cons.inj heq).1
      rw [hmgr, hsvrs] at hloop
      constructor
      · have hint := (Int32.ofNat self.vectRedisCliMgr.length).toInt_lt
        omega
      · by_contra hnul
        have hle := initSvrLoop_length hloop
        have hlt := count_cstr_lt hnul
        obtain ⟨-, hok, rfl⟩ := hentries
        rw [count_infoText hok] at hlt
        simp only [List.length_map, List.length_nil] at hle
        omega
  · rintro ⟨hpieces, hlist⟩
    constructor
    · intro entries hentries
      obtain ⟨hlen, hnul⟩ := hlist ⟨entries, hentries⟩
      have hrun := run_infoText hinit call ipPortInfo auth hentries hnul
      rwa [Int32.toInt_ofNat_of_lt hlen] at hrun
    · rintro ⟨piece, hpiece, hbad⟩
      exact absurd hbad (hpieces piece hpiece)

end

/-- After `redisAsyncInit`, without a service. -/
def freshAsync : InitAsync := ⟨1, 1, 1, 1, [], 0, 0, []⟩

theorem freshAsync_initialised : freshAsync.Initialised := by
  simp [freshAsync, InitAsync.Initialised]

/-- `a:1,b:2` -/
theorem allOrNothing_iff_two :
    AllOrNothing .addClusterInfo freshAsync [97, 58, 49, 44, 98, 58, 50] [] := by
  have hsplit : ([97, 58, 49, 44, 98, 58, 50] : Bytes).splitOn 44 = [[97, 58, 49], [98, 58, 50]] := by
    decide
  refine (allOrNothing_iff freshAsync_initialised _ _ _).mpr ⟨?_, fun _ => ⟨by decide, ?_⟩⟩
  · rw [hsplit]
    simp [Faulty, MAX_IP_ADDR_LEN, MAX_PORT_NUM_LEN]
  · intro pre post heq
    have hno : 0 ∉ ([97, 58, 49, 44, 98, 58, 50] : Bytes) := by decide
    exact absurd (heq ▸ List.mem_append_right pre List.mem_cons_self) hno

/-- The text `a` has no colon, and its manager stays. -/
theorem failed_mgr_stays :
    ¬ ∀ (call : AddCall) (self : InitAsync) (ipPortInfo auth : Bytes), self.Initialised →
      AllOrNothing call self ipPortInfo auth := by
  intro h
  obtain ⟨ret, self', hrun, -, hsame⟩ :=
    (h .addClusterInfo freshAsync [97] [] freshAsync_initialised).2 ⟨[97], by decide, .inl (by decide)⟩
  obtain ⟨mgr, -, hadd, -⟩ := run_adds freshAsync_initialised _ _ _ hrun
  have hlen := congrArg List.length (hsame.symm.trans hadd)
  simp at hlen

end RedisAsyn
end CmakeFrame
