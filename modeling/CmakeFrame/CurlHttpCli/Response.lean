import CmakeFrame.Lib.Decimal

/-!
# The response that a session carries

`curlHttpRequest` copies the session that it is given, with the response that it may carry from an
earlier request. `write_cb` collects the body in the connection, `check_multi_info` writes what came
into the session, and `httpcliConnForEach` answers with the session as it is.

* `HttpResponse`: the three fields. `Transfer`: what becomes of a request.
* `deliver`: the session that is handed to the callback.
* `OwnResponse`: it carries the response of this transfer. `deliver_own_iff`: the exact condition.
* `stale_response`: a retry from the callback.
-/

namespace CmakeFrame
namespace CurlHttp

open Lib

/-- The response fields of a `HttpReqSession`. -/
structure HttpResponse where
  rspCode : Int32
  rspBody : Bytes
  errorMsg : Bytes
  deriving DecidableEq, Repr

/-- The session of a request that was never made. -/
def HttpResponse.new : HttpResponse := ⟨0, [], []⟩

/-- Why `requetHttpServer` answers without a transfer. -/
inductive Refusal where
  | newError
  | initError
  | reqUrlError
  | noSupport
  deriving DecidableEq, Repr

namespace Refusal

def code : Refusal → Int32
  | newError | initError | reqUrlError => -1
  | noSupport => -2

def text : Refusal → String
  | newError => "malloc connInfo nullptr"
  | initError => "connInfo init error"
  | reqUrlError => "connInfo req url error"
  | noSupport => "connInfo httpRequestType no support"

def errorMsg (r : Refusal) : Bytes := r.text.toList.map fun c => UInt8.ofNat c.toNat

end Refusal

/-- What becomes of a request. `chunks` are the calls of `write_cb`. -/
inductive Transfer where
  | refused (r : Refusal)
  /-- libcurl has done it, with what `curl_multi_info_read` and `curl_easy_getinfo` report and what is
  in the error buffer. -/
  | done (chunks : List Bytes) (res : Int32) (response_code : Int64) (error : Bytes)
  /-- The sweep has found it out of time. -/
  | out (chunks : List Bytes)
  deriving DecidableEq, Repr

/-- `write_cb`: the body in the connection, with the `size * nmemb` bytes that have come. -/
def write_cb (reqInfo : Option HttpResponse) (rspdata ptr : Bytes) : Bytes :=
  match reqInfo with
  | none => rspdata
  | some sess =>
    if sess.rspCode = 0 then
      if rspdata = [] then ptr else rspdata ++ ptr
    else rspdata

/-- What `check_multi_info` writes into the session. -/
def checkMultiInfo (sess : HttpResponse) (rspdata : Bytes) (res : Int32) (response_code : Int64)
    (error : Bytes) : HttpResponse :=
  let sess :=
    if res ≠ 0 then { sess with rspCode := res, errorMsg := cstr error }
    else { sess with rspCode := response_code.toInt32 }
  if rspdata ≠ [] then { sess with rspBody := rspdata } else sess

/-- The session that the callback gets, for the session that `curlHttpRequest` has copied. -/
def deliver (sess : HttpResponse) : Transfer → HttpResponse
  | .refused r => { sess with rspCode := r.code, errorMsg := r.errorMsg }
  | .done chunks res response_code error =>
    checkMultiInfo sess (chunks.foldl (write_cb (some sess)) []) res response_code error
  | .out _ => sess

/-! ## What a transfer gives -/

namespace Transfer

def body : Transfer → Bytes
  | refused _ => []
  | done chunks _ _ _ | out chunks => chunks.flatten

/-- A transfer that was swept has none, and a session without a code has 0. -/
def code : Transfer → Int
  | refused r => r.code.toInt
  | done _ res response_code _ => if res ≠ 0 then res.toInt else response_code.toInt
  | out _ => 0

def Failed : Transfer → Prop
  | refused _ | out _ => True
  | done _ res _ _ => res ≠ 0

end Transfer

/-- The session carries the response of this transfer. -/
structure OwnResponse (t : Transfer) (sess : HttpResponse) : Prop where
  body : sess.rspBody = t.body
  code : sess.rspCode.toInt = t.code
  errorMsg : sess.errorMsg ≠ [] → t.Failed

/-- The condition on the session that is handed in. -/
def FitsSession (sess : HttpResponse) : Transfer → Prop
  | .refused _ => sess.rspBody = []
  | .done chunks res response_code _ =>
    (chunks.flatten = [] → sess.rspBody = []) ∧
    (chunks.flatten ≠ [] → sess.rspCode = 0 ∨ sess.rspBody = chunks.flatten) ∧
    (res = 0 → sess.errorMsg = [] ∧ -2 ^ 31 ≤ response_code.toInt ∧ response_code.toInt < 2 ^ 31)
  | .out chunks => sess.rspBody = chunks.flatten ∧ sess.rspCode = 0

/-- The chunks are collected unless the session carries a code. -/
theorem foldl_write_cb (sess : HttpResponse) (chunks : List Bytes) (rspdata : Bytes) :
    chunks.foldl (write_cb (some sess)) rspdata =
      if sess.rspCode = 0 then rspdata ++ chunks.flatten else rspdata := by
  induction chunks generalizing rspdata with
  | nil => simp
  | cons chunk chunks ih =>
    rw [List.foldl_cons, ih]
    by_cases hcode : sess.rspCode = 0
    · rcases eq_or_ne rspdata [] with rfl | hne
      · simp [write_cb, hcode]
      · simp [write_cb, hcode, hne]
    · simp [write_cb, hcode]

theorem checkMultiInfo_rspBody (sess : HttpResponse) (rspdata : Bytes) (res : Int32)
    (response_code : Int64) (error : Bytes) :
    (checkMultiInfo sess rspdata res response_code error).rspBody =
      if rspdata ≠ [] then rspdata else sess.rspBody := by
  unfold checkMultiInfo
  by_cases hres : res = 0 <;> by_cases hdata : rspdata = [] <;> simp [hres, hdata]

theorem checkMultiInfo_rspCode (sess : HttpResponse) (rspdata : Bytes) (res : Int32)
    (response_code : Int64) (error : Bytes) :
    (checkMultiInfo sess rspdata res response_code error).rspCode =
      if res ≠ 0 then res else response_code.toInt32 := by
  unfold checkMultiInfo
  by_cases hres : res = 0 <;> by_cases hdata : rspdata = [] <;> simp [hres, hdata]

theorem checkMultiInfo_errorMsg (sess : HttpResponse) (rspdata : Bytes) (res : Int32)
    (response_code : Int64) (error : Bytes) :
    (checkMultiInfo sess rspdata res response_code error).errorMsg =
      if res ≠ 0 then cstr error else sess.errorMsg := by
  unfold checkMultiInfo
  by_cases hres : res = 0 <;> by_cases hdata : rspdata = [] <;> simp [hres, hdata]

theorem toInt_toInt32_iff (n : Int64) :
    n.toInt32.toInt = n.toInt ↔ -2 ^ 31 ≤ n.toInt ∧ n.toInt < 2 ^ 31 := by
  rw [Int64.toInt_toInt32, Int.bmod_eq_iff (by decide)]
  omega

/-- The body of a transfer that libcurl has done. -/
theorem done_body_iff (sess : HttpResponse) (chunks : List Bytes) (res : Int32)
    (response_code : Int64) (error : Bytes) :
    (deliver sess (.done chunks res response_code error)).rspBody = chunks.flatten ↔
      (chunks.flatten = [] → sess.rspBody = []) ∧
        (chunks.flatten ≠ [] → sess.rspCode = 0 ∨ sess.rspBody = chunks.flatten) := by
  rw [deliver, checkMultiInfo_rspBody, foldl_write_cb]
  by_cases hcode : sess.rspCode = 0
  · by_cases hflat : chunks.flatten = []
    · simp [hcode, hflat]
    · simp [hcode, hflat]
  · by_cases hflat : chunks.flatten = []
    · simp [hcode, hflat]
    · simp [hcode, hflat]

/-- **When a session carries the response of its own transfer.** -/
theorem deliver_own_iff (sess : HttpResponse) (t : Transfer) :
    OwnResponse t (deliver sess t) ↔ FitsSession sess t := by
  cases t with
  | refused r =>
    constructor
    · intro h
      exact h.body
    · intro h
      exact ⟨h, rfl, fun _ => trivial⟩
  | out chunks =>
    constructor
    · intro h
      exact ⟨h.body, Int32.toInt_inj.mp h.code⟩
    · rintro ⟨hbody, hcode⟩
      exact ⟨hbody, by rw [deliver, hcode]; rfl, fun _ => trivial⟩
  | done chunks res response_code error =>
    have hbody := done_body_iff sess chunks res response_code error
    have hcode := checkMultiInfo_rspCode sess (chunks.foldl (write_cb (some sess)) []) res
      response_code error
    have herror := checkMultiInfo_errorMsg sess (chunks.foldl (write_cb (some sess)) []) res
      response_code error
    constructor
    · intro h
      obtain ⟨hempty, hsome⟩ := hbody.mp h.body
      refine ⟨hempty, hsome, fun hres => ?_⟩
      have hc : (checkMultiInfo _ _ res response_code error).rspCode.toInt = _ := h.code
      have he := mt h.errorMsg (not_not.mpr hres)
      rw [hcode, if_neg (not_not.mpr hres), Transfer.code, if_neg (not_not.mpr hres)] at hc
      rw [deliver, herror, if_neg (not_not.mpr hres)] at he
      exact ⟨not_not.mp he, (toInt_toInt32_iff response_code).mp hc⟩
    · rintro ⟨hempty, hsome, hok⟩
      refine ⟨hbody.mpr ⟨hempty, hsome⟩, ?_, ?_⟩
      · simp only [deliver, hcode, Transfer.code]
        split
        · rfl
        · rename_i hres
          exact (toInt_toInt32_iff response_code).mpr (hok (not_not.mp hres)).2
      · simp only [deliver, herror]
        intro hmsg
        by_contra hfailed
        have hres : res = 0 := not_not.mp hfailed
        rw [if_neg (not_not.mpr hres)] at hmsg
        exact hmsg (hok hres).1

/-- The server answers `a`, the callback asks again with the session that it got, and the server
answers `b`: the callback gets `a` again. -/
theorem stale_response :
    deliver (deliver .new (.done [[97]] 0 200 [])) (.done [[98]] 0 200 []) = ⟨200, [97], []⟩ ∧
    ¬ ∀ sess t, OwnResponse t (deliver sess t) := by
  refine ⟨by decide, fun h => ?_⟩
  have hbody := (h ⟨200, [97], []⟩ (.done [[98]] 0 200 [])).body
  revert hbody
  decide

end CurlHttp
end CmakeFrame
