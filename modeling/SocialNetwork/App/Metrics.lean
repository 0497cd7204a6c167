import SocialNetwork.App.Search

/-!
# `Metrics` and the lambdas of the endpoints

The counters of `app_metrics.h` for each endpoint, the lambdas of `App::http_start` that update them
after a handler has returned, and what the server does with a request: an exception that leaves the
lambda is answered by `App::exception_handler`, and no counter has been touched.

Two things throw where no handler catches: the JSON parser, and `dump` of an answer whose texts are
not all UTF-8. The model of the handlers has the first of them; the second is added here, since it
happens in the last statement of a handler but its `return`.
-/

namespace SocialNetwork.App

open Foundation Helpers Pool

/-! ## Counters -/

/-- The endpoints whose requests are counted. -/
inductive Endpoint
  | login
  | userRegister
  | userGetId
  | userSearch
  deriving DecidableEq

/-- The counters of `Metrics`: all requests, the failed ones, and the observations of the latency
histogram, for each endpoint. -/
structure Metrics where
  totalRequests : Endpoint → Nat
  failedRequests : Endpoint → Nat
  latencyRequests : Endpoint → Nat

namespace Metrics

/-- The counters of a new `Metrics`. -/
def start : Metrics := ⟨fun _ => 0, fun _ => 0, fun _ => 0⟩

/-- `Increment()` or `Observe(…)` of the counter of an endpoint. -/
def increment (counter : Endpoint → Nat) (e : Endpoint) : Endpoint → Nat :=
  Function.update counter e (counter e + 1)

/-- One more request of an endpoint. -/
def countRequest (e : Endpoint) (m : Metrics) : Metrics :=
  { m with totalRequests := increment m.totalRequests e }

/-- One more failed request of an endpoint. -/
def countFailedRequest (e : Endpoint) (m : Metrics) : Metrics :=
  { m with failedRequests := increment m.failedRequests e }

/-- One more latency of an endpoint. -/
def storeLatencyRequest (e : Endpoint) (m : Metrics) : Metrics :=
  { m with latencyRequests := increment m.latencyRequests e }

/-- `count_request_login`. -/
def countRequestLogin : Metrics → Metrics := countRequest .login

/-- `count_request_user_register`. -/
def countRequestUserRegister : Metrics → Metrics := countRequest .userRegister

/-- `count_request_user_get_id`. -/
def countRequestUserGetId : Metrics → Metrics := countRequest .userGetId

/-- `count_request_user_search`. -/
def countRequestUserSearch : Metrics → Metrics := countRequest .userSearch

/-- `count_failed_request_login`. -/
def countFailedRequestLogin : Metrics → Metrics := countFailedRequest .login

/-- `count_failed_request_user_register`. -/
def countFailedRequestUserRegister : Metrics → Metrics := countFailedRequest .userRegister

/-- `count_failed_request_user_get_id`. -/
def countFailedRequestUserGetId : Metrics → Metrics := countFailedRequest .userGetId

/-- `count_failed_request_user_search`. -/
def countFailedRequestUserSearch : Metrics → Metrics := countFailedRequest .userSearch

/-- `store_latency_request_login`. -/
def storeLatencyRequestLogin : Metrics → Metrics := storeLatencyRequest .login

/-- `store_latency_request_user_register`. -/
def storeLatencyRequestUserRegister : Metrics → Metrics := storeLatencyRequest .userRegister

/-- `store_latency_request_user_get_id`. -/
def storeLatencyRequestUserGetId : Metrics → Metrics := storeLatencyRequest .userGetId

/-- `store_latency_request_user_search`. -/
def storeLatencyRequestUserSearch : Metrics → Metrics := storeLatencyRequest .userSearch

/-- What a lambda does with the return value of its handler. -/
def counted (count countFailed storeLatency : Metrics → Metrics) (ok : Bool) (m : Metrics) :
    Metrics :=
  let m := count m
  let m := if !ok then countFailed m else m
  if ok then storeLatency m else m

/-- The ends of the four lambdas. -/
def lambdaEnd : Endpoint → Bool → Metrics → Metrics
  | .login => counted countRequestLogin countFailedRequestLogin storeLatencyRequestLogin
  | .userRegister => counted countRequestUserRegister countFailedRequestUserRegister
      storeLatencyRequestUserRegister
  | .userGetId => counted countRequestUserGetId countFailedRequestUserGetId
      storeLatencyRequestUserGetId
  | .userSearch => counted countRequestUserSearch countFailedRequestUserSearch
      storeLatencyRequestUserSearch

variable (e e' : Endpoint) (ok : Bool) (m : Metrics)

theorem increment_apply (counter : Endpoint → Nat) :
    increment counter e e' = counter e' + if e = e' then 1 else 0 := by
  unfold increment
  by_cases h : e = e'
  · subst h
    rw [Function.update_self, if_pos rfl]
  · rw [Function.update_of_ne (Ne.symm h), if_neg h, Nat.add_zero]

/-- A lambda counts at its own endpoint. -/
theorem lambdaEnd_eq :
    lambdaEnd e = counted (countRequest e) (countFailedRequest e) (storeLatencyRequest e) := by
  cases e <;> rfl

/-- Every request that gets there is counted. -/
theorem totalRequests_lambdaEnd : (lambdaEnd e ok m).totalRequests e' =
    m.totalRequests e' + if e = e' then 1 else 0 := by
  rw [lambdaEnd_eq, ← increment_apply]
  cases ok <;> rfl

/-- A failed request is counted as failed. -/
theorem failedRequests_lambdaEnd : (lambdaEnd e ok m).failedRequests e' =
    m.failedRequests e' + if e = e' ∧ ok = false then 1 else 0 := by
  rw [lambdaEnd_eq]
  cases ok with
  | false => simp [counted, countFailedRequest, countRequest, increment_apply]
  | true => simp [counted, storeLatencyRequest, countRequest]

/-- The latency of the others is stored. -/
theorem latencyRequests_lambdaEnd : (lambdaEnd e ok m).latencyRequests e' =
    m.latencyRequests e' + if e = e' ∧ ok = true then 1 else 0 := by
  rw [lambdaEnd_eq]
  cases ok with
  | false => simp [counted, countFailedRequest, countRequest]
  | true => simp [counted, storeLatencyRequest, countRequest, increment_apply]

end Metrics

/-! ## The lambdas -/

/-- Well-formed UTF-8, of which `nlohmann::json::dump` wants every text to be. -/
def isUtf8 (s : Bytes) : Bool := s.toByteArray.validateUTF8

mutual

/-- `dump` does not throw: all keys and strings are UTF-8. -/
def Json.isUtf8 : Json → Bool
  | .string value => App.isUtf8 value
  | .array items => Json.isUtf8Items items
  | .object members => Json.isUtf8Members members
  | _ => true

/-- The elements of an array. -/
def Json.isUtf8Items : List Json → Bool
  | [] => true
  | item :: items => item.isUtf8 && Json.isUtf8Items items

/-- The members of an object. -/
def Json.isUtf8Members : List (Bytes × Json) → Bool
  | [] => true
  | (key, value) :: members => App.isUtf8 key && value.isUtf8 && Json.isUtf8Members members

end

/-- A request that is dispatched to one of the lambdas. -/
inductive Dispatch
  | login (req : HttpRequest)
  | userRegister (req : HttpRequest)
  | userGetId (req : HttpRequest)
  | userSearch (req : SearchRequest)

namespace Dispatch

/-- The endpoint of the lambda. -/
def endpoint : Dispatch → Endpoint
  | .login _ => .login
  | .userRegister _ => .userRegister
  | .userGetId _ => .userGetId
  | .userSearch _ => .userSearch

/-- The HTTP request. -/
def http : Dispatch → HttpRequest
  | .login req => req
  | .userRegister req => req
  | .userGetId req => req
  | .userSearch req => req.toHttpRequest

end Dispatch

/-- What the pool, the database and BCrypt answer to the calls of one request: values or exceptions.
A handler makes no call twice. -/
abbrev Answers := (e : SearchOp) → e.Result

/-- The answers to the calls of the handlers without the search. -/
def Answers.db (answers : Answers) (e : Op) : e.Result := answers (.db e)

section lambdas

variable (X : Externals) (dbPool : Bool)

/-- How a handler ends, but for `dump`. -/
def handled (answers : Answers) : Dispatch → Except Bytes (Bool × HttpResponse)
  | .login req => Program.evalE answers.db (loginHandler X dbPool req .fresh)
  | .userRegister req => Program.evalE answers.db (userRegisterHandler X dbPool req .fresh)
  | .userGetId req => Program.evalE answers.db (userGetIdHandler dbPool req .fresh)
  | .userSearch req => Program.evalE answers (userSearchHandler dbPool req .fresh)

/-- `res.set_content(response.dump(), …)` at the end of a handler. If it throws, the response is left
without content. -/
def dumped (result : Bool × HttpResponse) : Except HttpResponse (Bool × HttpResponse) :=
  match result.2.content with
  | some (.json value) =>
      if value.isUtf8 then .ok result else .error { result.2 with content := none }
  | _ => .ok result

/-- The call of the handler in a lambda: its value, or the response as an exception leaves it. The
parser throws before the response is touched. -/
def called (q : Dispatch) (answers : Answers) : Except HttpResponse (Bool × HttpResponse) :=
  match handled X dbPool answers q with
  | .ok result => dumped result
  | .error _ => .error .fresh

/-- A request is dispatched to its lambda: the counters after it, and the answer. -/
def dispatch (m : Metrics) (q : Dispatch) (answers : Answers) : Metrics × HttpResponse :=
  match called X dbPool q answers with
  | .ok (ok, res) => (Metrics.lambdaEnd q.endpoint ok m, finish X q.http res)
  | .error res => (m, finish X q.http (exceptionHandler res))

/-- The counters, and the requests that were dispatched with their answers. -/
structure Served where
  metrics : Metrics
  answered : List (Endpoint × HttpResponse)

/-- One more request. -/
def Served.next (s : Served) (x : Dispatch × Answers) : Served :=
  let (metrics, res) := dispatch X dbPool s.metrics x.1 x.2
  ⟨metrics, s.answered ++ [(x.1.endpoint, res)]⟩

end lambdas

end SocialNetwork.App
