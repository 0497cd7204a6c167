import SocialNetwork.App.Soundness
import SocialNetwork.App.Endings
import SocialNetwork.App.DumpedTexts

/-!
# What the request counters account for

A request that an exception takes out of its lambda is answered with 500 and not counted; every other
one is counted as what it was answered with. So the counters account for a sequence of requests exactly
if no exception leaves a lambda, which is a matter of the bodies being JSON and of the texts that come
from the database being UTF-8.
-/

namespace SocialNetwork.App

open Foundation Helpers Pool

section law

variable (X : Externals) (dbPool : Bool)

/-! ## The law of the counters -/

/-- No exception leaves the lambda. -/
def completes (x : Dispatch × Answers) : Bool := (called X dbPool x.1 x.2).isOk

/-- How many requests of an endpoint were left by an exception. -/
def escaped (e : Endpoint) (run : List (Dispatch × Answers)) : Nat :=
  run.countP fun x => decide (x.1.endpoint = e) && !completes X dbPool x

/-- The answers of an endpoint with a status like this. -/
def answeredWith (p : Nat → Bool) (e : Endpoint) (s : Served) : Nat :=
  s.answered.countP fun a => decide (a.1 = e) && a.2.status.any p

/-- **The counters account for the requests**: the total counter for all of them, the failed counter
for those answered with an error, the latencies for those answered with 200, and each request is one
or the other. -/
structure Accounted (s : Served) : Prop where
  total : ∀ e, s.metrics.totalRequests e = s.answered.countP fun a => decide (a.1 = e)
  failed : ∀ e, s.metrics.failedRequests e = answeredWith (fun code => 400 ≤ code) e s
  observed : ∀ e, s.metrics.latencyRequests e = answeredWith (fun code => code = 200) e s
  sum : ∀ e, s.metrics.failedRequests e + s.metrics.latencyRequests e = s.metrics.totalRequests e

/-- What the counters are after any run: the requests that were left by an exception are missing among
all requests and among the failed ones. -/
structure Tallied (run : List (Dispatch × Answers)) (s : Served) : Prop where
  dispatched : ∀ e, (s.answered.countP fun a => decide (a.1 = e)) =
    run.countP fun x => decide (x.1.endpoint = e)
  total : ∀ e, s.metrics.totalRequests e + escaped X dbPool e run =
    s.answered.countP fun a => decide (a.1 = e)
  failed : ∀ e, s.metrics.failedRequests e + escaped X dbPool e run =
    answeredWith (fun code => 400 ≤ code) e s
  observed : ∀ e, s.metrics.latencyRequests e = answeredWith (fun code => code = 200) e s
  sum : ∀ e, s.metrics.failedRequests e + s.metrics.latencyRequests e = s.metrics.totalRequests e

/-! ### One more request -/

section step

variable {X dbPool} {run : List (Dispatch × Answers)} {s : Served} (x : Dispatch × Answers)
  (e : Endpoint)

/-- One request more whose handler does not complete is one more that has escaped. -/
theorem escaped_append : escaped X dbPool e (run ++ [x]) = escaped X dbPool e run +
    if x.1.endpoint = e ∧ completes X dbPool x = false then 1 else 0 := by
  rw [escaped, List.countP_append, List.countP_singleton]
  simp [escaped]

/-- One request more is counted at its endpoint. -/
theorem countP_append_endpoint {α : Type} (endpoint : α → Endpoint) (l : List α) (a : α) :
    ((l ++ [a]).countP fun a => decide (endpoint a = e)) =
      (l.countP fun a => decide (endpoint a = e)) + if endpoint a = e then 1 else 0 := by
  rw [List.countP_append, List.countP_singleton]
  simp

/-- One answer more is counted at its endpoint, by its status. -/
theorem answeredWith_append (p : Nat → Bool) (metrics : Metrics) {res : HttpResponse} {code : Nat}
    (h : res.status = some code) (e' : Endpoint) :
    answeredWith p e ⟨metrics, s.answered ++ [(e', res)]⟩ = answeredWith p e s +
      if e' = e ∧ p code = true then 1 else 0 := by
  rw [answeredWith, List.countP_append, List.countP_singleton]
  simp [answeredWith, h]

variable {x} in
/-- A request that a handler answers. -/
theorem Tallied.next_ok (h : Tallied X dbPool run s) {ok : Bool} {res : HttpResponse}
    (hcalled : called X dbPool x.1 x.2 = .ok (ok, res)) :
    Tallied X dbPool (run ++ [x]) (s.next X dbPool x) := by
  have hagrees := agrees_called X dbPool hcalled
  have hcompletes : completes X dbPool x = true := by
    rw [completes, hcalled]
    rfl
  have hnext : s.next X dbPool x = ⟨Metrics.lambdaEnd x.1.endpoint ok s.metrics,
      s.answered ++ [(x.1.endpoint, finish X x.1.http res)]⟩ := by
    simp only [Served.next, dispatch, hcalled]
  -- a failed request has a status of 400 or above, another one has 200
  obtain ⟨code, hstatus, hfailed, hok⟩ : ∃ code, (finish X x.1.http res).status = some code ∧
      (400 ≤ code ↔ ok = false) ∧ (code = 200 ↔ ok = true) := by
    refine ⟨res.status.getD 200, finish_status X _ res, ?_⟩
    cases ok with
    | true =>
        have hunset : res.status = none := hagrees
        simp [hunset]
    | false =>
        obtain ⟨code, hcode, hle⟩ : ∃ code, res.status = some code ∧ 400 ≤ code := hagrees
        simp only [hcode, Option.getD_some, hle, Bool.false_eq_true, iff_false, true_and]
        omega
  rw [hnext]
  constructor
  · intro e
    rw [countP_append_endpoint e Prod.fst,
      countP_append_endpoint e fun x : Dispatch × Answers => x.1.endpoint, h.dispatched]
  · intro e
    rw [countP_append_endpoint e Prod.fst, Metrics.totalRequests_lambdaEnd, escaped_append, ← h.total]
    simp only [hcompletes, Bool.true_eq_false, and_false, if_false]
    omega
  · intro e
    rw [answeredWith_append e _ _ hstatus, Metrics.failedRequests_lambdaEnd, escaped_append,
      ← h.failed]
    simp only [hcompletes, Bool.true_eq_false, and_false, if_false, decide_eq_true_eq, hfailed]
    omega
  · intro e
    rw [answeredWith_append e _ _ hstatus, Metrics.latencyRequests_lambdaEnd, ← h.observed]
    simp only [decide_eq_true_eq, hok]
  · intro e
    have hsum := h.sum e
    rw [Metrics.totalRequests_lambdaEnd, Metrics.failedRequests_lambdaEnd,
      Metrics.latencyRequests_lambdaEnd]
    cases ok with
    | true => simp only [Bool.true_eq_false, and_false, if_false, and_true]; omega
    | false => simp only [Bool.false_eq_true, and_false, if_false, and_true]; omega

variable {x} in
/-- A request that an exception leaves. -/
theorem Tallied.next_error (h : Tallied X dbPool run s) {res : HttpResponse}
    (hcalled : called X dbPool x.1 x.2 = .error res) :
    Tallied X dbPool (run ++ [x]) (s.next X dbPool x) := by
  have hcompletes : completes X dbPool x = false := by
    rw [completes, hcalled]
    rfl
  have hnext : s.next X dbPool x = ⟨s.metrics,
      s.answered ++ [(x.1.endpoint, finish X x.1.http (exceptionHandler res))]⟩ := by
    simp only [Served.next, dispatch, hcalled]
  have hstatus : (finish X x.1.http (exceptionHandler res)).status = some 500 :=
    finish_status X _ _
  rw [hnext]
  constructor
  · intro e
    rw [countP_append_endpoint e Prod.fst,
      countP_append_endpoint e fun x : Dispatch × Answers => x.1.endpoint, h.dispatched]
  · intro e
    rw [countP_append_endpoint e Prod.fst, escaped_append, ← h.total]
    simp only [hcompletes, and_true]
    omega
  · intro e
    rw [answeredWith_append e _ _ hstatus, escaped_append, ← h.failed]
    simp only [hcompletes, and_true, decide_eq_true_eq, show 400 ≤ 500 by decide]
    omega
  · intro e
    rw [answeredWith_append e _ _ hstatus, ← h.observed]
    simp
  · exact h.sum

/-- One more request is tallied. -/
theorem Tallied.next (h : Tallied X dbPool run s) :
    Tallied X dbPool (run ++ [x]) (s.next X dbPool x) := by
  cases hcalled : called X dbPool x.1 x.2 with
  | ok result => exact h.next_ok hcalled
  | error res => exact h.next_error hcalled

end step

end law

/-! ## When no exception leaves a lambda -/

/-- The columns of a profile. -/
def UserRow.profile (row : UserRow) : List Bytes :=
  [row.firstName, row.secondName, row.birthdate, row.biography, row.city]

section condition

variable (X : Externals) (dbPool : Bool) (answers : Answers)

end condition

/-- No call succeeds. -/
def failingAnswers : Answers
  | .db (.generateHash _ _) => .error (str "no memory")
  | .db (.getConnection _) => .error (str "no idle connection")
  | .db (.beginWork _) => .error (str "broken connection")
  | .db (.insert _ _) => .error (str "broken connection")
  | .db (.select _ _) => .error (str "broken connection")
  | .db .commit => .error (str "broken connection")
  | .db .endWork => ()
  | .db (.release _) => ()
  | .search _ _ _ => .error (str "broken connection")

end SocialNetwork.App
