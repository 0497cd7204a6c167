import SocialNetwork.App.Rules

/-!
# What logins and profile reads answer

The postconditions of the three handlers, proved one handler at a time with the rules of
`Rules.lean`, and the theorem about whole runs that follows from them: an answer 200 of `/login` or
`/user/get/:id` tells the truth about a committed registration, however far the replicas lag, and
without replicas a registration that was answered 200 is found by every later request.
-/

namespace SocialNetwork.App

open Foundation Helpers Pool

/-! ## Postconditions -/

/-- A request to register `rq` was answered 200 with this id. -/
def Acknowledged (before : List (Request × HttpResponse)) (rq : HttpRequest) (id : Bytes) : Prop :=
  ∃ rs, (.userRegister rq, rs) ∈ before ∧ rs.status = some 200 ∧
    rs.content = some (.json (userIdJson id))

/-- The registrations among `before` that were answered 200 are in the master's table. -/
def Known (dbPool : Bool) (before : List (Request × HttpResponse)) : Assertion := fun qs w =>
  ∀ rq rs, (.userRegister rq, rs) ∈ before → rs.status = some 200 →
    dbPool = true ∧ ∃ row ∈ w.log, qs[row.owner]? = some (.userRegister rq) ∧
      rs.content = some (.json (userIdJson row.id))

/-- What a request reads: the id of a user, and what the handler makes of the rows. -/
def readTarget (X : Externals) : Request → Option (Bytes × (List UserRow → TryResult))
  | .login req => (credentials X req).map fun c => (c.1, loginResult X c.2 .fresh)
  | .userGetId req => (req.pathParam (str "id")).map fun id => (id, getResult id .fresh)
  | .userRegister _ => none

/-- How a request that reads the user `id` can end, once the database is asked: by a committed row,
by 404 (without replicas, only if no such registration was acknowledged before), or by 500 after
an exception. -/
def ReadAnswer (cfg : DbConfig) (i : Nat) (before : List (Request × HttpResponse)) (id : Bytes)
    (answer : UserRow → HttpResponse) (res : HttpResponse) : Assertion := fun qs w =>
  (∃ row ∈ w.log, row.id = toLowercase id ∧ res = answer row) ∨
    (res.status = some 404 ∧
      (cfg.replicas = [] → ¬∃ rq, Acknowledged before rq (toLowercase id))) ∨
    (res.status = some 500 ∧ Threw i qs w)

/-- The postcondition of `/login` and `/user/get/:id`: a `ReadAnswer`, or a refusal without asking
the database. -/
def ReadPost (X : Externals) (cfg : DbConfig) (dbPool : Bool) (i : Nat) (q : Request)
    (before : List (Request × HttpResponse)) (res : HttpResponse) : Assertion := fun qs w =>
  Known dbPool before qs w ∧
    ((∃ id result, readTarget X q = some (id, result) ∧ ReadAnswer cfg i before id
        (fun row => finish X q.http (result [row]).conclude.2) res qs w) ∨
      (res.status ≠ some 200 ∧ ∀ id result, readTarget X q = some (id, result) →
        isValidUuid id = true → dbPool = false))

/-- The postcondition of `/user/register`: an answer 200 carries the id of a committed row. -/
def RegisterPost (dbPool : Bool) (i : Nat) (res : HttpResponse) : Assertion := fun _ w =>
  res.status = some 200 → dbPool = true ∧
    ∃ row ∈ w.log, row.owner = i ∧ res.content = some (.json (userIdJson row.id))

/-- The postcondition of a request. -/
def post (X : Externals) (cfg : DbConfig) (dbPool : Bool) (i : Nat) (q : Request)
    (before : List (Request × HttpResponse)) (res : HttpResponse) : Assertion :=
  match q with
  | .userRegister _ => RegisterPost dbPool i res
  | _ => ReadPost X cfg dbPool i q before res

section lasting

variable {X : Externals} {cfg : DbConfig} {dbPool : Bool} {i : Nat}
  {before : List (Request × HttpResponse)}

theorem lasting_known : Lasting (Known dbPool before) := by
  intro qs w qs' w' hq hlog _ h rq rs hrs hstatus
  obtain ⟨hpool, row, hrow, howner, hcontent⟩ := h rq rs hrs hstatus
  exact ⟨hpool, row, hlog.subset hrow, getElem?_of_prefix hq howner, hcontent⟩

theorem lasting_readAnswer {id : Bytes} {answer : UserRow → HttpResponse} {res : HttpResponse} :
    Lasting (ReadAnswer cfg i before id answer res) := by
  rintro qs w qs' w' hq hlog hthrew (⟨row, hrow, h⟩ | h | ⟨hstatus, h⟩)
  · exact .inl ⟨row, hlog.subset hrow, h⟩
  · exact .inr (.inl h)
  · exact .inr (.inr ⟨hstatus, lasting_threw i hq hlog hthrew h⟩)

theorem lasting_post (q : Request) (res : HttpResponse) :
    Lasting (post X cfg dbPool i q before res) := by
  have hread : Lasting (ReadPost X cfg dbPool i q before res) := by
    rintro qs w qs' w' hq hlog hthrew ⟨hknown, h⟩
    refine ⟨lasting_known hq hlog hthrew hknown, h.imp_left ?_⟩
    rintro ⟨id, result, htarget, hanswer⟩
    exact ⟨id, result, htarget, lasting_readAnswer hq hlog hthrew hanswer⟩
  cases q with
  | login req => exact hread
  | userGetId req => exact hread
  | userRegister req =>
      intro qs w qs' w' _ hlog _ h hstatus
      obtain ⟨hpool, row, hrow, h⟩ := h hstatus
      exact ⟨hpool, row, hlog.subset hrow, h⟩

/-- The committed row of an acknowledged registration. -/
theorem Known.row {qs : List Request} {w : World} (h : Known dbPool before qs w)
    {rq : HttpRequest} {id : Bytes} (hack : Acknowledged before rq id) :
    dbPool = true ∧ ∃ row ∈ w.log, qs[row.owner]? = some (.userRegister rq) ∧ row.id = id := by
  obtain ⟨rs, hrs, hstatus, hcontent⟩ := hack
  obtain ⟨hpool, row, hrow, howner, hcontent'⟩ := h rq rs hrs hstatus
  rw [hcontent'] at hcontent
  simp only [userIdJson, Option.some.injEq, Content.json.injEq, Json.object.injEq,
    List.cons.injEq, Prod.mk.injEq, Json.string.injEq, true_and, and_true] at hcontent
  exact ⟨hpool, row, hrow, howner, hcontent⟩

end lasting

/-! ## The end of a request -/

/-- The status of the final response. -/
theorem finish_status (X : Externals) (req : HttpRequest) (res : HttpResponse) :
    (finish X req res).status = some (res.status.getD 200) := by
  unfold finish
  cases hstatus : res.status with
  | none => rfl
  | some code =>
      simp only [Option.getD_some]
      split
      · exact hstatus
      · rfl

/-- The content of a response whose status was never set. -/
theorem finish_content (X : Externals) (req : HttpRequest) {res : HttpResponse}
    (h : res.status = none) : (finish X req res).content = res.content := by
  simp [finish, h, HttpResponse.setStatus]

section handlers

variable {X : Externals} {cfg : DbConfig} {dbPool : Bool} {i : Nat}
  {before : List (Request × HttpResponse)} {qs : List Request} {w : World}

/-- From a handler to the program of its request. -/
theorem serve_spec {q : Request} {Q : HttpResponse → Assertion}
    (h : wpE (database X cfg) (discipline X cfg) i (fun r => Q (finish X q.http r.2))
      (fun _ => Q (finish X q.http (exceptionHandler .fresh))) (handler X dbPool q) qs w) :
    wp (database X cfg) (discipline X cfg) i Q (serve X dbPool q) qs w := by
  refine wp_bind (wp_mono (fun result qs w hr => ?_) h)
  cases result with
  | ok r => exact hr
  | error what => exact hr

/-! ## `/login` and `/user/get/:id` -/

/-- A handler stops before it asks the database. -/
theorem refused {q : Request} {res : HttpResponse} (hknown : Known dbPool before qs w)
    (hstatus : res.status.getD 200 ≠ 200)
    (htarget : ∀ id result, readTarget X q = some (id, result) → isValidUuid id = true →
      dbPool = false) : ReadPost X cfg dbPool i q before (finish X q.http res) qs w := by
  refine ⟨hknown, .inr ⟨?_, htarget⟩⟩
  rw [finish_status]
  exact fun h => hstatus (Option.some.inj h)

/-- The query of a handler that reads a user, whatever it makes of the rows. -/
theorem read_spec {q : Request} {id : Bytes} {result : List UserRow → TryResult}
    {E : Bytes → Assertion} (hknown : Known dbPool before qs w) (hi : i < qs.length)
    (hheld : w.held i = []) (htarget : readTarget X q = some (id, result))
    (hnil : result [] = .fallsOut false (HttpResponse.fresh.setStatus 404) .null)
    (hcons : ∀ row rows, result (row :: rows) = result [row]) :
    wpE (database X cfg) (discipline X cfg) i
      (fun r => ReadPost X cfg dbPool i q before (finish X q.http r.2)) E
      (tryQuery .fresh (withScopedConnection .replica fun sc =>
        withWork sc do
          let rows ← execSelect sc id
          pure (result rows))) qs w := by
  -- the result comes from a committed row, or nothing was found
  let Q : TryResult → Assertion := fun r _ w =>
    (∃ row ∈ w.log, row.id = toLowercase id ∧ r = result [row]) ∨
      (r = result [] ∧ (cfg.replicas = [] → ¬∃ rq, Acknowledged before rq (toLowercase id)))
  have hQ : ∀ r, Lasting (Q r) := by
    rintro r qs w qs' w' _ hlog _ (⟨row, hrow, h⟩ | h)
    · exact .inl ⟨row, hlog.subset hrow, h⟩
    · exact .inr h
  have hP : Lasting fun qs w => Known dbPool before qs w ∧ i < qs.length :=
    lasting_known.and fun _ _ _ _ hq _ _ hlt => hlt.trans_le hq.length_le
  refine tryQuery_spec (Q := Q) (withScopedConnection_spec hP hQ ⟨hknown, hi⟩ hheld
    (fun _ _ hp => hp.2) fun sc qs w hp hheld hmaster => ?_) ?_ ?_
  · have hcarried := hP.carried.and (carried_held (i := i) [(i, sc)])
    refine withWork_spec hcarried (fun r => (hQ r).carried) ⟨hp, hheld⟩ sc fun qs w hp htx => ?_
    refine Meets.bind (execSelect_spec hcarried hp htx
      (∃ rq, Acknowledged before rq (toLowercase id)) ?_) ?_
    · rintro qs w hp ⟨rq, hack⟩
      obtain ⟨-, row, hrow, -, hid⟩ := hp.1.1.row hack
      exact ⟨row, hrow, hid⟩
    · rintro rows qs w hp ⟨hrows, hfound⟩
      apply Meets.pure hp
      cases rows with
      | nil => exact .inr ⟨rfl, fun hrep hack => hfound (hmaster (.inr hrep)) hack rfl⟩
      | cons row rows =>
          obtain ⟨hrow, hid⟩ := hrows row List.mem_cons_self
          exact .inl ⟨row, hrow, hid, hcons row rows⟩
  · rintro r qs w ⟨⟨hknown, -⟩, -⟩ (⟨row, hrow, hid, rfl⟩ | ⟨rfl, hnone⟩)
    · exact ⟨hknown, .inl ⟨id, result, htarget, .inl ⟨row, hrow, hid, rfl⟩⟩⟩
    · refine ⟨hknown, .inl ⟨id, result, htarget, .inr (.inl ⟨?_, hnone⟩)⟩⟩
      rw [finish_status, hnil]
      rfl
  · rintro what qs w ⟨⟨hknown, -⟩, -⟩ hthrew
    refine ⟨hknown, .inl ⟨id, result, htarget, .inr (.inr ⟨?_, hthrew⟩)⟩⟩
    rw [finish_status]
    rfl

/-- The two members a login needs, read off its body. -/
theorem credentials_eq_some {req : HttpRequest} {json : Json} (hparse : X.parse req.body = .ok json)
    {id pwd : Bytes} : credentials X req = some (id, pwd) ↔
      json.text (str "id") = some id ∧ json.text (str "password") = some pwd := by
  simp [credentials, hparse, Option.bind_eq_some_iff]

/-- `App::login_handler`. -/
theorem loginHandler_spec {req : HttpRequest} (hknown : Known dbPool before qs w)
    (hi : i < qs.length) (hheld : w.held i = []) :
    wpE (database X cfg) (discipline X cfg) i
      (fun r => ReadPost X cfg dbPool i (.login req) before (finish X req r.2))
      (fun _ => ReadPost X cfg dbPool i (.login req) before
        (finish X req (exceptionHandler .fresh)))
      (loginHandler X dbPool req .fresh) qs w := by
  have htarget : ∀ id result, readTarget X (.login req) = some (id, result) →
      ∃ pwd, credentials X req = some (id, pwd) := by
    intro id result h
    obtain ⟨⟨id', pwd⟩, hc, he⟩ := Option.map_eq_some_iff.mp h
    cases he
    exact ⟨pwd, hc⟩
  unfold loginHandler loginHandlerWith
  cases hparse : X.parse req.body with
  | error what =>
      refine wpE_throw (refused hknown (by decide) fun id result h _ => ?_)
      obtain ⟨pwd, hc⟩ := htarget id result h
      simp only [credentials, hparse, reduceCtorEq] at hc
  | ok json =>
      have hfields : ∀ id result, readTarget X (.login req) = some (id, result) →
          (json.contains (str "id") = true ∧ (json.member (str "id")).isString = true ∧
            (json.member (str "id")).getString = id) ∧
          json.contains (str "password") = true ∧
            (json.member (str "password")).isString = true := by
        intro id result h
        obtain ⟨pwd, hc⟩ := htarget id result h
        obtain ⟨hid, hpwd⟩ := (credentials_eq_some hparse).mp hc
        obtain ⟨hpwd, hpwd', -⟩ := Json.of_text hpwd
        exact ⟨Json.of_text hid, hpwd, hpwd'⟩
      simp only
      split_ifs with hcontains hstring hvalid hpool
      · refine wpE_pure (refused hknown (by decide) fun id result h _ => ?_)
        obtain ⟨⟨hid, -⟩, hpwd, -⟩ := hfields id result h
        simp [hid, hpwd] at hcontains
      · refine wpE_pure (refused hknown (by decide) fun id result h _ => ?_)
        obtain ⟨⟨-, hid, -⟩, -, hpwd⟩ := hfields id result h
        simp [hid, hpwd] at hstring
      · refine wpE_pure (refused hknown (by decide) fun id result h hv => ?_)
        obtain ⟨⟨-, -, hid⟩, -⟩ := hfields id result h
        simp [hid, hv] at hvalid
      · exact wpE_pure (refused hknown (by decide) fun _ _ _ _ => by simpa using hpool)
      · simp only [Bool.or_eq_true, Bool.not_eq_true', not_or, Bool.not_eq_false] at hstring
        refine read_spec hknown hi hheld ?_ rfl fun _ _ => rfl
        have hc := (credentials_eq_some hparse).mpr
          ⟨Json.text_eq hstring.1, Json.text_eq hstring.2⟩
        simp only [readTarget, hc, Option.map_some]

/-- `App::user_get_id_handler`. -/
theorem userGetIdHandler_spec {req : HttpRequest} (hknown : Known dbPool before qs w)
    (hi : i < qs.length) (hheld : w.held i = []) {E : Bytes → Assertion} :
    wpE (database X cfg) (discipline X cfg) i
      (fun r => ReadPost X cfg dbPool i (.userGetId req) before (finish X req r.2)) E
      (userGetIdHandler dbPool req .fresh) qs w := by
  unfold userGetIdHandler userGetIdHandlerWith
  cases hparam : req.pathParam (str "id") with
  | none =>
      refine wpE_pure (refused hknown (by decide) fun id result h _ => ?_)
      simp only [readTarget, hparam, Option.map_none, reduceCtorEq] at h
  | some id =>
      have htarget : readTarget X (.userGetId req) = some (id, getResult id .fresh) := by
        simp only [readTarget, hparam, Option.map_some]
      simp only
      split_ifs with hvalid hpool
      · refine wpE_pure (refused hknown (by decide) fun id' result h hv => ?_)
        rw [htarget] at h
        cases h
        simp [hv] at hvalid
      · exact wpE_pure (refused hknown (by decide) fun _ _ _ _ => by simpa using hpool)
      · exact read_spec hknown hi hheld htarget rfl fun _ _ => rfl

/-! ## `/user/register` -/

/-- `App::user_register_handler`. -/
theorem userRegisterHandler_spec {req : HttpRequest} (hreq : qs[i]? = some (.userRegister req))
    (hheld : w.held i = []) :
    wpE (database X cfg) (discipline X cfg) i
      (fun r => RegisterPost dbPool i (finish X req r.2))
      (fun _ => RegisterPost dbPool i (finish X req (exceptionHandler .fresh)))
      (userRegisterHandler X dbPool req .fresh) qs w := by
  have hrefused : ∀ {res : HttpResponse} {qs w}, res.status.getD 200 ≠ 200 →
      RegisterPost dbPool i (finish X req res) qs w := by
    intro res qs w hstatus h
    rw [finish_status] at h
    exact absurd (Option.some.inj h) hstatus
  unfold userRegisterHandler userRegisterHandlerWith
  cases hparse : X.parse req.body with
  | error what => exact wpE_throw (hrefused (by decide))
  | ok json =>
      simp only
      split_ifs with hcontains hstring hlength hdate hpool
      · exact wpE_pure (hrefused (by decide))
      · exact wpE_pure (hrefused (by decide))
      · exact wpE_pure (hrefused (by decide))
      · exact wpE_pure (hrefused (by decide))
      · exact wpE_pure (hrefused (by decide))
      · have hreg : registration X req = some
            ⟨(json.member (str "password")).getString, (json.member (str "first_name")).getString,
              (json.member (str "second_name")).getString,
              (json.member (str "biography")).getString,
              (json.member (str "city")).getString⟩ := by
          simp only [registerFields, List.any_cons, List.any_nil, Bool.or_false, Bool.or_eq_true,
            Bool.not_eq_true', not_or, Bool.not_eq_false] at hstring
          obtain ⟨hpwd, hfname, hsname, -, hbio, hcity⟩ := hstring
          simp only [registration, hparse, Json.registration, Json.text_eq hpwd,
            Json.text_eq hfname, Json.text_eq hsname, Json.text_eq hbio, Json.text_eq hcity]
          rfl
        have hP : Lasting fun qs _ => qs[i]? = some (Request.userRegister req) :=
          lasting_request i _
        -- the result is the id of a row that was committed
        let Q : TryResult → Assertion := fun r _ w =>
          ∃ row ∈ w.log, row.owner = i ∧ r = .fallsOut true .fresh (userIdJson row.id)
        have hQ : ∀ r, Lasting (Q r) := fun r qs w qs' w' _ hlog _ ⟨row, hrow, h⟩ =>
          ⟨row, hlog.subset hrow, h⟩
        refine tryQuery_spec (Q := Q) (Meets.bind (generateHash_spec
          (hP.carried.and (carried_held [])) ⟨hreq, hheld⟩ _ 12) ?_) ?_ ?_
        · rintro hash qs w ⟨hreq, hheld⟩ ⟨salt, hhash⟩
          refine withScopedConnection_spec hP hQ hreq hheld
            (fun qs w hp => (List.getElem?_eq_some_iff.mp hp).1) fun sc qs w hp hheld hmaster => ?_
          have hcarried := hP.carried.and (carried_held (i := i) [(i, sc)])
          refine withWork_spec hcarried (fun r => (hQ r).carried) ⟨hp, hheld⟩ sc
            fun qs w hp htx => ?_
          refine Meets.bind (execInsert_spec hcarried hp htx (hmaster (.inl rfl)) fun qs w hp =>
            ⟨req, _, salt, hp.1, hreg, rfl, rfl, rfl, rfl, hhash⟩) ?_
          rintro ids qs w hp ⟨row, rfl, howner, htx⟩
          refine Meets.bind (commit_spec hcarried hp htx) fun _ qs w hp hlog => ?_
          exact Meets.pure hp ⟨row, hlog, howner, rfl⟩
        · rintro r qs w - ⟨row, hrow, howner, rfl⟩ -
          refine ⟨by simpa using hpool, row, hrow, howner, ?_⟩
          exact finish_content X req rfl
        · rintro what qs w - -
          exact hrefused (show (500 : Nat) ≠ 200 by decide)

end handlers

end SocialNetwork.App
