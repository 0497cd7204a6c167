import SocialNetwork.App.Metrics

/-!
# How the handlers end

The handlers under arbitrary answers of the pool and the database: the parser throws, the request is
refused, there is no pool, or the `try` block has run, with a result that depends on what the
statements gave (`handled_eq`). In each case the return value agrees with the status that has been set
(`agrees_called`).
-/

namespace SocialNetwork.App

open Foundation Helpers Pool

/-! ## How the handlers end -/

section answers

variable (db : (e : Op) → e.Result)

/-- The answer to `ScopedConnection(db_pool_, preferred)`. -/
def gotConnection (preferred : NodeType) : Except Bytes ScopedConnection :=
  db (.getConnection preferred)

/-- The answer to `pqxx::work tx(…)`. -/
def begunWork (sc : ScopedConnection) : Except Bytes Unit := db (.beginWork sc)

/-- The answer to the `SELECT`. -/
def selected (sc : ScopedConnection) (id : Bytes) : Except Bytes (List UserRow) := db (.select sc id)

/-- The answer to the `INSERT`. -/
def insertedIds (sc : ScopedConnection) (columns : UserColumns) : Except Bytes (List Bytes) :=
  db (.insert sc columns)

/-- The answer to `tx.commit()`. -/
def committed : Except Bytes Unit := db .commit

/-- The answer to `BCrypt::generateHash`. -/
def hashed (pwd : Bytes) (workload : Nat) : Except Bytes Bytes := db (.generateHash pwd workload)

/-- The rows of the `SELECT` of a handler that reads by id. -/
def readRows (id : Bytes) : Except Bytes (List UserRow) := do
  let sc ← gotConnection db .replica
  begunWork db sc
  selected db sc id

/-- The ids of the `INSERT` of a registration that is committed. -/
def registerIds (pwd : Bytes) (columns : Bytes → UserColumns) : Except Bytes (List Bytes) := do
  let hashedPwd ← hashed db pwd 12
  let sc ← gotConnection db .master
  begunWork db sc
  let ids ← insertedIds db sc (columns hashedPwd)
  committed db
  return ids

/-- The answer to the `SELECT … LIKE`. -/
def searched (answers : Answers) (sc : ScopedConnection) (firstName secondName : Bytes) :
    Except Bytes (List UserRow) :=
  answers (.search sc firstName secondName)

/-- The rows of a search. -/
def searchRows (answers : Answers) (firstName secondName : Bytes) : Except Bytes (List UserRow) := do
  let sc ← gotConnection answers.db .replica
  begunWork answers.db sc
  searched answers sc firstName secondName

/-- How a `try` block ends whose statements give `rows` or throw. -/
def queried {α : Type} (result : α → TryResult) (rows : Except Bytes α) : TryResult :=
  match rows with
  | .ok rows => result rows
  | .error what => .fallsOut false (HttpResponse.fresh.setStatus 500)
      (errorJson 500 (str "Error SQL: " ++ what))

/-- A block with a connection: what the pool answers, then the block. -/
theorem evalE_withScopedConnection {α : Type} (preferred : NodeType)
    (body : ScopedConnection → DbM α) :
    Program.evalE db (withScopedConnection preferred body) =
      gotConnection db preferred >>= fun sc => Program.evalE db (body sc) :=
  (Program.evalE_bind db _ _).trans
    (congrArg (Except.bind (gotConnection db preferred))
      (funext fun _ => Program.evalE_andFinally db _ _))

/-- A block with a transaction: what `BEGIN` answers, then the block. -/
theorem evalE_withWork {α : Type} (sc : ScopedConnection) (body : DbM α) :
    Program.evalE db (withWork sc body) =
      begunWork db sc >>= fun _ => Program.evalE db body :=
  (Program.evalE_bind db _ _).trans
    (congrArg (Except.bind (begunWork db sc)) (funext fun _ => Program.evalE_andFinally db _ _))

/-- A handler whose block makes a result of rows. -/
theorem evalE_tryQuery {E : Type} {R : E → Type} (answer : (e : E) → R e) {α : Type}
    {block : ExceptT Bytes (Program R) TryResult} {rows : Except Bytes α} {result : α → TryResult}
    (h : Program.evalE answer block = rows >>= fun a => pure (result a)) :
    Program.evalE answer (tryQuery .fresh block) = .ok (queried result rows).conclude := by
  rw [tryQuery, Program.evalE_bind, Program.evalE_tryCatch, h]
  cases rows <;> rfl

/-- A handler that reads by id ends with what it makes of the rows. -/
theorem evalE_read (id : Bytes) (result : List UserRow → TryResult) :
    Program.evalE db (tryQuery .fresh (withScopedConnection .replica fun sc =>
      withWork sc do
        let rows ← execSelect sc id
        pure (result rows))) = .ok (queried result (readRows db id)).conclude := by
  apply evalE_tryQuery db
  have hselect : ∀ sc, Program.evalE db (do
      let rows ← execSelect sc id
      pure (result rows)) = selected db sc id >>= fun rows => pure (result rows) :=
    fun _ => Program.evalE_bind db _ _
  rw [evalE_withScopedConnection]
  simp only [evalE_withWork, hselect, readRows, bind_assoc]

/-- The `try` block of a registration ends with what it makes of the ids. -/
theorem evalE_register (pwd fname sname : Bytes) (columns : Bytes → UserColumns) :
    Program.evalE db (tryQuery .fresh do
      let hashedPwd ← generateHash pwd 12
      withScopedConnection .master fun sc =>
        withWork sc do
          let result ← execInsert sc (columns hashedPwd)
          commit
          pure (registerResult fname sname .fresh result)) =
      .ok (queried (registerResult fname sname .fresh) (registerIds db pwd columns)).conclude := by
  apply evalE_tryQuery db
  have hblock : ∀ (sc : ScopedConnection) (hashedPwd : Bytes), Program.evalE db (do
      let result ← execInsert sc (columns hashedPwd)
      commit
      pure (registerResult fname sname .fresh result)) =
      insertedIds db sc (columns hashedPwd) >>= fun ids => committed db >>= fun _ =>
        pure (registerResult fname sname .fresh ids) := by
    intro sc hashedPwd
    refine (Program.evalE_bind db _ _).trans (congrArg (Except.bind _) (funext fun ids => ?_))
    exact Program.evalE_bind db _ _
  apply (Program.evalE_bind db _ _).trans
  simp only [evalE_withScopedConnection, evalE_withWork, hblock, registerIds, bind_assoc, pure_bind]
  rfl

end answers

/-- A search with both parameters ends with what it makes of the rows. -/
theorem evalE_search (answers : Answers) {req : SearchRequest}
    (hparams : req.hasParam (str "first_name") = true ∧ req.hasParam (str "last_name") = true) :
    Program.evalE answers (userSearchHandler true req .fresh) =
      .ok (queried (searchResult .fresh) (searchRows answers
        (req.getParamValue (str "first_name") ++ str "%")
        (req.getParamValue (str "last_name") ++ str "%"))).conclude := by
  rw [userSearchHandler, userSearchHandlerWith, if_neg (by simp [hparams.1, hparams.2]),
    if_neg (by simp)]
  dsimp only
  have hblock : Program.evalE answers (do
      let sc ← SearchM.getConnection .replica
      Program.andFinally (do
        SearchM.beginWork sc
        Program.andFinally (do
          let result ← SearchM.execSearch sc (req.getParamValue (str "first_name") ++ str "%")
            (req.getParamValue (str "last_name") ++ str "%")
          pure (searchResult .fresh result)) (Program.call (SearchOp.db .endWork)))
        (Program.call (SearchOp.db (.release sc)))) =
      searchRows answers (req.getParamValue (str "first_name") ++ str "%")
        (req.getParamValue (str "last_name") ++ str "%") >>= fun rows =>
          pure (searchResult .fresh rows) := by
    apply (Program.evalE_bind answers _ _).trans
    rw [searchRows, bind_assoc]
    refine congrArg (Except.bind _) (funext fun sc => ?_)
    apply ((Program.evalE_andFinally answers _ _).trans (Program.evalE_bind answers _ _)).trans
    refine Eq.trans ?_ (bind_assoc (begunWork answers.db sc) _ _).symm
    refine congrArg (Except.bind _) (funext fun _ => ?_)
    exact (Program.evalE_andFinally answers _ _).trans (Program.evalE_bind answers _ _)
  exact evalE_tryQuery answers hblock

/-! ### Endings -/

/-- `login_handler` asks the database: the id and the password are texts, and the id is a UUID. -/
def loginChecked (json : Json) : Bool :=
  json.contains (str "id") && json.contains (str "password") &&
    (json.member (str "id")).isString && (json.member (str "password")).isString &&
    isValidUuid (json.member (str "id")).getString

/-- `user_register_handler` asks the database: the members are texts, the password is long enough and
the birth date is one. -/
def registerChecked (json : Json) : Bool :=
  (registerFields.all fun key => json.contains key) &&
    (registerFields.all fun key => (json.member key).isString) &&
    decide (8 ≤ (json.member (str "password")).getString.length) &&
    !((getTime (json.member (str "birthdate")).getString).all fun year => year < 0 || 107 < year)

/-- How a handler ends: the parser throws, the request is refused with 400, there is no pool, or the
`try` block has run. -/
inductive Ending
  | malformed
  | refused
  | unavailable (handler : Bytes)
  | asked (result : TryResult)

/-- The columns of the row that a registration inserts. -/
def registerColumns (json : Json) (hashedPwd : Bytes) : UserColumns where
  firstName := (json.member (str "first_name")).getString
  secondName := (json.member (str "second_name")).getString
  birthdate := (json.member (str "birthdate")).getString
  biography := (json.member (str "biography")).getString
  city := (json.member (str "city")).getString
  pwdHash := hashedPwd

section endings

variable (X : Externals) (dbPool : Bool) (answers : Answers)

/-- A request that passed the checks of its handler. -/
def Ending.ofChecked (handler : Bytes) (result : TryResult) : Ending :=
  if dbPool then .asked result else .unavailable handler

/-- The ending of a request. -/
def ending : Dispatch → Ending
  | .login req => match X.parse req.body with
      | .error _ => .malformed
      | .ok json =>
          if loginChecked json then
            .ofChecked dbPool (str "login_handler")
              (queried (loginResult X (json.member (str "password")).getString .fresh)
                (readRows answers.db (json.member (str "id")).getString))
          else .refused
  | .userRegister req => match X.parse req.body with
      | .error _ => .malformed
      | .ok json =>
          if registerChecked json then
            .ofChecked dbPool (str "user_register_handler")
              (queried (registerResult (json.member (str "first_name")).getString
                (json.member (str "second_name")).getString .fresh)
                (registerIds answers.db (json.member (str "password")).getString
                  (registerColumns json)))
          else .refused
  | .userGetId req => match req.pathParam (str "id") with
      | none => .refused
      | some id =>
          if isValidUuid id then
            .ofChecked dbPool (str "user_get_id_handler")
              (queried (getResult id .fresh) (readRows answers.db id))
          else .refused
  | .userSearch req =>
      if req.hasParam (str "first_name") && req.hasParam (str "last_name") then
        .ofChecked dbPool (str "user_search_handler")
          (queried (searchResult .fresh) (searchRows answers
            (req.getParamValue (str "first_name") ++ str "%")
            (req.getParamValue (str "last_name") ++ str "%")))
      else .refused

/-- The value of a handler that ends so. -/
def Ending.value : Ending → Option (Bool × HttpResponse)
  | .malformed => none
  | .refused => some (false, HttpResponse.fresh.setStatus 400)
  | .unavailable handler => some (false, (HttpResponse.fresh.setStatus 503).setJson (errorJson 503
      (str "Server Error: " ++ handler ++ str ": there is no connection to DB")))
  | .asked result => some result.conclude

/-- `login_handler` ends so. -/
theorem handled_login (req : HttpRequest) : (handled X dbPool answers (.login req)).toOption =
    (ending X dbPool answers (.login req)).value := by
  simp only [handled, ending, loginHandler, loginHandlerWith]
  cases X.parse req.body with
  | error what => rfl
  | ok json =>
      dsimp only
      by_cases hchecked : loginChecked json = true
      · rw [if_pos hchecked]
        simp only [loginChecked, Bool.and_eq_true] at hchecked
        obtain ⟨⟨⟨⟨hid, hpwd⟩, hidText⟩, hpwdText⟩, huuid⟩ := hchecked
        rw [if_neg (by simp [hid, hpwd]), if_neg (by simp [hidText, hpwdText]),
          if_neg (by simp [huuid])]
        cases dbPool with
        | false => rfl
        | true => exact congrArg Except.toOption (evalE_read _ _ _)
      · rw [if_neg hchecked]
        split_ifs with hcontains hstring huuid
        · rfl
        · rfl
        · rfl
        all_goals exact absurd (by simp_all [loginChecked]) hchecked

/-- `user_register_handler` ends so. -/
theorem handled_userRegister (req : HttpRequest) :
    (handled X dbPool answers (.userRegister req)).toOption =
      (ending X dbPool answers (.userRegister req)).value := by
  simp only [handled, ending, userRegisterHandler, userRegisterHandlerWith]
  cases X.parse req.body with
  | error what => rfl
  | ok json =>
      dsimp only
      by_cases hchecked : registerChecked json = true
      · rw [if_pos hchecked]
        simp only [registerChecked, Bool.and_eq_true, List.all_eq_true, Bool.not_eq_true',
          decide_eq_true_eq] at hchecked
        obtain ⟨⟨⟨hcontains, hstring⟩, hlength⟩, hdate⟩ := hchecked
        rw [if_neg (by simpa using hcontains), if_neg (by simpa using hstring),
          if_neg (by omega), if_neg (by simp [hdate])]
        cases dbPool with
        | false => rfl
        | true => exact congrArg Except.toOption (evalE_register _ _ _ _ (registerColumns json))
      · rw [if_neg hchecked]
        split_ifs with hcontains hstring hlength hdate
        · rfl
        · rfl
        · rfl
        · rfl
        all_goals
          refine absurd ?_ hchecked
          simp only [List.any_eq_true, Bool.not_eq_true', not_exists, not_and,
            Bool.not_eq_false] at hcontains hstring
          simp only [registerChecked, Bool.and_eq_true, List.all_eq_true, Bool.not_eq_true',
            decide_eq_true_eq]
          exact ⟨⟨⟨hcontains, hstring⟩, by omega⟩, by simpa using hdate⟩

/-- `user_get_id_handler` ends so. -/
theorem handled_userGetId (req : HttpRequest) :
    (handled X dbPool answers (.userGetId req)).toOption =
      (ending X dbPool answers (.userGetId req)).value := by
  simp only [handled, ending, userGetIdHandler, userGetIdHandlerWith]
  cases req.pathParam (str "id") with
  | none => rfl
  | some id =>
      dsimp only
      by_cases huuid : isValidUuid id = true
      · rw [if_pos huuid, if_neg (by simp [huuid])]
        cases dbPool with
        | false => rfl
        | true => exact congrArg Except.toOption (evalE_read _ _ _)
      · rw [if_neg huuid, if_pos (by simpa using huuid)]
        rfl

/-- `user_search_handler` ends so. -/
theorem handled_userSearch (req : SearchRequest) :
    (handled X dbPool answers (.userSearch req)).toOption =
      (ending X dbPool answers (.userSearch req)).value := by
  simp only [handled, ending]
  by_cases hparams : (req.hasParam (str "first_name") && req.hasParam (str "last_name")) = true
  · rw [if_pos hparams]
    rw [Bool.and_eq_true] at hparams
    cases dbPool with
    | false =>
        rw [userSearchHandler, userSearchHandlerWith, if_neg (by simp [hparams.1, hparams.2]),
          if_pos (by simp)]
        rfl
    | true => exact congrArg Except.toOption (evalE_search answers hparams)
  · rw [if_neg hparams, userSearchHandler, userSearchHandlerWith,
      if_pos (by simpa [Bool.and_eq_true, ← Bool.not_and] using hparams)]
    rfl

/-- **A request is handled as its ending says.** -/
theorem handled_eq (q : Dispatch) : (handled X dbPool answers q).toOption =
    (ending X dbPool answers q).value := by
  cases q with
  | login req => exact handled_login X dbPool answers req
  | userRegister req => exact handled_userRegister X dbPool answers req
  | userGetId req => exact handled_userGetId X dbPool answers req
  | userSearch req => exact handled_userSearch X dbPool answers req

end endings

/-! ## Return values and statuses -/

/-- A handler returns `true` and leaves the status unset, or returns `false` and sets the status of an
error. -/
def Agrees (result : Bool × HttpResponse) : Prop :=
  if result.1 then result.2.status = none else ∃ code, result.2.status = some code ∧ 400 ≤ code

/-- The return value of a login agrees with its status. -/
theorem agrees_conclude_login (X : Externals) (pwd : Bytes) (rows : List UserRow) :
    Agrees (loginResult X pwd .fresh rows).conclude := by
  cases rows with
  | nil => exact ⟨404, rfl, by decide⟩
  | cons row rows =>
      rw [loginResult]
      split
      · exact rfl
      · exact ⟨400, rfl, by decide⟩

/-- The return value of a registration agrees with its status. -/
theorem agrees_conclude_register (fname sname : Bytes) (ids : List Bytes) :
    Agrees (registerResult fname sname .fresh ids).conclude := by
  cases ids with
  | nil => exact ⟨500, rfl, by decide⟩
  | cons id ids => exact rfl

/-- The return value of a profile agrees with its status. -/
theorem agrees_conclude_get (id : Bytes) (rows : List UserRow) :
    Agrees (getResult id .fresh rows).conclude := by
  cases rows with
  | nil => exact ⟨404, rfl, by decide⟩
  | cons row rows => exact rfl

/-- The return value of a search agrees with its status. -/
theorem agrees_conclude_search (rows : List UserRow) :
    Agrees (searchResult .fresh rows).conclude := rfl

/-- An exception of the block becomes an error. -/
theorem agrees_conclude_queried {α : Type} {result : α → TryResult}
    (h : ∀ a, Agrees (result a).conclude) (rows : Except Bytes α) :
    Agrees (queried result rows).conclude := by
  cases rows with
  | ok a => exact h a
  | error what => exact ⟨500, rfl, by decide⟩

/-- A checked request agrees if its result does. -/
theorem agrees_ofChecked {dbPool : Bool} {handler : Bytes} {result : TryResult}
    (h : Agrees result.conclude) :
    ∀ r ∈ (Ending.ofChecked dbPool handler result).value, Agrees r := by
  intro r hr
  cases dbPool with
  | false =>
      obtain rfl := Option.some.inj hr
      exact ⟨503, rfl, by decide⟩
  | true =>
      obtain rfl := Option.some.inj hr
      exact h

/-- The return value of a refused request agrees with its status. -/
theorem agrees_refused : ∀ r ∈ Ending.refused.value, Agrees r := by
  intro r hr
  obtain rfl := Option.some.inj hr
  exact ⟨400, rfl, by decide⟩

section agreement

variable (X : Externals) (dbPool : Bool)

/-- **The Boolean of a handler agrees with its status.** -/
theorem agrees_ending (answers : Answers) (q : Dispatch) :
    ∀ r ∈ (ending X dbPool answers q).value, Agrees r := by
  cases q with
  | login req =>
      rw [ending]
      cases X.parse req.body with
      | error what => exact fun r hr => by cases hr
      | ok json =>
          dsimp only
          split
          · exact agrees_ofChecked (agrees_conclude_queried (agrees_conclude_login X _) _)
          · exact agrees_refused
  | userRegister req =>
      rw [ending]
      cases X.parse req.body with
      | error what => exact fun r hr => by cases hr
      | ok json =>
          dsimp only
          split
          · exact agrees_ofChecked (agrees_conclude_queried (agrees_conclude_register _ _) _)
          · exact agrees_refused
  | userGetId req =>
      rw [ending]
      cases req.pathParam (str "id") with
      | none => exact agrees_refused
      | some id =>
          dsimp only
          split
          · exact agrees_ofChecked (agrees_conclude_queried (agrees_conclude_get id) _)
          · exact agrees_refused
  | userSearch req =>
      rw [ending]
      split
      · exact agrees_ofChecked (agrees_conclude_queried agrees_conclude_search _)
      · exact agrees_refused

/-- A request whose handler returns agrees. -/
theorem agrees_called {q : Dispatch} {answers : Answers} {r : Bool × HttpResponse}
    (h : called X dbPool q answers = .ok r) : Agrees r := by
  have hvalue := handled_eq X dbPool answers q
  unfold called at h
  cases hhandled : handled X dbPool answers q with
  | error what => rw [hhandled] at h; cases h
  | ok result =>
      rw [hhandled] at h hvalue
      have hresult := agrees_ending X dbPool answers q result hvalue.symm
      unfold dumped at h
      dsimp only at h
      split at h
      · split at h
        · obtain rfl := Except.ok.inj h
          exact hresult
        · cases h
      · obtain rfl := Except.ok.inj h
        exact hresult

end agreement

end SocialNetwork.App
