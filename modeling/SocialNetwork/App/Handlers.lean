import SocialNetwork.App.Database

/-!
# The handlers of `/login`, `/user/register` and `/user/get/:id`

`App::login_handler`, `App::user_register_handler` and `App::user_get_id_handler`, branch by
branch, as programs over the operations of `Database.lean`; an exception is an `ExceptT` error.
The Boolean of a handler is its return value, which only the metrics look at. Logging and metrics
are left out.

The three handlers end alike, and share `tryQuery` (the `try … catch` and the `set_content` after
it), `withScopedConnection` and `withWork` (the two local variables with a destructor). Here
`res.set_content(response.dump(), …)` always returns; `Metrics.lean` adds the exception that `dump`
throws at a text that is not UTF-8 (`dumped`).

Each handler comes in two parts, what its `try` block does and what stands around it (`loginHandlerWith`
and the like), so that the block can also be written over more operations.
-/

namespace SocialNetwork.App

open Foundation Helpers Pool

/-- A piece of a handler: it calls the pool and the database, and may throw. -/
abbrev DbM := ExceptT Bytes (Program Op.Result)

/-! ## Calls -/

/-- `BCrypt::generateHash(pwd, workload)`. -/
def generateHash (pwd : Bytes) (workload : Nat) : DbM Bytes :=
  ExceptT.mk (Program.call (Op.generateHash pwd workload))

/-- `tx.exec` of the `INSERT … RETURNING id`. -/
def execInsert (sc : ScopedConnection) (columns : UserColumns) : DbM (List Bytes) :=
  ExceptT.mk (Program.call (Op.insert sc columns))

/-- `tx.exec` of a `SELECT … WHERE id = $1`. -/
def execSelect (sc : ScopedConnection) (id : Bytes) : DbM (List UserRow) :=
  ExceptT.mk (Program.call (Op.select sc id))

/-- `tx.commit()`. -/
def commit : DbM Unit := ExceptT.mk (Program.call Op.commit)

/-- A block that begins with `ScopedConnection scoped_conn(db_pool_, preferred)`. -/
def withScopedConnection {α : Type} (preferred : NodeType) (body : ScopedConnection → DbM α) :
    DbM α := do
  let sc ← (ExceptT.mk (Program.call (Op.getConnection preferred)) : DbM ScopedConnection)
  Program.andFinally (body sc) (Program.call (Op.release sc))

/-- A block that begins with `pqxx::work tx(*scoped_conn.conn.get())`. -/
def withWork {α : Type} (sc : ScopedConnection) (body : DbM α) : DbM α := do
  (ExceptT.mk (Program.call (Op.beginWork sc)) : DbM Unit)
  Program.andFinally body (Program.call Op.endWork)

/-! ## The common end of the handlers -/

/-- `{{"code", code}, {"message", message}}`. -/
def errorJson (code : Nat) (message : Bytes) : Json :=
  .object [(str "code", .number code), (str "message", .string message)]

/-- How a `try` block is left: by `return ok`, or at its end. -/
inductive TryResult
  | returned (ok : Bool) (res : HttpResponse)
  | fallsOut (ok : Bool) (res : HttpResponse) (response : Json)

/-- What follows the `try` block: `set_content` and `return ok`. -/
def TryResult.conclude : TryResult → Bool × HttpResponse
  | .returned ok res => (ok, res)
  | .fallsOut ok res response => (ok, res.setJson response)

section common

variable {E : Type} {R : E → Type}

/-- The `try` block, its `catch`, and what follows. The block has not set the status when it
throws. -/
def tryQuery (res : HttpResponse) (block : ExceptT Bytes (Program R) TryResult) :
    ExceptT Bytes (Program R) (Bool × HttpResponse) := do
  let result ← tryCatch block fun what =>
    pure (.fallsOut false (res.setStatus 500) (errorJson 500 (str "Error SQL: " ++ what)))
  pure result.conclude

/-- A handler that stops before the database is asked, at a bad request. -/
def badRequest (res : HttpResponse) : ExceptT Bytes (Program R) (Bool × HttpResponse) :=
  pure (false, res.setStatus 400)

/-- A handler that stops because `db_pool_` is null. -/
def unavailable (handler : Bytes) (res : HttpResponse) :
    ExceptT Bytes (Program R) (Bool × HttpResponse) :=
  pure (false, (res.setStatus 503).setJson (errorJson 503
    (str "Server Error: " ++ handler ++ str ": there is no connection to DB")))

end common

/-! ## `App::login_handler` -/

/-- `{{"token", row_id}}`. -/
def tokenJson (id : Bytes) : Json := .object [(str "token", .string id)]

/-- What `login_handler` makes of the rows. -/
def loginResult (X : Externals) (pwd : Bytes) (res : HttpResponse) : List UserRow → TryResult
  | [] => .fallsOut false (res.setStatus 404) .null
  | row :: _ =>
      if X.validatePassword pwd row.pwdHash then .fallsOut true res (tokenJson row.id)
      else .returned false (res.setStatus 400)

/-- `App::login_handler`, around what its `try` block does with the id and the password. -/
def loginHandlerWith {E : Type} {R : E → Type} (X : Externals) (dbPool : Bool) (req : HttpRequest)
    (res : HttpResponse) (block : Bytes → Bytes → ExceptT Bytes (Program R) TryResult) :
    ExceptT Bytes (Program R) (Bool × HttpResponse) :=
  match X.parse req.body with
  | .error what => throw what
  | .ok json =>
      if !json.contains (str "id") || !json.contains (str "password") then
        badRequest res
      else if !(json.member (str "id")).isString || !(json.member (str "password")).isString then
        badRequest res
      else if !isValidUuid (json.member (str "id")).getString then
        badRequest res
      else if !dbPool then
        unavailable (str "login_handler") res
      else
        let id := (json.member (str "id")).getString
        let pwd := (json.member (str "password")).getString
        tryQuery res (block id pwd)

/-- `App::login_handler`. -/
def loginHandler (X : Externals) (dbPool : Bool) (req : HttpRequest) (res : HttpResponse) :
    DbM (Bool × HttpResponse) :=
  loginHandlerWith X dbPool req res fun id pwd =>
    withScopedConnection .replica fun sc =>
      withWork sc do
        let result ← execSelect sc id
        pure (loginResult X pwd res result)

/-! ## `App::user_register_handler` -/

/-- The members `user_register_handler` asks for. -/
def registerFields : List Bytes :=
  [str "password", str "first_name", str "second_name", str "birthdate", str "biography",
    str "city"]

/-- `{{"user_id", row_id}}`. -/
def userIdJson (id : Bytes) : Json := .object [(str "user_id", .string id)]

/-- What `user_register_handler` makes of the ids that the `INSERT` returns. -/
def registerResult (fname sname : Bytes) (res : HttpResponse) : List Bytes → TryResult
  | [] => .fallsOut false (res.setStatus 500) (errorJson 500
      (str "Can't register user '" ++ fname ++ str " " ++ sname ++ str "'"))
  | rowId :: _ => .fallsOut true res (userIdJson rowId)

/-- `App::user_register_handler`, around what its `try` block does with the password, the names, the
birth date, the biography and the city. -/
def userRegisterHandlerWith {E : Type} {R : E → Type} (X : Externals) (dbPool : Bool)
    (req : HttpRequest) (res : HttpResponse)
    (block : Bytes → Bytes → Bytes → Bytes → Bytes → Bytes → ExceptT Bytes (Program R) TryResult) :
    ExceptT Bytes (Program R) (Bool × HttpResponse) :=
  match X.parse req.body with
  | .error what => throw what
  | .ok json =>
      if registerFields.any fun key => !json.contains key then
        badRequest res
      else if registerFields.any fun key => !(json.member key).isString then
        badRequest res
      else if (json.member (str "password")).getString.length < 8 then
        badRequest res
      else if (getTime (json.member (str "birthdate")).getString).all
          fun year => year < 0 || 107 < year then
        badRequest res
      else if !dbPool then
        unavailable (str "user_register_handler") res
      else
        let pwd := (json.member (str "password")).getString
        let fname := (json.member (str "first_name")).getString
        let sname := (json.member (str "second_name")).getString
        let bdate := (json.member (str "birthdate")).getString
        let bio := (json.member (str "biography")).getString
        let city := (json.member (str "city")).getString
        tryQuery res (block pwd fname sname bdate bio city)

/-- `App::user_register_handler`. -/
def userRegisterHandler (X : Externals) (dbPool : Bool) (req : HttpRequest) (res : HttpResponse) :
    DbM (Bool × HttpResponse) :=
  userRegisterHandlerWith X dbPool req res fun pwd fname sname bdate bio city => do
    let hashedPwd ← generateHash pwd 12
    withScopedConnection .master fun sc =>
      withWork sc do
        let result ← execInsert sc ⟨fname, sname, bdate, bio, city, hashedPwd⟩
        commit
        pure (registerResult fname sname res result)

/-! ## `App::user_get_id_handler` -/

/-- The profile `user_get_id_handler` answers. -/
def profileJson (id fname sname bdate bio city : Bytes) : Json :=
  .object [(str "id", .string id), (str "first_name", .string fname),
    (str "second_name", .string sname), (str "birthdate", .string bdate),
    (str "biography", .string bio), (str "city", .string city)]

/-- What `user_get_id_handler` makes of the rows. -/
def getResult (id : Bytes) (res : HttpResponse) : List UserRow → TryResult
  | [] => .fallsOut false (res.setStatus 404) .null
  | row :: _ =>
      .fallsOut true res
        (profileJson id row.firstName row.secondName row.birthdate row.biography row.city)

/-- `App::user_get_id_handler`, around what its `try` block does with the id. -/
def userGetIdHandlerWith {E : Type} {R : E → Type} (dbPool : Bool) (req : HttpRequest)
    (res : HttpResponse) (block : Bytes → ExceptT Bytes (Program R) TryResult) :
    ExceptT Bytes (Program R) (Bool × HttpResponse) :=
  match req.pathParam (str "id") with
  | none => badRequest res
  | some id =>
      if !isValidUuid id then
        badRequest res
      else if !dbPool then
        unavailable (str "user_get_id_handler") res
      else
        tryQuery res (block id)

/-- `App::user_get_id_handler`. -/
def userGetIdHandler (dbPool : Bool) (req : HttpRequest) (res : HttpResponse) :
    DbM (Bool × HttpResponse) :=
  userGetIdHandlerWith dbPool req res fun id =>
    withScopedConnection .replica fun sc =>
      withWork sc do
        let result ← execSelect sc id
        pure (getResult id res result)

/-! ## The server around the handlers -/

/-- A request of one of the three kinds. -/
inductive Request
  | login (req : HttpRequest)
  | userRegister (req : HttpRequest)
  | userGetId (req : HttpRequest)

/-- The HTTP request. -/
def Request.http : Request → HttpRequest
  | .login req => req
  | .userRegister req => req
  | .userGetId req => req

/-- The routes set in `App::http_start`. -/
def handler (X : Externals) (dbPool : Bool) : Request → DbM (Bool × HttpResponse)
  | .login req => loginHandler X dbPool req .fresh
  | .userRegister req => userRegisterHandler X dbPool req .fresh
  | .userGetId req => userGetIdHandler dbPool req .fresh

/-- `App::exception_handler`; the text names the status so far, `-1` if there is none. -/
def exceptionHandler (res : HttpResponse) : HttpResponse :=
  (res.setHtml (str "<h1>Error 500</h1><p>" ++ (res.status.map decimal).getD (str "-1") ++
    str "</p>")).setStatus 500

/-- `App::error_handler`. -/
def errorHandler (X : Externals) (req : HttpRequest) (code : Nat) (res : HttpResponse) :
    HttpResponse :=
  res.setHtml (str "<html><head><title>" ++ decimal code ++ str " " ++ X.statusMessage code ++
    str "</title></head>\n<body><h1>Can't handle '" ++ req.method ++ str " " ++ req.path ++
    str "'</h1></body></html>\n")

/-- What the server does with the response of a handler: an unset status becomes 200, and the error
handler writes the body of an error. -/
def finish (X : Externals) (req : HttpRequest) (res : HttpResponse) : HttpResponse :=
  let code := res.status.getD 200
  if 400 ≤ code then errorHandler X req code res else res.setStatus code

/-- The program of a request. Only the parser's exception leaves a handler, before it has touched
the response. -/
def serve (X : Externals) (dbPool : Bool) (q : Request) : Program Op.Result HttpResponse :=
  (handler X dbPool q).run.bind fun
    | .ok (_, res) => .ret (finish X q.http res)
    | .error _ => .ret (finish X q.http (exceptionHandler .fresh))

/-- All requests of an `App`, in any order, with replication going on. -/
def AppSystem (X : Externals) (cfg : DbConfig) (dbPool : Bool) :
    System (Config Op.Result World Request HttpResponse) (Act Request Choice Replication) :=
  (database X cfg).system (serve X dbPool)

end SocialNetwork.App
