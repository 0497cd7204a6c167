import SocialNetwork.App.Handlers
import SocialNetwork.Foundation.Lifting

/-!
# The handler of `/user/search`

`App::user_search_handler`, branch by branch. Its `SELECT … LIKE` is a statement of its own beside the
operations of `Database.lean`, so that the handler is a program over both. As in `Handlers.lean`,
`response.dump()` returns, and `Metrics.lean` adds its exception.
-/

namespace SocialNetwork.App

open Foundation Helpers Pool

/-! ## Requests and operations -/

/-- An `httplib::Request` with the parameters of its query string. -/
structure SearchRequest extends HttpRequest where
  params : List (Bytes × Bytes)

/-- `req.has_param(key)`. -/
def SearchRequest.hasParam (req : SearchRequest) (key : Bytes) : Bool :=
  req.params.any fun p => p.1 = key

/-- `req.get_param_value(key)`: the first value, and nothing for a missing parameter. -/
def SearchRequest.getParamValue (req : SearchRequest) (key : Bytes) : Bytes :=
  ((req.params.find? fun p => p.1 = key).map Prod.snd).getD []

/-- The calls of the search: those of `Op`, and `tx.exec` of the
`SELECT … WHERE first_name LIKE $1 AND second_name LIKE $2 ORDER BY id LIMIT 100`. -/
inductive SearchOp
  | db (e : Op)
  | search (sc : ScopedConnection) (firstName secondName : Bytes)

/-- What a call gives back. -/
def SearchOp.Result : SearchOp → Type
  | .db e => e.Result
  | .search _ _ _ => Except Bytes (List UserRow)

/-- A program without the search, among those with it. -/
abbrev withSearch {α : Type} (p : Program Op.Result α) : Program SearchOp.Result α :=
  p.along SearchOp.db fun _ r => r

/-- A piece of the search handler. -/
abbrev SearchM := ExceptT Bytes (Program SearchOp.Result)

namespace SearchM

/-- `ScopedConnection(db_pool_, preferred)`. -/
def getConnection (preferred : NodeType) : SearchM ScopedConnection :=
  ExceptT.mk (Program.call (SearchOp.db (.getConnection preferred)))

/-- `pqxx::work tx(*scoped_conn.conn.get())`. -/
def beginWork (sc : ScopedConnection) : SearchM Unit :=
  ExceptT.mk (Program.call (SearchOp.db (.beginWork sc)))

/-- `tx.exec` of the search. -/
def execSearch (sc : ScopedConnection) (firstName secondName : Bytes) : SearchM (List UserRow) :=
  ExceptT.mk (Program.call (SearchOp.search sc firstName secondName))

end SearchM

/-! ## `App::user_search_handler` -/

/-- The element of the answer for a row. -/
def searchJson (row : UserRow) : Json :=
  profileJson row.id row.firstName row.secondName row.birthdate row.biography row.city

/-- What `user_search_handler` makes of the rows. -/
def searchResult (res : HttpResponse) (rows : List UserRow) : TryResult :=
  .fallsOut true res (.array (rows.map searchJson))

/-- `App::user_search_handler`, around what its `try` block does with the two patterns. -/
def userSearchHandlerWith {E : Type} {R : E → Type} (dbPool : Bool) (req : SearchRequest)
    (res : HttpResponse) (block : Bytes → Bytes → ExceptT Bytes (Program R) TryResult) :
    ExceptT Bytes (Program R) (Bool × HttpResponse) :=
  if !req.hasParam (str "first_name") || !req.hasParam (str "last_name") then
    badRequest res
  else if !dbPool then
    unavailable (str "user_search_handler") res
  else
    let firstName := req.getParamValue (str "first_name") ++ str "%"
    let secondName := req.getParamValue (str "last_name") ++ str "%"
    tryQuery res (block firstName secondName)

/-- `App::user_search_handler`. -/
def userSearchHandler (dbPool : Bool) (req : SearchRequest) (res : HttpResponse) :
    SearchM (Bool × HttpResponse) :=
  userSearchHandlerWith dbPool req res fun firstName secondName => do
    let sc ← SearchM.getConnection .replica
    Program.andFinally (do
      SearchM.beginWork sc
      Program.andFinally (do
        let result ← SearchM.execSearch sc firstName secondName
        pure (searchResult res result)) (Program.call (SearchOp.db .endWork)))
      (Program.call (SearchOp.db (.release sc)))

end SocialNetwork.App
