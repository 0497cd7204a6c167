import SocialNetwork.App.DumpedTexts
import SocialNetwork.App.Endings
import SocialNetwork.App.LikeQuery
import Mathlib.Data.List.Forall2

/-!
# Rows as they are stored

`db_create_users_table` allows NULL in `birthdate`, `biography` and `city`, and nothing in it asks for
texts in UTF-8. This file models what `user_get_id_handler` and `user_search_handler` do with the fields
of a row, up to the answer: `row.as<std::string, …>()` throws on NULL, inside the `try` block, and
`dump` throws on a text that is not UTF-8, outside of it. But for NULL these are the handlers of
`Handlers.lean` and `Search.lean`, with `dumped` at their end (`evalE_userGetIdHandler_of_complete`,
`evalE_userSearchHandler_of_complete`); one NULL, or one text that is not UTF-8, makes the whole answer
an error (`stored_users_read_back_iff`).
-/

namespace SocialNetwork.App

open Foundation Helpers Pool

/-! ## The handlers, field by field -/

/-- The fields of a row of a `pqxx::result`; `none` is SQL NULL. -/
abbrev RawRow := List (Option Bytes)

/-- The calls of the handlers that read: those of `Op`, and the two `SELECT`s with their rows as
they come. -/
inductive RowOp
  | db (e : Op)
  | profile (sc : ScopedConnection) (id : Bytes)
  | search (sc : ScopedConnection) (firstName secondName : Bytes)

/-- What a call gives back. -/
def RowOp.Result : RowOp → Type
  | .db e => e.Result
  | .profile _ _ => Except Bytes (List RawRow)
  | .search _ _ _ => Except Bytes (List RawRow)

/-- A piece of a handler that reads. -/
abbrev RowM := ExceptT Bytes (Program RowOp.Result)

namespace Rows

/-- `field.as<std::string>()`. -/
def asString : Option Bytes → Except Bytes Bytes
  | some value => .ok value
  | none => .error (str "Attempt to convert SQL null to std::string")

/-- The exception of `row.as<…>()` when the number of fields is another one. -/
def wrongColumns : Bytes := str "Tuple and row have different numbers of columns"

/-- `ScopedConnection(db_pool_, preferred)`. -/
def getConnection (preferred : NodeType) : RowM ScopedConnection :=
  ExceptT.mk (Program.call (RowOp.db (.getConnection preferred)))

/-- `pqxx::work tx(*scoped_conn.conn.get())`. -/
def beginWork (sc : ScopedConnection) : RowM Unit :=
  ExceptT.mk (Program.call (RowOp.db (.beginWork sc)))

/-- The destructor of `tx`. -/
def endWork : Program RowOp.Result Unit := Program.call (RowOp.db .endWork)

/-- The destructor of the `ScopedConnection`. -/
def release (sc : ScopedConnection) : Program RowOp.Result Unit :=
  Program.call (RowOp.db (.release sc))

/-- `tx.exec` of a `SELECT … WHERE id = $1`. -/
def execProfile (id : Bytes) (sc : ScopedConnection) : RowM (List RawRow) :=
  ExceptT.mk (Program.call (RowOp.profile sc id))

/-- `tx.exec` of the search. -/
def execSearch (firstName secondName : Bytes) (sc : ScopedConnection) : RowM (List RawRow) :=
  ExceptT.mk (Program.call (RowOp.search sc firstName secondName))

/-- The block of a handler that reads: a connection to a replica, a transaction, a statement, and
what is made of its rows. -/
def readBlock (exec : ScopedConnection → RowM (List RawRow))
    (use : List RawRow → Except Bytes TryResult) : RowM TryResult := do
  let sc ← getConnection .replica
  Program.andFinally (do
    beginWork sc
    Program.andFinally (do
      let result ← exec sc
      ExceptT.mk (.ret (use result))) endWork) (release sc)

/-- The exception of `dump`; its text goes on with the byte. -/
def invalidUtf8 : Bytes := str "[json.exception.type_error.316] invalid UTF-8 byte"

/-- `res.set_content(response.dump(), …)` and `return ok`. What `dump` throws leaves the handler. -/
def withDump (answer : Bool × HttpResponse) : Except Bytes (Bool × HttpResponse) :=
  (dumped answer).mapError fun _ => invalidUtf8

/-- The `try` block, its `catch`, and what follows. -/
def tryQuery (res : HttpResponse) (block : RowM TryResult) : RowM (Bool × HttpResponse) := do
  let result ← tryCatch block fun what =>
    pure (.fallsOut false (res.setStatus 500) (errorJson 500 (str "Error SQL: " ++ what)))
  ExceptT.mk (.ret (withDump result.conclude))

/-- A handler that stops because `db_pool_` is null. -/
def unavailable (handler : Bytes) (res : HttpResponse) : RowM (Bool × HttpResponse) :=
  ExceptT.mk (.ret (withDump (false, (res.setStatus 503).setJson (errorJson 503
    (str "Server Error: " ++ handler ++ str ": there is no connection to DB")))))

/-- One turn of the loop of `user_get_id_handler`. -/
def profileOfRow (id : Bytes) : RawRow → Except Bytes Json
  | [fname, sname, bdate, bio, city] => do
      let rowFname ← asString fname
      let rowSname ← asString sname
      let rowBdate ← asString bdate
      let rowBio ← asString bio
      let rowCity ← asString city
      return profileJson id rowFname rowSname rowBdate rowBio rowCity
  | _ => .error wrongColumns

/-- What `user_get_id_handler` makes of the rows; its loop ends after the first one. -/
def getResult (id : Bytes) (res : HttpResponse) : List RawRow → Except Bytes TryResult
  | [] => .ok (.fallsOut false (res.setStatus 404) .null)
  | row :: _ => do
      let response ← profileOfRow id row
      return .fallsOut true res response

/-- `App::user_get_id_handler`. -/
def userGetIdHandler (dbPool : Bool) (req : HttpRequest) (res : HttpResponse) :
    RowM (Bool × HttpResponse) :=
  match req.pathParam (str "id") with
  | none => pure (false, res.setStatus 400)
  | some id =>
      if !isValidUuid id then
        pure (false, res.setStatus 400)
      else if !dbPool then
        unavailable (str "user_get_id_handler") res
      else
        tryQuery res (readBlock (execProfile id) (getResult id res))

/-- One turn of the loop of `user_search_handler`. -/
def elementOfRow : RawRow → Except Bytes Json
  | [id, fname, sname, bdate, bio, city] => do
      let rowId ← asString id
      let rowFname ← asString fname
      let rowSname ← asString sname
      let rowBdate ← asString bdate
      let rowBio ← asString bio
      let rowCity ← asString city
      return profileJson rowId rowFname rowSname rowBdate rowBio rowCity
  | _ => .error wrongColumns

/-- The loop of `user_search_handler`: `response.push_back` for each row. -/
def pushRows (response : List Json) : List RawRow → Except Bytes (List Json)
  | [] => .ok response
  | row :: rows => do
      let element ← elementOfRow row
      pushRows (response ++ [element]) rows

/-- What `user_search_handler` makes of the rows. -/
def searchResult (res : HttpResponse) (rows : List RawRow) : Except Bytes TryResult := do
  let response ← pushRows [] rows
  return .fallsOut true res (.array response)

/-- `App::user_search_handler`. -/
def userSearchHandler (dbPool : Bool) (req : SearchRequest) (res : HttpResponse) :
    RowM (Bool × HttpResponse) :=
  if !req.hasParam (str "first_name") || !req.hasParam (str "last_name") then
    pure (false, res.setStatus 400)
  else if !dbPool then
    unavailable (str "user_search_handler") res
  else
    let firstName := req.getParamValue (str "first_name") ++ str "%"
    let secondName := req.getParamValue (str "last_name") ++ str "%"
    tryQuery res (readBlock (execSearch firstName secondName) (searchResult res))

/-- The answer to `ScopedConnection(db_pool_, NodeType::REPLICA)`. -/
def connected (answers : (e : RowOp) → e.Result) : Except Bytes ScopedConnection :=
  answers (.db (.getConnection .replica))

/-- The answer to `pqxx::work tx(…)`. -/
def begun (answers : (e : RowOp) → e.Result) (sc : ScopedConnection) : Except Bytes Unit :=
  answers (.db (.beginWork sc))

end Rows

/-! ## Tables that the schema permits -/

/-- The columns of a row of `users` that the handlers read; the last three may be NULL. -/
structure StoredUser where
  id : Bytes
  firstName : Bytes
  secondName : Bytes
  birthdate : Option Bytes
  biography : Option Bytes
  city : Option Bytes

namespace StoredUser

/-- `SELECT first_name, second_name, birthdate, biography, city`. -/
def profileFields (u : StoredUser) : RawRow :=
  [some u.firstName, some u.secondName, u.birthdate, u.biography, u.city]

/-- `SELECT id, first_name, second_name, birthdate, biography, city`. -/
def searchFields (u : StoredUser) : RawRow := some u.id :: u.profileFields

/-- No column of the row is NULL. -/
def Complete (u : StoredUser) : Prop :=
  u.birthdate.isSome = true ∧ u.biography.isSome = true ∧ u.city.isSome = true

instance (u : StoredUser) : Decidable u.Complete := by
  unfold Complete
  infer_instance

/-- The texts of the row are UTF-8. -/
def Utf8 (u : StoredUser) : Prop := ∀ field ∈ u.profileFields, ∀ text ∈ field, isUtf8 text = true

/-- The row can be read: none of its columns is NULL, and they are UTF-8. -/
def Readable (u : StoredUser) : Prop := u.Complete ∧ u.Utf8

end StoredUser

/-- A `users` table: ids are distinct UUIDs, as PostgreSQL writes them. -/
structure StoredTable where
  rows : List StoredUser
  ids : (rows.map StoredUser.id).Nodup
  uuids : ∀ u ∈ rows, isValidUuid u.id = true ∧ toLowercase u.id = u.id

namespace StoredTable

/-- `SELECT … WHERE id = $1`. -/
def byId (t : StoredTable) (id : Bytes) : List StoredUser :=
  t.rows.filter fun u => u.id = toLowercase id

/-- `SELECT … WHERE first_name LIKE $1 AND second_name LIKE $2 ORDER BY id LIMIT 100`. -/
def search (t : StoredTable) (first second : Bytes) : Except Bytes (List StoredUser) :=
  selectLike StoredUser.id (·.firstName) (·.secondName) t.rows first second

/-- Pool and database work, and the table is `t`. -/
structure Serves (t : StoredTable) (answers : (e : RowOp) → e.Result) : Prop where
  connection : ∃ sc, Rows.connected answers = .ok sc
  work : ∀ sc, Rows.begun answers sc = .ok ()
  profile : ∀ sc id, answers (.profile sc id) = .ok ((t.byId id).map StoredUser.profileFields)
  search : ∀ sc first second,
    answers (.search sc first second) = (t.search first second).map (·.map StoredUser.searchFields)

end StoredTable

/-- A JSON object holds the data of a row: the id as given, the names, and each column that is not
NULL. -/
structure Describes (id : Bytes) (u : StoredUser) (json : Json) : Prop where
  id : json.text (str "id") = some id
  firstName : json.text (str "first_name") = some u.firstName
  secondName : json.text (str "second_name") = some u.secondName
  birthdate : ∀ v, u.birthdate = some v → json.text (str "birthdate") = some v
  biography : ∀ v, u.biography = some v → json.text (str "biography") = some v
  city : ∀ v, u.city = some v → json.text (str "city") = some v

/-- A JSON array holds one element for each of the users, in their order. -/
def Lists (us : List StoredUser) (json : Json) : Prop :=
  ∃ items, json = .array items ∧ List.Forall₂ (fun u item => Describes u.id u item) us items

/-- The handler answers 200 (a status that is not set becomes 200), with a JSON value as said. -/
def Answers200 (outcome : Except Bytes (Bool × HttpResponse)) (body : Json → Prop) : Prop :=
  ∃ ok res json, outcome = .ok (ok, res) ∧ res.status.getD 200 = 200 ∧
    res.content = some (.json json) ∧ body json

/-! ## What the handlers do with rows -/

namespace Rows

/-- What a block that reads gives, step by step. -/
theorem evalE_readBlock (answers : (e : RowOp) → e.Result)
    (exec : ScopedConnection → RowM (List RawRow)) (use : List RawRow → Except Bytes TryResult) :
    Program.evalE answers (readBlock exec use) = (do
      let sc ← connected answers
      begun answers sc
      let rows ← Program.evalE answers (exec sc)
      use rows) := by
  have hconnected : Program.evalE answers (getConnection .replica) = connected answers := rfl
  have hbegun : ∀ sc, Program.evalE answers (beginWork sc) = begun answers sc := fun _ => rfl
  have huse : ∀ rows, Program.evalE answers (ExceptT.mk (.ret (use rows)) : RowM TryResult) =
      use rows := fun _ => rfl
  rw [readBlock, Program.evalE_bind, hconnected]
  refine congrArg (Except.bind (connected answers)) (funext fun sc => ?_)
  rw [Program.evalE_andFinally, Program.evalE_bind, hbegun]
  refine congrArg (Except.bind (begun answers sc)) (funext fun _ => ?_)
  rw [Program.evalE_andFinally, Program.evalE_bind]
  exact congrArg (Except.bind (Program.evalE answers (exec sc))) (funext huse)

/-- A handler whose block reads. -/
theorem evalE_tryQuery (answers : (e : RowOp) → e.Result) {block : RowM TryResult} :
    Program.evalE answers (tryQuery .fresh block) =
      withDump (queried id (Program.evalE answers block)).conclude := by
  rw [tryQuery, Program.evalE_bind, Program.evalE_tryCatch]
  cases Program.evalE answers block <;> rfl

/-- A block that comes to its end with a value is answered with 200, and the value, if that can be
dumped. -/
theorem answers200_fallsOut {json : Json} {body : Json → Prop} :
    Answers200 (withDump (TryResult.fallsOut true .fresh json).conclude) body ↔
      json.isUtf8 = true ∧ body json := by
  change Answers200 (Except.mapError _ (if json.isUtf8 then Except.ok _ else Except.error _)) body ↔ _
  by_cases hutf8 : json.isUtf8 = true
  · rw [if_pos hutf8]
    constructor
    · rintro ⟨ok, res, json', hres, -, hcontent, hbody⟩
      cases hres
      cases hcontent
      exact ⟨hutf8, hbody⟩
    · rintro ⟨-, hbody⟩
      exact ⟨true, _, json, rfl, rfl, rfl, hbody⟩
  · rw [if_neg hutf8]
    exact iff_of_false (fun ⟨_, _, _, hres, _⟩ => by cases hres) fun h => hutf8 h.1

/-- A block that throws is not answered with 200, whether its message can be dumped or not. -/
theorem not_answers200_error {what : Bytes} {body : Json → Prop} :
    ¬Answers200 (withDump (queried id (.error what)).conclude) body := by
  change ¬Answers200 (Except.mapError _ (if (errorJson 500 (str "Error SQL: " ++ what)).isUtf8 then
    Except.ok _ else Except.error _)) body
  rintro ⟨ok, res, json, hres, hstatus, -⟩
  split at hres
  · cases hres
    exact absurd hstatus (by simp [HttpResponse.setJson, HttpResponse.setStatus])
  · cases hres

/-- A row without NULL gives its profile, which can be dumped if its texts can. -/
theorem profileOfRow_complete {u : StoredUser} (h : u.Complete) {id : Bytes}
    (hid : isUtf8 id = true) :
    ∃ json, profileOfRow id u.profileFields = .ok json ∧ Describes id u json ∧
      (json.isUtf8 = true ↔ u.Utf8) := by
  obtain ⟨bdate, hbdate⟩ := Option.isSome_iff_exists.mp h.1
  obtain ⟨bio, hbio⟩ := Option.isSome_iff_exists.mp h.2.1
  obtain ⟨city, hcity⟩ := Option.isSome_iff_exists.mp h.2.2
  have hfields : u.profileFields =
      [some u.firstName, some u.secondName, some bdate, some bio, some city] := by
    rw [StoredUser.profileFields, hbdate, hbio, hcity]
  refine ⟨profileJson id u.firstName u.secondName bdate bio city, ?_, ?_, ?_⟩
  · rw [hfields]
    rfl
  · refine ⟨rfl, rfl, rfl, fun v hv => ?_, fun v hv => ?_, fun v hv => ?_⟩
    · rw [hbdate, Option.some.injEq] at hv
      exact hv ▸ rfl
    · rw [hbio, Option.some.injEq] at hv
      exact hv ▸ rfl
    · rw [hcity, Option.some.injEq] at hv
      exact hv ▸ rfl
  · rw [isUtf8_profileJson, hid, Bool.true_and, StoredUser.Utf8, hfields]
    simp

/-- A row with NULL gives an exception. -/
theorem profileOfRow_incomplete {u : StoredUser} (h : ¬u.Complete) (id : Bytes) :
    ∃ what, profileOfRow id u.profileFields = .error what := by
  unfold StoredUser.profileFields
  rcases hbdate : u.birthdate with _ | bdate
  · exact ⟨_, rfl⟩
  · rcases hbio : u.biography with _ | bio
    · exact ⟨_, rfl⟩
    · rcases hcity : u.city with _ | city
      · exact ⟨_, rfl⟩
      · exact absurd (by simp [StoredUser.Complete, hbdate, hbio, hcity]) h

/-- The element of a search is the profile under the row's own id. -/
theorem elementOfRow_searchFields (u : StoredUser) :
    elementOfRow u.searchFields = profileOfRow u.id u.profileFields := rfl

/-- The loop of the search over rows without NULL: an element for each of them, and they can be dumped
if the texts of the rows can. -/
theorem pushRows_complete {us : List StoredUser}
    (h : ∀ u ∈ us, u.Complete ∧ isUtf8 u.id = true) (done : List Json) :
    ∃ items, pushRows done (us.map StoredUser.searchFields) = .ok (done ++ items) ∧
      List.Forall₂ (fun u json => Describes u.id u json) us items ∧
      ((∀ item ∈ items, item.isUtf8 = true) ↔ ∀ u ∈ us, u.Utf8) := by
  induction us generalizing done with
  | nil => exact ⟨[], by rw [List.append_nil]; rfl, .nil, by simp⟩
  | cons u us ih =>
      obtain ⟨hcomplete, hid⟩ := h u List.mem_cons_self
      obtain ⟨json, hjson, hdescribes, hutf8⟩ := profileOfRow_complete hcomplete hid
      obtain ⟨items, hitems, hall, hutf8s⟩ :=
        ih (fun v hv => h v (List.mem_cons_of_mem u hv)) (done ++ [json])
      refine ⟨json :: items, ?_, .cons hdescribes hall, ?_⟩
      · rw [List.map_cons, pushRows, elementOfRow_searchFields, hjson]
        simp only [bind, Except.bind]
        rw [hitems, List.append_assoc, List.singleton_append]
      · rw [List.forall_mem_cons, List.forall_mem_cons, hutf8, hutf8s]

/-- One row with NULL ends the loop. -/
theorem pushRows_incomplete {us : List StoredUser} (h : ∃ u ∈ us, ¬u.Complete) (done : List Json) :
    ∃ what, pushRows done (us.map StoredUser.searchFields) = .error what := by
  induction us generalizing done with
  | nil =>
      obtain ⟨u, hu, -⟩ := h
      cases hu
  | cons u us ih =>
      rw [List.map_cons, pushRows, elementOfRow_searchFields]
      cases hrow : profileOfRow u.id u.profileFields with
      | error what => exact ⟨what, rfl⟩
      | ok json =>
          -- the row with NULL is a later one
          refine ih ?_ (done ++ [json])
          obtain ⟨v, hv, hnull⟩ := h
          rcases List.mem_cons.mp hv with rfl | hv
          · obtain ⟨what, hwhat⟩ := profileOfRow_incomplete hnull v.id
            rw [hrow] at hwhat
            cases hwhat
          · exact ⟨v, hv, hnull⟩

end Rows

/-! ## Rows without NULL -/

/-- The fields of a row of `Database.lean`. -/
def UserRow.profileFields (row : UserRow) : RawRow :=
  [some row.firstName, some row.secondName, some row.birthdate, some row.biography, some row.city]

/-- The fields of a row of `Database.lean` that a search selects. -/
def UserRow.searchFields (row : UserRow) : RawRow := some row.id :: row.profileFields

/-- On rows without NULL, `user_get_id_handler` is the one of `Handlers.lean`, with `dump`. -/
theorem evalE_userGetIdHandler_of_complete {db : (e : Op) → e.Result}
    {answers : (e : RowOp) → e.Result} (hconnection : Rows.connected answers = gotConnection db .replica)
    (hwork : ∀ sc, Rows.begun answers sc = begunWork db sc)
    (hrows : ∀ sc id, Program.evalE answers (Rows.execProfile id sc) =
      (selected db sc id).map (·.map UserRow.profileFields)) (dbPool : Bool) (req : HttpRequest) :
    Program.evalE answers (Rows.userGetIdHandler dbPool req .fresh) =
      (Program.evalE db (userGetIdHandler dbPool req .fresh)).bind Rows.withDump := by
  have hresult : ∀ id rows, Rows.getResult id .fresh (rows.map UserRow.profileFields) =
      .ok (getResult id .fresh rows) := by
    intro id rows
    cases rows <;> rfl
  have hblock : ∀ id, Program.evalE answers (Rows.readBlock (Rows.execProfile id)
      (Rows.getResult id .fresh)) = (readRows db id).map (getResult id .fresh) := by
    intro id
    rw [Rows.evalE_readBlock, hconnection, readRows]
    cases gotConnection db .replica with
    | error what => rfl
    | ok sc =>
        change (Rows.begun answers sc >>= fun _ => Program.evalE answers _ >>= _) =
          (begunWork db sc >>= fun _ => selected db sc id).map _
        rw [hwork, hrows]
        cases begunWork db sc with
        | error what => rfl
        | ok _ =>
            change ((selected db sc id).map _ >>= _) = (selected db sc id).map _
            cases selected db sc id with
            | error what => rfl
            | ok rows => exact hresult id rows
  unfold Rows.userGetIdHandler userGetIdHandler userGetIdHandlerWith
  cases hid : req.pathParam (str "id") with
  | none => rfl
  | some id =>
      by_cases huuid : isValidUuid id = true
      · cases dbPool with
        | false => simp only [huuid, Bool.not_true, Bool.false_eq_true, if_false]; rfl
        | true =>
            simp only [huuid, Bool.not_true, Bool.false_eq_true, if_false]
            rw [Rows.evalE_tryQuery, hblock, evalE_read]
            cases readRows db id <;> rfl
      · simp only [huuid, Bool.not_false, if_true]
        rfl

/-- On rows without NULL, `user_search_handler` is the one of `Search.lean`, with `dump`. -/
theorem evalE_userSearchHandler_of_complete {found : Answers} {answers : (e : RowOp) → e.Result}
    (hconnection : Rows.connected answers = gotConnection found.db .replica)
    (hwork : ∀ sc, Rows.begun answers sc = begunWork found.db sc)
    (hrows : ∀ sc first second, Program.evalE answers (Rows.execSearch first second sc) =
      (searched found sc first second).map (·.map UserRow.searchFields)) {req : SearchRequest}
    (hparams : req.hasParam (str "first_name") = true ∧ req.hasParam (str "last_name") = true) :
    Program.evalE answers (Rows.userSearchHandler true req .fresh) =
      (Program.evalE found (userSearchHandler true req .fresh)).bind Rows.withDump := by
  have hpush : ∀ (rows : List UserRow) done, Rows.pushRows done (rows.map UserRow.searchFields) =
      .ok (done ++ rows.map searchJson) := by
    intro rows
    induction rows with
    | nil => exact fun done => congrArg Except.ok (List.append_nil done).symm
    | cons row rows ih =>
        intro done
        have hrest := ih (done ++ [searchJson row])
        rw [List.append_assoc, List.singleton_append] at hrest
        exact hrest
  have hblock : ∀ first second, Program.evalE answers (Rows.readBlock (Rows.execSearch first second)
      (Rows.searchResult .fresh)) = (searchRows found first second).map (searchResult .fresh) := by
    intro first second
    rw [Rows.evalE_readBlock, hconnection, searchRows]
    cases gotConnection found.db .replica with
    | error what => rfl
    | ok sc =>
        change (Rows.begun answers sc >>= fun _ => Program.evalE answers _ >>= _) =
          (begunWork found.db sc >>= fun _ => searched found sc first second).map _
        rw [hwork, hrows]
        cases begunWork found.db sc with
        | error what => rfl
        | ok _ =>
            change ((searched found sc first second).map _ >>= _) =
              (searched found sc first second).map _
            cases searched found sc first second with
            | error what => rfl
            | ok rows =>
                change Rows.searchResult .fresh (rows.map UserRow.searchFields) = _
                rw [Rows.searchResult, hpush]
                rfl
  rw [evalE_search found hparams, Rows.userSearchHandler]
  simp only [hparams.1, hparams.2, Bool.not_true, Bool.or_self, Bool.false_eq_true, if_false]
  rw [Rows.evalE_tryQuery, hblock]
  cases searchRows found (req.getParamValue (str "first_name") ++ str "%")
    (req.getParamValue (str "last_name") ++ str "%") <;> rfl

/-! ## Reading back what is stored -/

/-- An element describes one row of the table only: the ids are distinct. -/
theorem StoredTable.eq_of_describes {t : StoredTable} {us ws : List StoredUser} {items : List Json}
    (hus : ∀ u ∈ us, u ∈ t.rows) (hws : ∀ w ∈ ws, w ∈ t.rows)
    (hu : List.Forall₂ (fun u item => Describes u.id u item) us items)
    (hw : List.Forall₂ (fun w item => Describes w.id w item) ws items) : us = ws := by
  refine List.left_unique_forall₂' (R := fun u item => u ∈ t.rows ∧ Describes u.id u item) ?_
    ((List.forall₂_and_left us items).mpr ⟨hus, hu⟩) ((List.forall₂_and_left ws items).mpr ⟨hws, hw⟩)
  rintro u item w ⟨hurows, hdescribes⟩ ⟨hwrows, hdescribes'⟩
  have hid := hdescribes.id
  rw [hdescribes'.id, Option.some.injEq] at hid
  exact List.inj_on_of_nodup_map t.ids hurows hwrows hid.symm

/-- What a search selects is in the table. -/
theorem StoredTable.mem_rows_of_search {t : StoredTable} {f l : Bytes} {us : List StoredUser}
    (h : t.search (f ++ str "%") (l ++ str "%") = .ok us) {u : StoredUser} (hu : u ∈ us) :
    u ∈ t.rows := by
  obtain ⟨found, -, rfl⟩ := selectLike_eq_ok h
  exact List.mem_of_mem_filter (mem_of_mem_firstHundred hu)

section readBack

variable {t : StoredTable} {answers : (e : RowOp) → e.Result}

/-- A handler whose statement gives rows. -/
theorem StoredTable.Serves.eval_tryQuery (h : t.Serves answers)
    {exec : ScopedConnection → RowM (List RawRow)} {use : List RawRow → Except Bytes TryResult}
    {rows : List RawRow} (hrows : ∀ sc, Program.evalE answers (exec sc) = .ok rows) :
    Program.evalE answers (Rows.tryQuery .fresh (Rows.readBlock exec use)) =
      Rows.withDump (queried id (use rows)).conclude := by
  obtain ⟨sc, hsc⟩ := h.connection
  have hblock : Program.evalE answers (Rows.readBlock exec use) = use rows := by
    rw [Rows.evalE_readBlock, hsc]
    change (Rows.begun answers sc >>= fun _ => Program.evalE answers (exec sc) >>= use) = _
    rw [h.work, hrows]
    rfl
  rw [Rows.evalE_tryQuery, hblock]

/-- What `user_get_id_handler` gives for the row with the id. -/
theorem StoredTable.Serves.eval_get (h : t.Serves answers) {req : HttpRequest} {id : Bytes}
    {u : StoredUser} (hid : req.pathParam (str "id") = some id) (huuid : isValidUuid id = true)
    (hu : u ∈ t.rows) (heq : u.id = toLowercase id) :
    Program.evalE answers (Rows.userGetIdHandler true req .fresh) =
      Rows.withDump (queried (TryResult.fallsOut true .fresh)
        (Rows.profileOfRow id u.profileFields)).conclude := by
  -- the id is a key, so the first row found is this one
  obtain ⟨rest, hrows⟩ : ∃ rest, t.byId id = u :: rest := by
    have hmem : u ∈ t.byId id := List.mem_filter.mpr ⟨hu, decide_eq_true heq⟩
    cases hfound : t.byId id with
    | nil =>
        rw [hfound] at hmem
        cases hmem
    | cons v rest =>
        have hv : v ∈ t.byId id := hfound ▸ List.mem_cons_self
        obtain ⟨hvrows, hvid⟩ := List.mem_filter.mp hv
        have hvu := List.inj_on_of_nodup_map t.ids hvrows hu
          ((of_decide_eq_true hvid).trans heq.symm)
        exact ⟨rest, by rw [hvu]⟩
  have hexec : ∀ sc, Program.evalE answers (Rows.execProfile id sc) =
      .ok (u.profileFields :: rest.map StoredUser.profileFields) := by
    intro sc
    have hprofile := h.profile sc id
    rw [hrows] at hprofile
    exact hprofile
  rw [Rows.userGetIdHandler, hid]
  simp only [huuid, Bool.not_true, Bool.false_eq_true, if_false]
  rw [h.eval_tryQuery hexec, Rows.getResult]
  cases Rows.profileOfRow id u.profileFields <;> rfl

/-- `user_get_id_handler` answers 200 with the profile exactly for a row that can be read. -/
theorem StoredTable.Serves.get_answers200_iff (h : t.Serves answers) {req : HttpRequest}
    {id : Bytes} {u : StoredUser} (hid : req.pathParam (str "id") = some id)
    (huuid : isValidUuid id = true) (hu : u ∈ t.rows) (heq : u.id = toLowercase id) :
    Answers200 (Program.evalE answers (Rows.userGetIdHandler true req .fresh)) (Describes id u) ↔
      u.Readable := by
  rw [h.eval_get hid huuid hu heq]
  by_cases hcomplete : u.Complete
  · obtain ⟨json, hjson, hdescribes, hutf8⟩ :=
      Rows.profileOfRow_complete hcomplete (isUtf8_of_isValidUuid huuid)
    rw [hjson, queried, Rows.answers200_fallsOut, hutf8, StoredUser.Readable]
    exact ⟨fun h => ⟨hcomplete, h.1⟩, fun h => ⟨h.2, hdescribes⟩⟩
  · obtain ⟨what, hwhat⟩ := Rows.profileOfRow_incomplete hcomplete id
    rw [hwhat]
    exact iff_of_false Rows.not_answers200_error fun h => hcomplete h.1

/-- What `user_search_handler` gives for the rows of the query. -/
theorem StoredTable.Serves.eval_search (h : t.Serves answers) {req : SearchRequest}
    (hfirst : req.hasParam (str "first_name") = true)
    (hlast : req.hasParam (str "last_name") = true) {us : List StoredUser}
    (hus : t.search (req.getParamValue (str "first_name") ++ str "%")
      (req.getParamValue (str "last_name") ++ str "%") = .ok us) :
    Program.evalE answers (Rows.userSearchHandler true req .fresh) =
      Rows.withDump (queried (fun items => TryResult.fallsOut true .fresh (.array items))
        (Rows.pushRows [] (us.map StoredUser.searchFields))).conclude := by
  have hexec : ∀ sc, Program.evalE answers (Rows.execSearch
      (req.getParamValue (str "first_name") ++ str "%")
      (req.getParamValue (str "last_name") ++ str "%") sc) =
        .ok (us.map StoredUser.searchFields) := by
    intro sc
    have hsearch := h.search sc (req.getParamValue (str "first_name") ++ str "%")
      (req.getParamValue (str "last_name") ++ str "%")
    rw [hus] at hsearch
    exact hsearch
  rw [Rows.userSearchHandler]
  simp only [hfirst, hlast, Bool.not_true, Bool.or_self, Bool.false_eq_true, if_false]
  rw [h.eval_tryQuery hexec, Rows.searchResult]
  cases Rows.pushRows [] (us.map StoredUser.searchFields) <;> rfl

/-- **`user_search_handler` answers 200 with one element for each of these users** exactly when they
are what the query selected, and each of them can be read. -/
theorem StoredTable.Serves.search_answers200_iff (h : t.Serves answers) {req : SearchRequest}
    (hfirst : req.hasParam (str "first_name") = true)
    (hlast : req.hasParam (str "last_name") = true) {us ws : List StoredUser}
    (hus : t.search (req.getParamValue (str "first_name") ++ str "%")
      (req.getParamValue (str "last_name") ++ str "%") = .ok us) (hws : ∀ w ∈ ws, w ∈ t.rows) :
    Answers200 (Program.evalE answers (Rows.userSearchHandler true req .fresh)) (Lists ws) ↔
      us = ws ∧ ∀ u ∈ us, u.Readable := by
  have hrows : ∀ u ∈ us, u ∈ t.rows := fun u hu => t.mem_rows_of_search hus hu
  rw [h.eval_search hfirst hlast hus]
  by_cases hcomplete : ∀ u ∈ us, u.Complete
  · obtain ⟨items, hitems, hall, hutf8⟩ := Rows.pushRows_complete (fun u hu =>
      ⟨hcomplete u hu, isUtf8_of_isValidUuid (t.uuids u (hrows u hu)).1⟩) []
    rw [hitems, List.nil_append, queried, Rows.answers200_fallsOut, Json.isUtf8, isUtf8Items_eq,
      List.all_eq_true, hutf8]
    constructor
    · rintro ⟨htexts, items', hitems', hall'⟩
      cases hitems'
      exact ⟨StoredTable.eq_of_describes hrows hws hall hall',
        fun u hu => ⟨hcomplete u hu, htexts u hu⟩⟩
    · rintro ⟨rfl, hreadable⟩
      exact ⟨fun u hu => (hreadable u hu).2, items, rfl, hall⟩
  · push Not at hcomplete
    obtain ⟨what, hwhat⟩ := Rows.pushRows_incomplete hcomplete []
    rw [hwhat]
    refine iff_of_false Rows.not_answers200_error fun hall => ?_
    obtain ⟨u, hu, hnull⟩ := hcomplete
    exact hnull (hall.2 u hu).1

end readBack

/-- A pool and a database that work, on a table. -/
def tableAnswers (t : StoredTable) : (e : RowOp) → e.Result
  | .profile _ id => .ok ((t.byId id).map StoredUser.profileFields)
  | .search _ first second => (t.search first second).map (·.map StoredUser.searchFields)
  | .db (.generateHash _ _) => .ok []
  | .db (.getConnection preferred) => .ok ⟨⟨preferred, 0, 0, []⟩, preferred, 0, []⟩
  | .db (.beginWork _) => .ok ()
  | .db (.insert _ _) => .ok []
  | .db (.select _ _) => .ok []
  | .db .commit => .ok ()
  | .db .endWork => ()
  | .db (.release _) => ()

theorem serves_tableAnswers (t : StoredTable) : t.Serves (tableAnswers t) where
  connection := ⟨_, rfl⟩
  work _ := rfl
  profile _ _ := rfl
  search _ _ _ := rfl

/-- Every stored user can be read back: by any form of the id, and by every search that selects
it. -/
structure ReadsBack (t : StoredTable) : Prop where
  profile : ∀ answers, t.Serves answers → ∀ (req : HttpRequest) id u,
    req.pathParam (str "id") = some id → isValidUuid id = true → u ∈ t.rows →
    u.id = toLowercase id →
    Answers200 (Program.evalE answers (Rows.userGetIdHandler true req .fresh)) (Describes id u)
  search : ∀ answers, t.Serves answers → ∀ (req : SearchRequest) us,
    req.hasParam (str "first_name") = true → req.hasParam (str "last_name") = true →
    t.search (req.getParamValue (str "first_name") ++ str "%")
      (req.getParamValue (str "last_name") ++ str "%") = .ok us →
    Answers200 (Program.evalE answers (Rows.userSearchHandler true req .fresh)) (Lists us)

/-- The request for the profile of a user. -/
def profileRequest (id : Bytes) : HttpRequest where
  method := str "GET"
  path := str "/user/get/" ++ id
  body := []
  pathParams := [(str "id", id)]

/-- **Every stored user can be read back exactly when no row has a NULL** in `birthdate`,
`biography` or `city`, and all texts are UTF-8.
Source: `App::user_get_id_handler`, `App::user_search_handler`, `App::db_create_users_table` -/
theorem stored_users_read_back_iff (t : StoredTable) :
    ReadsBack t ↔ ∀ u ∈ t.rows, u.Complete ∧ u.Utf8 := by
  constructor
  · intro h u hu
    obtain ⟨huuid, hlower⟩ := t.uuids u hu
    have hanswer := h.profile _ (serves_tableAnswers t) (profileRequest u.id) u.id u rfl huuid hu
      hlower.symm
    exact ((serves_tableAnswers t).get_answers200_iff rfl huuid hu hlower.symm).mp hanswer
  · intro h
    refine ⟨fun answers hserves req id u hid huuid hu heq => ?_,
      fun answers hserves req us hfirst hlast hus => ?_⟩
    · exact (hserves.get_answers200_iff hid huuid hu heq).mpr (h u hu)
    · have hrows : ∀ u ∈ us, u ∈ t.rows := fun u hu => t.mem_rows_of_search hus hu
      exact (hserves.search_answers200_iff hfirst hlast hus hrows).mpr
        ⟨rfl, fun u hu => h u (hrows u hu)⟩

/-- A user without a biography. -/
def withoutBiography : StoredUser where
  id := str "00000000-0000-4000-8000-000000000000"
  firstName := str "Anna"
  secondName := str "Ivanova"
  birthdate := some (str "1990-01-31")
  biography := none
  city := some (str "Moscow")

/-- The table of that user. -/
def tableWithNull : StoredTable where
  rows := [withoutBiography]
  ids := List.nodup_singleton _
  uuids u hu := by
    rw [List.mem_singleton.mp hu]
    decide

/-- That user cannot be read back. -/
theorem not_readsBack_tableWithNull : ¬ReadsBack tableWithNull := by
  intro h
  have huuid : isValidUuid withoutBiography.id = true := by decide
  have hlower : withoutBiography.id = toLowercase withoutBiography.id := by decide
  have hmem : withoutBiography ∈ tableWithNull.rows := List.mem_singleton.mpr rfl
  have hanswer := h.profile _ (serves_tableAnswers _) (profileRequest withoutBiography.id) _ _ rfl
    huuid hmem hlower
  have hreadable := ((serves_tableAnswers _).get_answers200_iff rfl huuid hmem hlower).mp hanswer
  exact absurd hreadable.1 (by decide)

end SocialNetwork.App
