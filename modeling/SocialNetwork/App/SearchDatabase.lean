import SocialNetwork.App.LikeQuery
import SocialNetwork.App.Endings
import SocialNetwork.App.Soundness

/-!
# The whole server

All four kinds of requests on one database: logins, registrations and profile reads run as in
`Soundness.lean`, and searches run among them. A search reads the table of the node it is connected
to, as `selectLike` says. What the other requests rely on is what they relied on before: to them, a
search is a request that registers nobody (`Dispatch.reader`). So everything that was proved of their
programs holds here too (`extends_database`), and the calls of a search that are those of the other
handlers have the rules they had.
-/

namespace SocialNetwork.App

open Foundation Helpers Pool

/-! ## The machine -/

/-- What a call of the `i`-th request does. A pattern that `LIKE` does not take is an exception. -/
def performSearch (X : Externals) (i : Nat) (w : World) :
    (e : SearchOp) → Choice → Option (e.Result × World)
  | .db e, choice => perform X i w e choice
  | .search sc firstName secondName, .ok =>
      match selectLike UserRow.id (·.firstName) (·.secondName) (w.table sc.conn ++ w.tx i)
          firstName secondName with
      | .ok rows => some (.ok rows, w.send .select sc.conn)
      | .error what => some (.error what, (w.send .select sc.conn).record i (.external what))
  | .search sc _ _, .fail what =>
      some (.error what, (w.send .select sc.conn).record i (.external what))
  | .search _ _ _, _ => none

/-- The database and the pool, with searches. -/
def searchDatabase (X : Externals) (cfg : DbConfig) :
    Machine SearchOp.Result World Choice Replication where
  start := World.start cfg
  perform := performSearch X
  background := replicate

/-- What a search does once the query is sent. -/
theorem perform_search {X : Externals} {i : Nat} {w w' : World} {sc : ScopedConnection}
    {firstName secondName : Bytes} {choice : Choice} {r : Except Bytes (List UserRow)}
    (h : performSearch X i w (.search sc firstName secondName) choice = some (r, w')) :
    (∃ rows, selectLike UserRow.id (·.firstName) (·.secondName) (w.table sc.conn ++ w.tx i)
        firstName secondName = .ok rows ∧ r = .ok rows ∧ w' = w.send .select sc.conn) ∨
      ∃ what, r = .error what ∧ w' = (w.send .select sc.conn).record i (.external what) := by
  cases choice with
  | ok =>
      simp only [performSearch] at h
      split at h
      · rename_i rows hrows
        cases h
        exact .inl ⟨rows, hrows, rfl, rfl⟩
      · rename_i what _
        cases h
        exact .inr ⟨what, rfl, rfl⟩
  | fail what =>
      cases h
      exact .inr ⟨what, rfl, rfl⟩
  | _ => cases h

/-- No call blocks for good. -/
theorem performSearch_enabled (X : Externals) (i : Nat) (w : World) (e : SearchOp) :
    ∃ choice r w', performSearch X i w e choice = some (r, w') := by
  cases e with
  | db e => exact perform_enabled X i w e
  | search sc firstName secondName => exact ⟨.fail [], _, _, rfl⟩

/-! ## The programs -/

/-- The program of a request. No exception leaves the search. -/
def serveAny (X : Externals) (dbPool : Bool) : Dispatch → Program SearchOp.Result HttpResponse
  | .login req => withSearch (serve X dbPool (.login req))
  | .userRegister req => withSearch (serve X dbPool (.userRegister req))
  | .userGetId req => withSearch (serve X dbPool (.userGetId req))
  | .userSearch req => (userSearchHandler dbPool req .fresh).run.bind fun
      | .ok (_, res) => .ret (finish X req.toHttpRequest res)
      | .error _ => .ret (finish X req.toHttpRequest (exceptionHandler .fresh))

/-- All requests of an `App`, in any order, with replication going on. -/
def SearchSystem (X : Externals) (cfg : DbConfig) (dbPool : Bool) :
    System (Config SearchOp.Result World Dispatch HttpResponse)
      (Act Dispatch Choice Replication) :=
  (searchDatabase X cfg).system (serveAny X dbPool)

/-! ## Searches among the other requests -/

namespace Dispatch

/-- The request, if it is not a search. -/
def user? : Dispatch → Option Request
  | .login req => some (.login req)
  | .userRegister req => some (.userRegister req)
  | .userGetId req => some (.userGetId req)
  | .userSearch _ => none

/-- The request as the others see it: a search reads, as a profile read does. -/
def reader : Dispatch → Request
  | .login req => .login req
  | .userRegister req => .userRegister req
  | .userGetId req => .userGetId req
  | .userSearch req => .userGetId req.toHttpRequest

theorem reader_of_user? {q : Dispatch} {r : Request} (h : q.user? = some r) : q.reader = r := by
  cases q <;> cases h <;> rfl

/-- Who registers is registered. -/
theorem eq_of_reader {q : Dispatch} {req : HttpRequest} (h : q.reader = .userRegister req) :
    q = .userRegister req := by
  cases q <;> cases h
  rfl

end Dispatch

/-- The answered requests among these that are not searches. -/
def userAnswers (before : List (Dispatch × HttpResponse)) : List (Request × HttpResponse) :=
  before.filterMap fun x => x.1.user?.map fun r => (r, x.2)

theorem mem_userAnswers {before : List (Dispatch × HttpResponse)} {r : Request}
    {res : HttpResponse} :
    (r, res) ∈ userAnswers before ↔ ∃ q, (q, res) ∈ before ∧ q.user? = some r := by
  simp only [userAnswers, List.mem_filterMap, Option.map_eq_some_iff, Prod.mk.injEq]
  constructor
  · rintro ⟨⟨q, res'⟩, hmem, r', hr, rfl, rfl⟩
    exact ⟨q, hmem, hr⟩
  · rintro ⟨q, hmem, hr⟩
    exact ⟨(q, res), hmem, r, hr, rfl, rfl⟩

/-- The discipline of the database, for all requests. -/
def searchDiscipline (X : Externals) (cfg : DbConfig) : Discipline Dispatch World where
  inv qs w := Consistent X cfg (qs.map Dispatch.reader) w
  rely := Kept
  refl := (discipline X cfg).refl
  trans := (discipline X cfg).trans

theorem extends_database (X : Externals) (cfg : DbConfig) :
    Extends SearchOp.db (fun _ r => r) Dispatch.reader (database X cfg) (discipline X cfg)
      (searchDatabase X cfg) (searchDiscipline X cfg) where
  perform h := h
  inv := Iff.rfl
  rely := Iff.rfl

/-! ## The calls of a search -/

section rules

variable {X : Externals} {cfg : DbConfig} {i : Nat} {P : Assertion} {qs : List Dispatch}
  {w : World}

/-- An assertion, of the requests as the others see them. -/
def Seen (P : Assertion) : List Dispatch → World → Prop := fun qs w => P (qs.map Dispatch.reader) w

/-- A call that the other handlers make too. -/
theorem wp_searchPerform {e : Op} {Q : e.Result → Assertion} (hP : Carried i P) (hp : Seen P qs w)
    {rows : List UserRow} (htx : w.tx i = rows)
    (hallowed : ∀ qs w, P qs w → Allowed X i e qs w)
    (hres : ∀ qs w choice r w', Consistent X cfg qs w → P qs w → w.tx i = rows → Own i w w' →
      perform X i w e choice = some (r, w') → Q r qs w') :
    wp (searchDatabase X cfg) (searchDiscipline X cfg) i (fun r => Seen (Q r))
      (Program.call (R := SearchOp.Result) (.db e)) qs w :=
  wp_along (extends_database X cfg) (wp_perform hP hp htx hallowed hres)

/-- A node holds some earlier state of the master's table, the master the present one. -/
theorem World.table_eq_take (w : World) (conn : Connection) :
    ∃ n ≤ w.log.length, w.table conn = w.log.take n ∧
      (conn.nodeType = .master → n = w.log.length) := by
  unfold World.table
  cases conn.nodeType with
  | master => exact ⟨w.log.length, le_rfl, List.take_length.symm, fun _ => rfl⟩
  | replica =>
      refine ⟨min (w.replicated conn.nodeNum) w.log.length, min_le_right _ _, ?_, fun h => ?_⟩
      · rw [← List.take_eq_take_min]
      · cases h

/-- `tx.exec` of the search: the rows are what the query gives on some earlier state of the master's
table, and on the present one if the connection is to the master. -/
theorem execSearch_spec (hP : Carried i P) (hp : Seen P qs w) (htx : w.tx i = [])
    (sc : ScopedConnection) (firstName secondName : Bytes) :
    wpE (searchDatabase X cfg) (searchDiscipline X cfg) i
      (fun rows => Seen fun qs w => P qs w ∧ ∃ n ≤ w.log.length,
        selectLike UserRow.id (·.firstName) (·.secondName) (w.log.take n) firstName secondName =
          .ok rows ∧ (sc.conn.nodeType = .master → n = w.log.length))
      (fun _ => Seen fun qs w => P qs w ∧ Threw i qs w)
      (SearchM.execSearch sc firstName secondName) qs w := by
  have htxStable : (discipline X cfg).Stable i fun _ w => w.tx i = [] :=
    fun _ _ _ _ hl htx => hl.world.tx.trans htx
  refine wp_call ((extends_database X cfg).stable (hP.stable.and htxStable)) ⟨hp, htx⟩
    fun qs w choice r w' hinv hpre hperf => ?_
  obtain ⟨hp, htx⟩ := hpre
  have hsend : Consistent X cfg (qs.map Dispatch.reader) (w.send .select sc.conn) :=
    Consistent.send hinv fun he => by cases he
  obtain ⟨rows, hrows, rfl, rfl⟩ | ⟨what, rfl, rfl⟩ := perform_search hperf
  · have hown : Own i w (w.send .select sc.conn) := .send _ _
    refine ⟨hsend, fun j hj => hown.kept hj, hP.own hown rfl hp, ?_⟩
    obtain ⟨n, hn, htable, hmaster⟩ := w.table_eq_take sc.conn
    rw [htx, List.append_nil, htable] at hrows
    exact ⟨n, hn, hrows, hmaster⟩
  · have hown : Own i w ((w.send .select sc.conn).record i (.external what)) :=
      (Own.send _ _).trans (.record _)
    exact ⟨hsend.external what, fun j hj => hown.kept hj, hP.own hown rfl hp, threw_record _ _ _⟩

end rules

end SocialNetwork.App
