import SocialNetwork.App.Counters
import SocialNetwork.Db.HostTags
import SocialNetwork.Foundation.Journal
import SocialNetwork.Helpers.UrlText
import Mathlib.Algebra.BigOperators.Group.Finset.Basic

/-!
# Requests are counted at the host that serves them

In each of the four handlers `metrics_->count_request_to_host(scoped_conn.node_tag)` follows the line
that makes the `ScopedConnection`. Here the handlers of `Handlers.lean` and `Search.lean` are written
again with that line, in the namespace `Counting`; between the two lines, other requests may run. What
every other call gives back, a value or an exception, is up to the outside.

They are the handlers without the line, made to note each connection that they obtain
(`countingHandler_eq`), so that what `Foundation.Journal` says of such programs holds of them.

The tags of `db_start` go into the nodes of the pool on the one side and into `db_host_tags`, from which
`Metrics` makes its counters, on the other. A connection carries the tag of its node, so its counter
exists, and no connection is left out (`host_counters_lose_nothing`).
-/

namespace SocialNetwork.App

open Foundation Helpers Pool

/-! ## `Metrics` -/

/-- `total_requests_to_host_`: the counter of a tag, if there is one. -/
abbrev HostCounters := Bytes → Option Nat

namespace HostCounters

/-- The constructor of `Metrics`: a counter for each tag. -/
def new (tags : List Bytes) : HostCounters := fun tag => if tag ∈ tags then some 0 else none

/-- `count_request_to_host`. -/
def countRequestToHost (tag : Bytes) (counters : HostCounters) : HostCounters :=
  match counters tag with
  | some n => Function.update counters tag (some (n + 1))
  | none => counters

end HostCounters

/-! ## The handlers -/

/-- The calls of the other handlers, among those of the search. -/
abbrev fromDb : Translation Op.Result SearchOp.Result := .along SearchOp.db fun _ r => r

namespace Counting

/-- A piece of a handler with `count_request_to_host`. -/
abbrev CountM := ExceptT Bytes (Program (Noted.Result SearchOp.Result ScopedConnection))

/-- `metrics_->count_request_to_host(scoped_conn.node_tag)`. -/
def countRequestToHost (sc : ScopedConnection) : CountM Unit :=
  ExceptT.mk ((Program.call (.note sc)).bind fun _ => .ret (.ok ()))

/-- A piece of the search handler in which there is no such line. -/
def search {α : Type} (x : SearchM α) : CountM α :=
  (Translation.along Noted.call fun _ r => r).mapE x

/-- A piece of another handler in which there is no such line. -/
def db {α : Type} (x : DbM α) : CountM α := search (fromDb.mapE x)

/-- A block that begins with `ScopedConnection scoped_conn(db_pool_, preferred)`. -/
def withScopedConnection {α : Type} (preferred : NodeType) (body : ScopedConnection → CountM α) :
    CountM α := do
  let sc ← search (SearchM.getConnection preferred)
  Program.andFinally (body sc) (Program.call (Noted.call (SearchOp.db (.release sc))))

/-- `App::login_handler`. -/
def loginHandler (X : Externals) (req : HttpRequest) (res : HttpResponse) :
    CountM (Bool × HttpResponse) :=
  loginHandlerWith X true req res fun id pwd =>
    withScopedConnection .replica fun sc => do
      countRequestToHost sc
      db (withWork sc do
        let result ← execSelect sc id
        pure (loginResult X pwd res result))

/-- `App::user_register_handler`. -/
def userRegisterHandler (X : Externals) (req : HttpRequest) (res : HttpResponse) :
    CountM (Bool × HttpResponse) :=
  userRegisterHandlerWith X true req res fun pwd fname sname bdate bio city => do
    let hashedPwd ← db (generateHash pwd 12)
    withScopedConnection .master fun sc => do
      countRequestToHost sc
      db (withWork sc do
        let result ← execInsert sc ⟨fname, sname, bdate, bio, city, hashedPwd⟩
        commit
        pure (registerResult fname sname res result))

/-- `App::user_get_id_handler`. -/
def userGetIdHandler (req : HttpRequest) (res : HttpResponse) : CountM (Bool × HttpResponse) :=
  userGetIdHandlerWith true req res fun id =>
    withScopedConnection .replica fun sc => do
      countRequestToHost sc
      db (withWork sc do
        let result ← execSelect sc id
        pure (getResult id res result))

/-- `App::user_search_handler`. -/
def userSearchHandler (req : SearchRequest) (res : HttpResponse) : CountM (Bool × HttpResponse) :=
  userSearchHandlerWith true req res fun firstName secondName =>
    withScopedConnection .replica fun sc => do
      countRequestToHost sc
      search do
        SearchM.beginWork sc
        Program.andFinally (do
          let result ← SearchM.execSearch sc firstName secondName
          pure (searchResult res result)) (Program.call (SearchOp.db .endWork))

end Counting

/-- The handler of a request, once `db_start` has made the pool. -/
def countingHandler (X : Externals) :
    Dispatch → Program (Noted.Result SearchOp.Result ScopedConnection)
      (Except Bytes (Bool × HttpResponse))
  | .login req => (Counting.loginHandler X req .fresh).run
  | .userRegister req => (Counting.userRegisterHandler X req .fresh).run
  | .userGetId req => (Counting.userGetIdHandler req .fresh).run
  | .userSearch req => (Counting.userSearchHandler req .fresh).run

/-! ## The pool and the counters -/

/-- The connection that a call gives back. -/
def scopedConn : (e : SearchOp) → e.Result → Option ScopedConnection
  | .db (.getConnection _), .ok sc => some sc
  | _, _ => none

/-- What the handlers share. The last field only records what happened. -/
structure HostWorld where
  /-- `db_pool_` and the live `ScopedConnection`s, each with the request that made it. -/
  pool : PoolState
  /-- `total_requests_to_host_`. -/
  counters : HostCounters
  /-- The tags for which `count_request_to_host` found no counter. -/
  unknown : List Bytes

/-- `count_request_to_host(scoped_conn.node_tag)`. -/
def countConnection (sc : ScopedConnection) (w : HostWorld) : HostWorld :=
  { w with
    counters := HostCounters.countRequestToHost sc.nodeTag w.counters
    unknown := if (w.counters sc.nodeTag).isNone then w.unknown ++ [sc.nodeTag] else w.unknown }

/-- What a call of the `i`-th request does. -/
def performHost (i : Nat) (w : HostWorld) : (e : SearchOp) → Answers → Option (e.Result × HostWorld)
  | .db (.getConnection preferred), _ =>
      match ScopedConnection.new w.pool.pool preferred with
      | (p, .ok sc) => some (.ok sc, { w with pool := ⟨p, w.pool.live ++ [(i, sc)]⟩ })
      | (p, .error what) => some (.error what, { w with pool := ⟨p, w.pool.live⟩ })
  | .db (.release sc), _ =>
      some ((), { w with
        pool := (w.pool.next (.destroy (w.pool.live.idxOf (i, sc)))).getD w.pool })
  | e, answers => some (answers e, w)

/-- The pool and the counters as `db_start` and `http_start` make them. -/
def hostMachine (cfg : PoolConfig) (tags : List Bytes) :
    Machine SearchOp.Result HostWorld Answers Empty where
  start := ⟨cfg.start, HostCounters.new tags, []⟩
  perform := performHost
  background _ b := b.elim

/-- The server: its world, the connections that the handlers have obtained, those that they have
counted, and the handlers that are running. -/
abbrev HostServer := Config (Noted.Result SearchOp.Result ScopedConnection)
  (Journal HostWorld ScopedConnection) Dispatch (Except Bytes (Bool × HttpResponse))

/-- The four handlers, in any number and any order. -/
def HostSystem (X : Externals) (cfg : PoolConfig) (tags : List Bytes) :
    System HostServer (Act Dispatch Answers Empty) :=
  ((hostMachine cfg tags).noted scopedConn countConnection).system (countingHandler X)

/-- The arguments of the `ConnectionPool`; `pool_size` is a `size_t`. -/
def poolConfig (masters replicas : ConnectionStrCollection) (threads : Int) : PoolConfig :=
  ⟨masters, replicas, (threads % 2 ^ 64).toNat⟩

/-- The tag of the node that a connection was obtained from. -/
def nodeTag (cfg : PoolConfig) (sc : ScopedConnection) : Option Bytes :=
  (cfg.nodes sc.nodeType)[sc.nodeNum]?.map Prod.snd

/-- How many of these connections come from nodes with the tag. -/
def fromHost (cfg : PoolConfig) (tag : Bytes) (conns : List ScopedConnection) : Nat :=
  conns.countP fun sc => nodeTag cfg sc = some tag

/-! ## The handlers note their connections -/

/-- The handler of a request without `count_request_to_host`. -/
def handlerProgram (X : Externals) :
    Dispatch → Program SearchOp.Result (Except Bytes (Bool × HttpResponse))
  | .login req => withSearch (loginHandler X true req .fresh).run
  | .userRegister req => withSearch (userRegisterHandler X true req .fresh).run
  | .userGetId req => withSearch (userGetIdHandler true req .fresh).run
  | .userSearch req => (userSearchHandler true req .fresh).run

/-! ### Translated handlers -/

section translations

variable {E E' : Type} {R : E → Type} {R' : E' → Type} (T : Translation R R') (X : Externals)
  (dbPool : Bool) (res : HttpResponse)

/-- The end of a handler is translated in its `try` block. -/
theorem mapE_tryQuery (block : ExceptT Bytes (Program R) TryResult) :
    T.mapE (tryQuery res block) = tryQuery res (T.mapE block) := by
  simp only [tryQuery, T.mapE_bind, T.mapE_tryCatch, T.mapE_pure]

/-- `login_handler` is translated in its `try` block. -/
theorem mapE_loginHandlerWith (req : HttpRequest)
    (block : Bytes → Bytes → ExceptT Bytes (Program R) TryResult) :
    T.mapE (loginHandlerWith X dbPool req res block) =
      loginHandlerWith X dbPool req res fun id pwd => T.mapE (block id pwd) := by
  unfold loginHandlerWith
  split
  · exact T.mapE_throw _
  · split_ifs
    · exact T.mapE_pure _
    · exact T.mapE_pure _
    · exact T.mapE_pure _
    · exact T.mapE_pure _
    · exact mapE_tryQuery T res _

/-- `user_register_handler` is translated in its `try` block. -/
theorem mapE_userRegisterHandlerWith (req : HttpRequest)
    (block : Bytes → Bytes → Bytes → Bytes → Bytes → Bytes → ExceptT Bytes (Program R) TryResult) :
    T.mapE (userRegisterHandlerWith X dbPool req res block) =
      userRegisterHandlerWith X dbPool req res fun pwd fname sname bdate bio city =>
        T.mapE (block pwd fname sname bdate bio city) := by
  unfold userRegisterHandlerWith
  split
  · exact T.mapE_throw _
  · split_ifs
    · exact T.mapE_pure _
    · exact T.mapE_pure _
    · exact T.mapE_pure _
    · exact T.mapE_pure _
    · exact T.mapE_pure _
    · exact mapE_tryQuery T res _

/-- `user_get_id_handler` is translated in its `try` block. -/
theorem mapE_userGetIdHandlerWith (req : HttpRequest)
    (block : Bytes → ExceptT Bytes (Program R) TryResult) :
    T.mapE (userGetIdHandlerWith dbPool req res block) =
      userGetIdHandlerWith dbPool req res fun id => T.mapE (block id) := by
  unfold userGetIdHandlerWith
  split
  · exact T.mapE_pure _
  · split_ifs
    · exact T.mapE_pure _
    · exact T.mapE_pure _
    · exact mapE_tryQuery T res _

/-- `user_search_handler` is translated in its `try` block. -/
theorem mapE_userSearchHandlerWith (req : SearchRequest)
    (block : Bytes → Bytes → ExceptT Bytes (Program R) TryResult) :
    T.mapE (userSearchHandlerWith dbPool req res block) =
      userSearchHandlerWith dbPool req res fun firstName secondName =>
        T.mapE (block firstName secondName) := by
  unfold userSearchHandlerWith
  split_ifs
  · exact T.mapE_pure _
  · exact T.mapE_pure _
  · exact mapE_tryQuery T res _

end translations

/-! ### Blocks -/

section blocks

variable {α : Type} (sc : ScopedConnection)

/-- The other handlers obtain a connection as the search does. -/
theorem fromDb_withScopedConnection (preferred : NodeType) (body : ScopedConnection → DbM α) :
    fromDb.mapE (withScopedConnection preferred body) = (do
      let sc ← SearchM.getConnection preferred
      Program.andFinally (fromDb.mapE (body sc)) (Program.call (SearchOp.db (.release sc)))) := by
  refine (fromDb.mapE_bind _ _).trans (congrArg (_ >>= ·) (funext fun sc => ?_))
  exact fromDb.mapE_andFinally (body sc) (Program.call (Op.release sc))

/-- The line after the `ScopedConnection` notes it. -/
theorem noted_withScopedConnection (preferred : NodeType) (body : ScopedConnection → SearchM α) :
    (Translation.noted scopedConn).mapE (do
      let sc ← SearchM.getConnection preferred
      Program.andFinally (body sc) (Program.call (SearchOp.db (.release sc)))) =
      (Counting.withScopedConnection preferred fun sc => do
        Counting.countRequestToHost sc
        (Translation.noted scopedConn).mapE (body sc)) := by
  refine congrArg (Program.op _) (funext fun r => ?_)
  cases r with
  | error what => rfl
  | ok sc =>
      exact congrArg (Program.op (.note sc)) (funext fun _ =>
        (Translation.noted scopedConn).mapE_andFinally (body sc) _)

/-- The rest of a block gets no connection. -/
theorem noted_search {x : SearchM α} (h : x.run.Silent scopedConn) :
    (Translation.noted scopedConn).mapE x = Counting.search x := h.noted_eq

/-- A statement in a transaction gets no connection. -/
theorem silent_withWork {body : DbM α} (h : (fromDb.mapE body).run.Silent scopedConn) :
    (fromDb.mapE (withWork sc body)).run.Silent scopedConn := by
  refine fun r => ⟨rfl, ?_⟩
  cases r with
  | error what => trivial
  | ok u =>
      have hblock : fromDb.mapE (Program.andFinally body (Program.call Op.endWork)) = _ :=
        fromDb.mapE_andFinally body _
      change (fromDb.mapE (Program.andFinally body (Program.call Op.endWork))).run.Silent scopedConn
      exact hblock ▸ Program.Silent.bind scopedConn h fun r u => ⟨rfl, trivial⟩

/-- A `SELECT` gets no connection. -/
theorem silent_execSelect (id : Bytes) (result : List UserRow → α) :
    (fromDb.mapE (do
      let rows ← execSelect sc id
      pure (result rows))).run.Silent scopedConn := by
  refine fun r => ⟨rfl, ?_⟩
  cases r with
  | error what => trivial
  | ok rows => trivial

/-- An `INSERT` and its `COMMIT` get no connection. -/
theorem silent_execInsert (columns : UserColumns) (result : List Bytes → α) :
    (fromDb.mapE (do
      let ids ← execInsert sc columns
      commit
      pure (result ids))).run.Silent scopedConn := by
  refine fun r => ⟨rfl, ?_⟩
  cases r with
  | error what => trivial
  | ok ids =>
      refine fun r => ⟨rfl, ?_⟩
      cases r with
      | error what => trivial
      | ok u => trivial

/-- The search in its transaction gets no connection. -/
theorem silent_searchWork (firstName secondName : Bytes) (result : List UserRow → α) :
    (do
      SearchM.beginWork sc
      Program.andFinally (do
        let rows ← SearchM.execSearch sc firstName secondName
        pure (result rows)) (Program.call (SearchOp.db .endWork)) : SearchM α).run.Silent
      scopedConn := by
  refine fun r => ⟨rfl, ?_⟩
  cases r with
  | error what => trivial
  | ok u =>
      refine fun r => ⟨rfl, ?_⟩
      cases r with
      | error what => exact fun u => ⟨rfl, trivial⟩
      | ok rows => exact fun u => ⟨rfl, trivial⟩

end blocks

/-- A block of the other handlers, in which one statement runs. -/
theorem noted_block {α : Type} (preferred : NodeType) {body : ScopedConnection → DbM α}
    (h : ∀ sc, (fromDb.mapE (body sc)).run.Silent scopedConn) :
    (Translation.noted scopedConn).mapE (fromDb.mapE (withScopedConnection preferred fun sc =>
      withWork sc (body sc))) =
      (Counting.withScopedConnection preferred fun sc => do
        Counting.countRequestToHost sc
        Counting.db (withWork sc (body sc))) := by
  rw [fromDb_withScopedConnection, noted_withScopedConnection]
  refine congrArg (Counting.withScopedConnection preferred) (funext fun sc => ?_)
  exact congrArg (_ >>= ·) (funext fun _ => noted_search (silent_withWork sc (h sc)))

/-! ### Handlers -/

/-- `login_handler` counts what it obtains. -/
theorem counting_loginHandler (X : Externals) (req : HttpRequest) (res : HttpResponse) :
    Counting.loginHandler X req res =
      (Translation.noted scopedConn).mapE (fromDb.mapE (loginHandler X true req res)) := by
  rw [loginHandler, mapE_loginHandlerWith, mapE_loginHandlerWith]
  refine congrArg (loginHandlerWith X true req res) (funext fun id => funext fun pwd => ?_)
  exact (noted_block .replica fun sc => silent_execSelect sc id _).symm

/-- `user_register_handler` counts what it obtains. -/
theorem counting_userRegisterHandler (X : Externals) (req : HttpRequest) (res : HttpResponse) :
    Counting.userRegisterHandler X req res =
      (Translation.noted scopedConn).mapE (fromDb.mapE (userRegisterHandler X true req res)) := by
  rw [userRegisterHandler, mapE_userRegisterHandlerWith, mapE_userRegisterHandlerWith]
  refine congrArg (userRegisterHandlerWith X true req res) (funext fun pwd => funext fun fname =>
    funext fun sname => funext fun bdate => funext fun bio => funext fun city => ?_)
  rw [fromDb.mapE_bind, (Translation.noted scopedConn).mapE_bind]
  refine congrArg (_ >>= ·) (funext fun hashedPwd => ?_)
  exact (noted_block .master fun sc => silent_execInsert sc _ _).symm

/-- `user_get_id_handler` counts what it obtains. -/
theorem counting_userGetIdHandler (req : HttpRequest) (res : HttpResponse) :
    Counting.userGetIdHandler req res =
      (Translation.noted scopedConn).mapE (fromDb.mapE (userGetIdHandler true req res)) := by
  rw [userGetIdHandler, mapE_userGetIdHandlerWith, mapE_userGetIdHandlerWith]
  refine congrArg (userGetIdHandlerWith true req res) (funext fun id => ?_)
  exact (noted_block .replica fun sc => silent_execSelect sc id _).symm

/-- `user_search_handler` counts what it obtains. -/
theorem counting_userSearchHandler (req : SearchRequest) (res : HttpResponse) :
    Counting.userSearchHandler req res =
      (Translation.noted scopedConn).mapE (userSearchHandler true req res) := by
  rw [userSearchHandler, mapE_userSearchHandlerWith]
  refine congrArg (userSearchHandlerWith true req res)
    (funext fun firstName => funext fun secondName => ?_)
  refine Eq.trans ?_ (noted_withScopedConnection .replica _).symm
  refine congrArg (Counting.withScopedConnection .replica) (funext fun sc => ?_)
  exact congrArg (_ >>= ·) (funext fun _ => (noted_search (silent_searchWork sc _ _ _)).symm)

/-- **The handlers count each connection that they obtain**, right after they have obtained it. -/
theorem countingHandler_eq (X : Externals) (q : Dispatch) :
    countingHandler X q = (handlerProgram X q).noted scopedConn := by
  cases q with
  | login req => exact congrArg ExceptT.run (counting_loginHandler X req .fresh)
  | userRegister req => exact congrArg ExceptT.run (counting_userRegisterHandler X req .fresh)
  | userGetId req => exact congrArg ExceptT.run (counting_userGetIdHandler req .fresh)
  | userSearch req => exact congrArg ExceptT.run (counting_userSearchHandler req .fresh)

/-- Counting changes nothing for a request. -/
theorem countingHandler_eval (X : Externals) (q : Dispatch) (answers : Answers) :
    (countingHandler X q).eval (Program.noting answers) = handled X true answers q := by
  rw [countingHandler_eq, Program.eval_noted]
  cases q with
  | login req => exact Program.eval_along _ _ answers _
  | userRegister req => exact Program.eval_along _ _ answers _
  | userGetId req => exact Program.eval_along _ _ answers _
  | userSearch req => rfl

/-! ## The invariant -/

/-- `count_request_to_host` adds one to the counter of the tag, if there is one, and to no other. -/
theorem countRequestToHost_apply (tag x : Bytes) (counters : HostCounters) :
    HostCounters.countRequestToHost tag counters x =
      (counters x).map fun n => n + if tag = x then 1 else 0 := by
  unfold HostCounters.countRequestToHost
  by_cases hx : tag = x
  · subst hx
    cases hcounter : counters tag with
    | none => simp [hcounter]
    | some n => simp
  · cases counters tag with
    | none => simp [hx]
    | some n => simp [Function.update_of_ne (Ne.symm hx), hx]

/-- A call touches no counter, and a connection that it gives back has the tag of its node. -/
theorem performHost_spec {cfg : PoolConfig} {i : Nat} {w w' : HostWorld} {e : SearchOp}
    {answers : Answers} {r : e.Result} (h : performHost i w e answers = some (r, w'))
    (hpool : Conserved cfg w.pool) :
    w'.counters = w.counters ∧ w'.unknown = w.unknown ∧ Conserved cfg w'.pool ∧
      ∀ sc, scopedConn e r = some sc → nodeTag cfg sc = some sc.nodeTag := by
  cases e with
  | search sc firstName secondName =>
      cases h
      exact ⟨rfl, rfl, hpool, fun sc hsc => by cases hsc⟩
  | db e =>
      cases e with
      | getConnection preferred =>
          simp only [performHost] at h
          split at h
          · rename_i p sc hnew
            cases h
            have hnext : Conserved cfg ⟨p, w.pool.live ++ [(i, sc)]⟩ :=
              hpool.next (a := .construct i preferred) (by simp only [PoolState.next, hnew])
            refine ⟨rfl, rfl, hnext, fun sc' hsc => ?_⟩
            cases hsc
            exact hnext.handle (i, sc) (List.mem_append_right _ (List.mem_singleton_self _))
          · rename_i p what hnew
            cases h
            have hnext : Conserved cfg ⟨p, w.pool.live⟩ :=
              hpool.next (a := .construct i preferred) (by simp only [PoolState.next, hnew])
            exact ⟨rfl, rfl, hnext, fun sc hsc => by cases hsc⟩
      | release sc =>
          cases h
          refine ⟨rfl, rfl, ?_, fun sc hsc => by cases hsc⟩
          dsimp only
          cases hnext : w.pool.next (.destroy (w.pool.live.idxOf (i, sc))) with
          | none => exact hpool
          | some s => exact hpool.next hnext
      | _ =>
          cases h
          exact ⟨rfl, rfl, hpool, fun sc hsc => by cases hsc⟩

/-- The invariant of every run. -/
structure HostsCounted (cfg : PoolConfig) (tags : List Bytes)
    (w : Journal HostWorld ScopedConnection) : Prop where
  pool : Conserved cfg w.world.pool
  tag : ∀ sc ∈ w.due, nodeTag cfg sc = some sc.nodeTag
  counters : ∀ tag, w.world.counters tag =
    if tag ∈ tags then some (w.written.countP fun sc => sc.nodeTag = tag) else none
  unknown : w.world.unknown =
    (w.written.filter fun sc => sc.nodeTag ∉ tags).map ScopedConnection.nodeTag

/-- The invariant holds in every run. -/
theorem hostsCounted (X : Externals) {cfg : PoolConfig} {tags : List Bytes} {c : HostServer}
    (hc : (HostSystem X cfg tags).Reachable c) : HostsCounted cfg tags c.world := by
  refine Machine.world_invariant (I := HostsCounted cfg tags) ?_ ?_ ?_ hc
  · exact ⟨conserved_start cfg, fun sc hsc => absurd hsc List.not_mem_nil, fun tag => rfl, rfl⟩
  · rintro i w (e | sc) answers r w' h hperf
    · obtain ⟨⟨r', world⟩, hcall, heq⟩ := Option.map_eq_some_iff.mp hperf
      cases heq
      obtain ⟨hcounters, hunknown, hpool, htag⟩ := performHost_spec hcall h.pool
      refine ⟨hpool, fun sc hsc => ?_, fun tag => ?_, ?_⟩
      · rcases List.mem_append.mp hsc with hsc | hsc
        · exact h.tag sc hsc
        · exact htag sc (Option.mem_toList.mp hsc)
      · exact (congrFun hcounters tag).trans (h.counters tag)
      · exact hunknown.trans h.unknown
    · cases hperf
      refine ⟨h.pool, h.tag, fun tag => ?_, ?_⟩
      · change HostCounters.countRequestToHost sc.nodeTag w.world.counters tag = _
        rw [countRequestToHost_apply, h.counters, List.countP_append, List.countP_singleton]
        by_cases htag : tag ∈ tags
        · simp [htag]
        · simp [htag]
      · change (if (w.world.counters sc.nodeTag).isNone then w.world.unknown ++ [sc.nodeTag]
          else w.world.unknown) = _
        rw [h.counters, h.unknown, List.filter_append, List.map_append]
        by_cases htag : sc.nodeTag ∈ tags
        · simp [htag]
        · simp [htag]
  · rintro w b
    exact b.elim

/-! ## No request is lost -/

/-- The counters of the hosts, against the connections that the handlers have obtained. -/
structure CountsHosts (cfg : PoolConfig) (tags : List Bytes) (c : HostServer) : Prop where
  /-- The counters are those of the nodes. -/
  hosts : ∀ tag, tag ∈ tags ↔ ∃ t, ∃ node ∈ cfg.nodes t, node.2 = tag
  /-- `count_request_to_host` has always found its counter. -/
  known : c.world.world.unknown = []
  /-- A counter lacks only the handlers between the two lines. -/
  balance : ∀ tag ∈ tags, ∃ n, c.world.world.counters tag = some n ∧
    n + fromHost cfg tag c.pending = fromHost cfg tag c.world.due
  total : (tags.map fun tag => (c.world.world.counters tag).getD 0).sum + c.pending.length =
    c.world.due.length
  /-- When no handler is between them, the counters are exact, and they add up. -/
  counted : c.pending = [] →
    (∀ tag ∈ tags, c.world.world.counters tag = some (fromHost cfg tag c.world.due)) ∧
      (tags.map fun tag => (c.world.world.counters tag).getD 0).sum = c.world.due.length
  /-- So it is when all handlers have returned. -/
  returned : (∀ p ∈ c.procs, ∃ result, p.prog = .ret result) → c.pending = []

/-- The connections from the nodes of a tag are those with the tag. -/
theorem fromHost_eq {cfg : PoolConfig} {conns : List ScopedConnection}
    (h : ∀ sc ∈ conns, nodeTag cfg sc = some sc.nodeTag) (tag : Bytes) :
    fromHost cfg tag conns = conns.countP fun sc => sc.nodeTag = tag := by
  refine List.countP_congr fun sc hsc => ?_
  rw [h sc hsc, decide_eq_true_eq, decide_eq_true_eq, Option.some.injEq]

/-- Counts by a label add up to the length, if every label is counted once. -/
theorem sum_countP_labels {α β : Type} [DecidableEq β] (f : α → β) {labels : List β}
    (hnodup : labels.Nodup) {l : List α} (h : ∀ x ∈ l, f x ∈ labels) :
    (labels.map fun b => l.countP fun x => f x = b).sum = l.length := by
  have hcount (b : β) : (l.countP fun x => f x = b) = (l.map f : Multiset β).count b := by
    rw [Multiset.coe_count, List.count_eq_countP, List.countP_map]
    refine List.countP_congr fun x _ => ?_
    simp
  have hlabels : ∀ b ∈ (l.map f : Multiset β), b ∈ labels.toFinset := by
    intro b hb
    obtain ⟨x, hx, rfl⟩ := List.mem_map.mp hb
    exact List.mem_toFinset.mpr (h x hx)
  rw [← List.sum_toFinset _ hnodup]
  simp only [hcount]
  rw [Multiset.sum_count_eq_card hlabels, Multiset.coe_card, List.length_map]

/-- The tags of the pool's nodes are those of `db_host_tags`. -/
theorem mem_dbHostTags {cfg : Config.ConfigS} {masters replicas : ConnectionStrCollection}
    {threads : Int} {tags : List Bytes}
    (hstart : (Db.startNodes cfg).run [] = .ok (masters, replicas, threads) tags) (tag : Bytes) :
    tag ∈ tags ↔ ∃ t, ∃ node ∈ (poolConfig masters replicas threads).nodes t, node.2 = tag := by
  obtain ⟨-, rfl⟩ := Db.startNodes_run_iff.mp hstart
  rw [Db.mem_insertTags]
  constructor
  · rintro (hnil | ⟨node, hnode, htag⟩)
    · exact absurd hnil List.not_mem_nil
    · rcases List.mem_append.mp hnode with hnode | hnode
      · exact ⟨.master, node, hnode, htag⟩
      · exact ⟨.replica, node, hnode, htag⟩
  · rintro ⟨t, node, hnode, htag⟩
    cases t with
    | master => exact .inr ⟨node, List.mem_append_left _ hnode, htag⟩
    | replica => exact .inr ⟨node, List.mem_append_right _ hnode, htag⟩

/-- A connection that was obtained from a node has one of the tags. -/
theorem mem_of_nodeTag {cfg : PoolConfig} {tags : List Bytes}
    (hhosts : ∀ tag, tag ∈ tags ↔ ∃ t, ∃ node ∈ cfg.nodes t, node.2 = tag) {sc : ScopedConnection}
    (h : nodeTag cfg sc = some sc.nodeTag) : sc.nodeTag ∈ tags := by
  obtain ⟨node, hnode, htag⟩ := Option.map_eq_some_iff.mp h
  exact (hhosts _).mpr ⟨_, node, List.mem_of_getElem? hnode, htag⟩

/-- **Per-host counters lose no request.** With any nodes that `db_start` accepts, in every run of the
four handlers, in any interleaving and with any outcome of their other calls, the counter of a host is
the number of connections obtained from its nodes, less the handlers that are about to count theirs.
Source: `App::db_start`, `Metrics`, `ConnectionPool::get_connection`, `ScopedConnection` -/
theorem host_counters_lose_nothing (X : Externals) {cfg : Config.ConfigS}
    {masters replicas : ConnectionStrCollection} {threads : Int} {tags : List Bytes}
    (hstart : (Db.startNodes cfg).run [] = .ok (masters, replicas, threads) tags) {c : HostServer}
    (hc : (HostSystem X (poolConfig masters replicas threads) tags).Reachable c) :
    CountsHosts (poolConfig masters replicas threads) tags c := by
  have hinv := hostsCounted X hc
  have hperm : c.world.due.Perm (c.world.written ++ c.pending) := by
    rw [HostSystem, funext (countingHandler_eq X)] at hc
    exact Machine.noted_perm hc
  have hhosts := mem_dbHostTags hstart
  have hnodup : tags.Nodup := by
    obtain ⟨-, rfl⟩ := Db.startNodes_run_iff.mp hstart
    exact Db.nodup_insertTags _
  have hwritten : ∀ sc ∈ c.world.written, nodeTag (poolConfig masters replicas threads) sc =
      some sc.nodeTag := fun sc hsc =>
    hinv.tag sc (hperm.mem_iff.mpr (List.mem_append_left _ hsc))
  have hcounter : ∀ tag ∈ tags, c.world.world.counters tag =
      some (fromHost (poolConfig masters replicas threads) tag c.world.written) := by
    intro tag htag
    rw [hinv.counters, if_pos htag, fromHost_eq hwritten]
  have htotal : (tags.map fun tag => (c.world.world.counters tag).getD 0).sum =
      c.world.written.length := by
    rw [← sum_countP_labels ScopedConnection.nodeTag hnodup fun sc hsc =>
      mem_of_nodeTag hhosts (hwritten sc hsc)]
    refine congrArg List.sum (List.map_congr_left fun tag htag => ?_)
    rw [hinv.counters, if_pos htag, Option.getD_some]
  constructor
  · exact hhosts
  · rw [hinv.unknown, List.map_eq_nil_iff, List.filter_eq_nil_iff]
    intro sc hsc
    simpa using mem_of_nodeTag hhosts (hwritten sc hsc)
  · intro tag htag
    refine ⟨_, hcounter tag htag, ?_⟩
    rw [fromHost, fromHost, fromHost, hperm.countP_eq, List.countP_append]
  · rw [htotal, hperm.length_eq, List.length_append]
  · intro hpending
    rw [hpending, List.append_nil] at hperm
    refine ⟨fun tag htag => ?_, htotal.trans hperm.length_eq.symm⟩
    rw [hcounter tag htag, fromHost, fromHost, hperm.countP_eq]
  · exact Config.pending_eq_nil

/-! ## A run -/

/-- A master, and two replicas on one host. -/
def sharedConfig : Config.ConfigS where
  pgsqlMaster := ⟨str "postgresql://m/db", str "u", str "p"⟩
  pgsqlReplica := [⟨str "postgresql://r/db", str "u", str "p"⟩,
    ⟨str "postgresql://r/copy", str "u", str "p"⟩]
  httpListening := []
  httpThreadsCount := 2
  httpQueueCapacity := 0
  prometheusListening := []
  prometheusPort := 0

/-- What `db_start` makes of one of the nodes. -/
def sharedNode (host dbname : Bytes) : Bytes × Bytes :=
  (Db.connStr (str "u") (str "p") host 5432 dbname, host ++ str ":5432")

/-- The pool of `sharedConfig`. -/
def sharedPool : PoolConfig :=
  poolConfig [sharedNode (str "m") (str "db")]
    [sharedNode (str "r") (str "db"), sharedNode (str "r") (str "copy")] 2

/-- The three nodes have two tags. -/
theorem startNodes_sharedConfig :
    (Db.startNodes sharedConfig).run [] =
      .ok ([sharedNode (str "m") (str "db")],
        [sharedNode (str "r") (str "db"), sharedNode (str "r") (str "copy")], 2)
        [str "m:5432", str "r:5432"] := by
  have hport : decimal 5432 = str "5432" := by
    simp [decimal]
    decide
  have hnode (url host dbname : Bytes) (hpath : chr '%' ∉ chr '/' :: dbname)
      (hparse : Url.parse url =
        .ok ⟨str "postgresql", [], host, 0, decode (chr '/' :: dbname), [], []⟩) :
      Db.nodeConnection ⟨url, str "u", str "p"⟩ = .ok (sharedNode host dbname) := by
    rw [decode_plain hpath] at hparse
    rw [Db.nodeConnection_of_parse hparse (by simp),
      show Url.getPort ⟨str "postgresql", [], host, 0, chr '/' :: dbname, [], []⟩ = 5432 from rfl,
      show (5432 : UInt16).toNat = 5432 from rfl, hport, List.append_assoc]
    rfl
  refine Db.startNodes_run_iff.mpr ⟨?_, rfl⟩
  simp only [Db.dbStart, sharedConfig, List.mapM_cons, List.mapM_nil,
    hnode (str "postgresql://m/db") (str "m") (str "db") (by decide) rfl,
    hnode (str "postgresql://r/db") (str "r") (str "db") (by decide) rfl,
    hnode (str "postgresql://r/copy") (str "r") (str "copy") (by decide) rfl]
  rfl

/-- A request for a profile. -/
def sharedRequest : Dispatch :=
  .userGetId ⟨str "GET", str "/user/get", [],
    [(str "id", str "0f8fad5b-d9cb-469f-a165-70867728950e")]⟩

/-- Two requests that run at the same time. They get their connections; then everything else fails. -/
def sharedRun : List (Act Dispatch Answers Empty) :=
  [.spawn sharedRequest, .spawn sharedRequest] ++
    [0, 1, 1, 0, 0, 1, 1, 0].map fun i => .step i failingAnswers

/-- The two replicas have served one request each, and share a counter. -/
theorem host_counters_lose_nothing_shared :
    ∃ c, (HostSystem sampleExternals sharedPool [str "m:5432", str "r:5432"]).Reachable c ∧
      [str "m:5432", str "r:5432"].map c.world.world.counters = [some 0, some 2] ∧
      CountsHosts sharedPool [str "m:5432", str "r:5432"] c := by
  have hrun : (System.runFrom
      (((hostMachine sharedPool [str "m:5432", str "r:5432"]).noted scopedConn countConnection).next
        (countingHandler sampleExternals))
      ⟨⟨⟨sharedPool.start, HostCounters.new [str "m:5432", str "r:5432"], []⟩, [], []⟩, []⟩
      sharedRun).map (fun c => [str "m:5432", str "r:5432"].map c.world.world.counters) =
        some [some 0, some 2] := by
    decide
  obtain ⟨c, hc, hcounters⟩ := Option.map_eq_some_iff.mp hrun
  have hreach : (HostSystem sampleExternals sharedPool [str "m:5432", str "r:5432"]).Reachable c :=
    .runFrom sharedRun (.init rfl) hc
  exact ⟨c, hreach, hcounters,
    host_counters_lose_nothing sampleExternals startNodes_sharedConfig hreach⟩

end SocialNetwork.App
