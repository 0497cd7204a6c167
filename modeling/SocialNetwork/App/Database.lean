import SocialNetwork.App.Http
import SocialNetwork.Foundation.Program
import SocialNetwork.Pool.Conservation

/-!
# The database behind the handlers

The world that concurrent requests share: the connection pool of `App`, the `users` table of the
master node, its lagging copies on the replicas, and the transactions in progress. `perform` says
what each call of a handler into `ConnectionPool`, pqxx or BCrypt does.

What the outside decides is a `Choice`. In particular a call may throw, and a commit may throw
although it took effect. What is assumed of PostgreSQL:

* an `INSERT` gets an id that no `INSERT` got before, a UUID in canonical text, and stores its text
  columns unchanged (the birth date comes back in whatever form a `DATE` has);
* a commit adds all rows of the transaction to the master's table or none;
* a replica holds some earlier state of the master's table, not necessarily a later one each time;
* a UUID is compared without regard to case.
-/

namespace SocialNetwork.App

open Foundation Helpers Pool

/-- What `db_start` builds the pool from: one master, any number of replicas. -/
structure DbConfig where
  master : Bytes × Bytes
  replicas : ConnectionStrCollection
  poolSize : Nat

/-- The arguments of the constructor of `ConnectionPool` in `db_start`. -/
def DbConfig.pool (cfg : DbConfig) : PoolConfig := ⟨[cfg.master], cfg.replicas, cfg.poolSize⟩

/-! ## The world -/

/-- The parameters of the `INSERT`. -/
structure UserColumns where
  firstName : Bytes
  secondName : Bytes
  birthdate : Bytes
  biography : Bytes
  city : Bytes
  pwdHash : Bytes
  deriving DecidableEq

/-- A row of `users`, and the request whose `INSERT` made it. -/
structure UserRow extends UserColumns where
  owner : Nat
  id : Bytes
  deriving DecidableEq

/-- The two kinds of statement the handlers execute. -/
inductive Statement
  | insert
  | select
  deriving DecidableEq

/-- Why a call threw: no idle connection while these requests held one, or something outside. -/
inductive Failure
  | noConnection (holders : List Nat)
  | external (what : Bytes)
  deriving DecidableEq

/-- The shared state. The last three fields only record what happened. -/
structure World where
  /-- `db_pool_` and the live `ScopedConnection`s, each with the request that made it. -/
  pool : PoolState
  /-- The master's table, in the order of the commits. -/
  log : List UserRow
  /-- How much of `log` each replica has. -/
  replicated : Nat → Nat
  /-- The rows of each request's transaction, not committed yet. -/
  tx : Nat → List UserRow
  /-- The rows of all `INSERT`s that were executed, committed or not. -/
  inserted : List UserRow
  /-- The statements sent, each with the connection it was sent on. -/
  executed : List (Statement × Connection)
  /-- The calls that threw, each with its request. -/
  threw : List (Nat × Failure)

/-- The world before any request: an empty table, and the pool just built. -/
def World.start (cfg : DbConfig) : World where
  pool := cfg.pool.start
  log := []
  replicated _ := 0
  tx _ := []
  inserted := []
  executed := []
  threw := []

namespace World

/-- The committed rows that a statement on this connection sees. -/
def table (w : World) (conn : Connection) : List UserRow :=
  match conn.nodeType with
  | .master => w.log
  | .replica => w.log.take (w.replicated conn.nodeNum)

/-- The live `ScopedConnection`s of a request. -/
def held (w : World) (i : Nat) : List (Nat × ScopedConnection) :=
  w.pool.live.filter fun e => e.1 = i

/-- The requests with a live `ScopedConnection`, once for each. -/
def holders (w : World) : List Nat := w.pool.live.map Prod.fst

/-- The `i`-th request's transaction holds these rows. -/
def setTx (w : World) (i : Nat) (rows : List UserRow) : World :=
  { w with tx := Function.update w.tx i rows }

/-- A call of the `i`-th request throws. -/
def record (w : World) (i : Nat) (cause : Failure) : World :=
  { w with threw := w.threw ++ [(i, cause)] }

/-- A statement is sent. -/
def send (w : World) (s : Statement) (conn : Connection) : World :=
  { w with executed := w.executed ++ [(s, conn)] }

/-- The row of an `INSERT` of the `i`-th request. -/
def addRow (w : World) (i : Nat) (row : UserRow) : World :=
  { w.setTx i (w.tx i ++ [row]) with inserted := w.inserted ++ [row] }

/-- The transaction of the `i`-th request becomes part of the master's table. -/
def publish (w : World) (i : Nat) : World :=
  { w.setTx i [] with log := w.log ++ w.tx i }

/-- `~ScopedConnection()`. -/
def giveBack (w : World) (i : Nat) (sc : ScopedConnection) : World :=
  { w with pool := (w.pool.next (.destroy (w.pool.live.idxOf (i, sc)))).getD w.pool }

end World

/-! ## Operations -/

/-- The calls of the handlers. -/
inductive Op
  /-- `BCrypt::generateHash(pwd, workload)`. -/
  | generateHash (pwd : Bytes) (workload : Nat)
  /-- `ScopedConnection(db_pool_, preferred)`. -/
  | getConnection (preferred : NodeType)
  /-- `pqxx::work tx(*scoped_conn.conn.get())`. -/
  | beginWork (sc : ScopedConnection)
  /-- `tx.exec` of the `INSERT`, on the connection of the transaction. -/
  | insert (sc : ScopedConnection) (columns : UserColumns)
  /-- `tx.exec` of a `SELECT … WHERE id = $1`. -/
  | select (sc : ScopedConnection) (id : Bytes)
  /-- `tx.commit()`. -/
  | commit
  /-- The destructor of `tx`. -/
  | endWork
  /-- The destructor of the `ScopedConnection`. -/
  | release (sc : ScopedConnection)

/-- What a call gives back: a value or an exception, except that destructors do not throw. -/
def Op.Result : Op → Type
  | .generateHash _ _ => Except Bytes Bytes
  | .getConnection _ => Except Bytes ScopedConnection
  | .beginWork _ => Except Bytes Unit
  | .insert _ _ => Except Bytes (List Bytes)
  | .select _ _ => Except Bytes (List UserRow)
  | .commit => Except Bytes Unit
  | .endWork => Unit
  | .release _ => Unit

/-- What the outside decides about one call. -/
inductive Choice
  /-- It does what it should. -/
  | ok
  /-- The salt of a hash. -/
  | salt (value : Bytes)
  /-- The id of a new row, and its birth date as the database writes it. -/
  | row (id birthdate : Bytes)
  /-- The commit takes effect and throws all the same. -/
  | inDoubt (what : Bytes)
  /-- It throws, without effect. -/
  | fail (what : Bytes)

/-- The id of a new row: canonical text of a UUID that no row had before. -/
def World.FreshId (w : World) (id : Bytes) : Prop :=
  isValidUuid id = true ∧ toLowercase id = id ∧ ∀ row ∈ w.inserted, row.id ≠ id

instance (w : World) (id : Bytes) : Decidable (w.FreshId id) := by
  unfold World.FreshId
  infer_instance

/-- What a call of the `i`-th request does. -/
def perform (X : Externals) (i : Nat) (w : World) : (e : Op) → Choice → Option (e.Result × World)
  | .generateHash pwd workload, .salt value => some (.ok (X.generateHash pwd workload value), w)
  | .generateHash _ _, .fail what => some (.error what, w.record i (.external what))
  | .getConnection preferred, .ok =>
      match ScopedConnection.new w.pool.pool preferred with
      | (p, .ok sc) => some (.ok sc, { w with pool := ⟨p, w.pool.live ++ [(i, sc)]⟩ })
      | (p, .error what) =>
          some (.error what,
            ({ w with pool := ⟨p, w.pool.live⟩ }).record i (.noConnection w.holders))
  | .beginWork _, .ok => some (.ok (), w.setTx i [])
  | .beginWork _, .fail what => some (.error what, w.record i (.external what))
  | .insert sc columns, .row id birthdate =>
      if w.FreshId id then
        some (.ok [id],
          (w.send .insert sc.conn).addRow i { columns with birthdate := birthdate, owner := i, id })
      else none
  | .insert sc _, .fail what =>
      some (.error what, (w.send .insert sc.conn).record i (.external what))
  | .select sc id, .ok =>
      some (.ok ((w.table sc.conn ++ w.tx i).filter fun row => row.id = toLowercase id),
        w.send .select sc.conn)
  | .select sc _, .fail what =>
      some (.error what, (w.send .select sc.conn).record i (.external what))
  | .commit, .ok => some (.ok (), w.publish i)
  | .commit, .inDoubt what => some (.error what, (w.publish i).record i (.external what))
  | .commit, .fail what => some (.error what, (w.setTx i []).record i (.external what))
  | .endWork, .ok => some ((), w.setTx i [])
  | .release sc, .ok => some ((), w.giveBack i sc)
  | _, _ => none

/-- No call blocks for good. -/
theorem perform_enabled (X : Externals) (i : Nat) (w : World) (e : Op) :
    ∃ choice r w', perform X i w e choice = some (r, w') := by
  cases e with
  | generateHash pwd workload => exact ⟨.salt [], _, _, rfl⟩
  | getConnection preferred =>
      refine ⟨.ok, ?_⟩
      simp only [perform]
      rcases ScopedConnection.new w.pool.pool preferred with ⟨p, what | sc⟩
      · exact ⟨_, _, rfl⟩
      · exact ⟨_, _, rfl⟩
  | beginWork sc => exact ⟨.ok, _, _, rfl⟩
  | insert sc columns => exact ⟨.fail [], _, _, rfl⟩
  | select sc id => exact ⟨.ok, _, _, rfl⟩
  | commit => exact ⟨.ok, _, _, rfl⟩
  | endWork => exact ⟨.ok, _, _, rfl⟩
  | release sc => exact ⟨.ok, _, _, rfl⟩

/-! ### The ways a call can go -/

section outcomes

variable {X : Externals} {i : Nat} {w w' : World} {choice : Choice}

/-- What hashing a password does. -/
theorem perform_generateHash {pwd : Bytes} {workload : Nat} {r : Except Bytes Bytes}
    (h : perform X i w (.generateHash pwd workload) choice = some (r, w')) :
    (∃ salt, r = .ok (X.generateHash pwd workload salt) ∧ w' = w) ∨
      ∃ what, r = .error what ∧ w' = w.record i (.external what) := by
  cases choice with
  | salt value =>
      cases h
      exact .inl ⟨value, rfl, rfl⟩
  | fail what =>
      cases h
      exact .inr ⟨what, rfl, rfl⟩
  | _ => cases h

/-- What `ScopedConnection` does. -/
theorem perform_getConnection {preferred : NodeType} {r : Except Bytes ScopedConnection}
    (h : perform X i w (.getConnection preferred) choice = some (r, w')) :
    (∃ p sc, ScopedConnection.new w.pool.pool preferred = (p, .ok sc) ∧ r = .ok sc ∧
      w' = { w with pool := ⟨p, w.pool.live ++ [(i, sc)]⟩ }) ∨
    ∃ p what, ScopedConnection.new w.pool.pool preferred = (p, .error what) ∧ r = .error what ∧
      w' = ({ w with pool := ⟨p, w.pool.live⟩ }).record i (.noConnection w.holders) := by
  cases choice with
  | ok =>
      simp only [perform] at h
      rcases hnew : ScopedConnection.new w.pool.pool preferred with ⟨p, what | sc⟩
      · simp only [hnew] at h
        cases h
        exact .inr ⟨p, what, rfl, rfl, rfl⟩
      · simp only [hnew] at h
        cases h
        exact .inl ⟨p, sc, rfl, rfl, rfl⟩
  | _ => cases h

/-- What `BEGIN` does. -/
theorem perform_beginWork {sc : ScopedConnection} {r : Except Bytes Unit}
    (h : perform X i w (.beginWork sc) choice = some (r, w')) :
    (r = .ok () ∧ w' = w.setTx i []) ∨
      ∃ what, r = .error what ∧ w' = w.record i (.external what) := by
  cases choice with
  | ok =>
      cases h
      exact .inl ⟨rfl, rfl⟩
  | fail what =>
      cases h
      exact .inr ⟨what, rfl, rfl⟩
  | _ => cases h

/-- What an `INSERT` does. -/
theorem perform_insert {sc : ScopedConnection} {columns : UserColumns}
    {r : Except Bytes (List Bytes)}
    (h : perform X i w (.insert sc columns) choice = some (r, w')) :
    (∃ id birthdate, w.FreshId id ∧ r = .ok [id] ∧ w' = (w.send .insert sc.conn).addRow i
      { columns with birthdate := birthdate, owner := i, id }) ∨
    ∃ what, r = .error what ∧ w' = (w.send .insert sc.conn).record i (.external what) := by
  cases choice with
  | row id birthdate =>
      simp only [perform] at h
      split at h
      · rename_i hfresh
        cases h
        exact .inl ⟨id, birthdate, hfresh, rfl, rfl⟩
      · cases h
  | fail what =>
      cases h
      exact .inr ⟨what, rfl, rfl⟩
  | _ => cases h

/-- What a `SELECT` does. -/
theorem perform_select {sc : ScopedConnection} {id : Bytes} {r : Except Bytes (List UserRow)}
    (h : perform X i w (.select sc id) choice = some (r, w')) :
    (r = .ok ((w.table sc.conn ++ w.tx i).filter fun row => row.id = toLowercase id) ∧
      w' = w.send .select sc.conn) ∨
    ∃ what, r = .error what ∧ w' = (w.send .select sc.conn).record i (.external what) := by
  cases choice with
  | ok =>
      cases h
      exact .inl ⟨rfl, rfl⟩
  | fail what =>
      cases h
      exact .inr ⟨what, rfl, rfl⟩
  | _ => cases h

/-- A commit that throws may have taken effect. -/
theorem perform_commit {r : Except Bytes Unit}
    (h : perform X i w .commit choice = some (r, w')) :
    (r = .ok () ∧ w' = w.publish i) ∨
    (∃ what, r = .error what ∧ w' = (w.publish i).record i (.external what)) ∨
      ∃ what, r = .error what ∧ w' = (w.setTx i []).record i (.external what) := by
  cases choice with
  | ok =>
      cases h
      exact .inl ⟨rfl, rfl⟩
  | inDoubt what =>
      cases h
      exact .inr (.inl ⟨what, rfl, rfl⟩)
  | fail what =>
      cases h
      exact .inr (.inr ⟨what, rfl, rfl⟩)
  | _ => cases h

/-- What the end of a transaction does: its rows are gone, or were committed before. -/
theorem perform_endWork {r : Unit} (h : perform X i w .endWork choice = some (r, w')) :
    w' = w.setTx i [] := by
  cases choice with
  | ok =>
      cases h
      rfl
  | _ => cases h

/-- What the destructor of `ScopedConnection` does. -/
theorem perform_release {sc : ScopedConnection} {r : Unit}
    (h : perform X i w (.release sc) choice = some (r, w')) : w' = w.giveBack i sc := by
  cases choice with
  | ok =>
      cases h
      rfl
  | _ => cases h

end outcomes

/-- What happens without a request: a replica comes to hold some state the master was in. -/
inductive Replication
  | replicate (replica rows : Nat)

/-- One step of replication. -/
def replicate (w : World) : Replication → Option World
  | .replicate replica rows =>
      if rows ≤ w.log.length then
        some { w with replicated := Function.update w.replicated replica rows }
      else none

/-- The database and the pool of an `App`. -/
def database (X : Externals) (cfg : DbConfig) :
    Machine Op.Result World Choice Replication where
  start := World.start cfg
  perform := perform X
  background := replicate

end SocialNetwork.App
