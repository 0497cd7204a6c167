import SocialNetwork.App.Handlers

/-!
# The invariant of the database

`Consistent` is what holds of the world in every run: the pool is conserved, every row anywhere
comes from one `INSERT` and its id names it, every row is what some registration asked for, and no
`INSERT` was sent to a replica. `perform_consistent` is its step lemma, one case per operation; an
`INSERT` needs `Allowed`, which `user_register_handler` establishes.

`Kept` is what a request may rely on while others move, and `Own` what its own operations respect.
-/

namespace SocialNetwork.App

open Foundation Helpers Pool

/-! ## What requests ask for -/

/-- The members of a registration that are stored or checked later. -/
structure Registration where
  password : Bytes
  firstName : Bytes
  secondName : Bytes
  biography : Bytes
  city : Bytes
  deriving DecidableEq

/-- The registration in a JSON value whose members are strings. -/
def Json.registration (json : Json) : Option Registration := do
  let password ← json.text (str "password")
  let firstName ← json.text (str "first_name")
  let secondName ← json.text (str "second_name")
  let biography ← json.text (str "biography")
  let city ← json.text (str "city")
  return ⟨password, firstName, secondName, biography, city⟩

/-- What a request to `/user/register` asks to be registered. -/
def registration (X : Externals) (req : HttpRequest) : Option Registration :=
  match X.parse req.body with
  | .error _ => none
  | .ok json => json.registration

/-- The id and the password in a request to `/login`. -/
def credentials (X : Externals) (req : HttpRequest) : Option (Bytes × Bytes) :=
  match X.parse req.body with
  | .error _ => none
  | .ok json => do
      let id ← json.text (str "id")
      let password ← json.text (str "password")
      return (id, password)

/-- The columns are those of the `i`-th request, which is a registration. -/
def Entered (X : Externals) (qs : List Request) (i : Nat) (columns : UserColumns) : Prop :=
  ∃ req reg salt, qs[i]? = some (.userRegister req) ∧ registration X req = some reg ∧
    columns.firstName = reg.firstName ∧ columns.secondName = reg.secondName ∧
    columns.biography = reg.biography ∧ columns.city = reg.city ∧
    columns.pwdHash = X.generateHash reg.password 12 salt

/-- A request that has arrived stays at its place. -/
theorem getElem?_of_prefix {α : Type} {l l' : List α} (h : l <+: l') {i : Nat} {a : α}
    (hi : l[i]? = some a) : l'[i]? = some a := by
  obtain ⟨hlt, hget⟩ := List.getElem?_eq_some_iff.mp hi
  rw [← hget]
  exact List.prefix_iff_getElem?.mp h i hlt

/-- More requests do not change who entered a row. -/
theorem Entered.mono {X : Externals} {qs qs' : List Request} {i : Nat} {columns : UserColumns}
    (h : Entered X qs i columns) (hq : qs <+: qs') : Entered X qs' i columns := by
  obtain ⟨req, reg, salt, hreq, h⟩ := h
  exact ⟨req, reg, salt, getElem?_of_prefix hq hreq, h⟩

/-! ## The invariant -/

/-- As many requests as there are connections, the `i`-th not among them. -/
structure OthersHold (cfg : DbConfig) (qs : List Request) (i : Nat) (others : List Nat) :
    Prop where
  enough : cfg.poolSize ≤ others.length
  distinct : others.Nodup
  notSelf : i ∉ others
  arrived : ∀ j ∈ others, j < qs.length

/-- More requests do not change which connections others hold. -/
theorem OthersHold.mono {cfg : DbConfig} {qs qs' : List Request} {i : Nat} {others : List Nat}
    (h : OthersHold cfg qs i others) (hq : qs <+: qs') : OthersHold cfg qs' i others :=
  { h with arrived := fun j hj => (h.arrived j hj).trans_le hq.length_le }

/-- The invariant of the world. -/
structure Consistent (X : Externals) (cfg : DbConfig) (qs : List Request) (w : World) : Prop where
  /-- No connection is lost. -/
  pool : Conserved cfg.pool w.pool
  /-- The master's table holds rows that were inserted. -/
  log : ∀ row ∈ w.log, row ∈ w.inserted
  /-- So do the transactions. -/
  tx : ∀ i, ∀ row ∈ w.tx i, row ∈ w.inserted
  /-- The id names the row. -/
  ids : ∀ row ∈ w.inserted, ∀ row' ∈ w.inserted, row.id = row'.id → row = row'
  /-- Ids are UUIDs in canonical text. -/
  valid : ∀ row ∈ w.inserted, isValidUuid row.id = true ∧ toLowercase row.id = row.id
  /-- A row is what its request asked for. -/
  entered : ∀ row ∈ w.inserted, Entered X qs row.owner row.toUserColumns
  /-- Every `INSERT` went to the master. -/
  inserts : ∀ conn, (.insert, conn) ∈ w.executed → conn.nodeType = .master
  /-- A request holds at most one connection, after it has arrived. -/
  holders : w.holders.Nodup ∧ ∀ j ∈ w.holders, j < qs.length
  /-- A request is refused a connection only while `pool_size` others hold one. -/
  refused : ∀ i others, (i, .noConnection others) ∈ w.threw →
    OthersHold cfg qs i others

/-- What the `i`-th request may rely on while others move. -/
structure Kept (i : Nat) (w w' : World) : Prop where
  log : w.log <+: w'.log
  threw : w.threw <+: w'.threw
  tx : w'.tx i = w.tx i
  held : w'.held i = w.held i

/-- What the operations of the `i`-th request respect. -/
structure Own (i : Nat) (w w' : World) : Prop where
  log : w.log <+: w'.log
  threw : w.threw <+: w'.threw
  tx : ∀ j ≠ i, w'.tx j = w.tx j
  held : ∀ j ≠ i, w'.held j = w.held j

/-- A request's own steps keep what the others rely on. -/
theorem Own.kept {i j : Nat} {w w' : World} (h : Own i w w') (hj : j ≠ i) : Kept j w w' :=
  ⟨h.log, h.threw, h.tx j hj, h.held j hj⟩

/-- A request may do nothing. -/
theorem Own.refl (i : Nat) (w : World) : Own i w w :=
  ⟨List.prefix_rfl, List.prefix_rfl, fun _ _ => rfl, fun _ _ => rfl⟩

/-- The steps of a request may follow one another. -/
theorem Own.trans {i : Nat} {w w' w'' : World} (h : Own i w w') (h' : Own i w' w'') :
    Own i w w'' where
  log := h.log.trans h'.log
  threw := h.threw.trans h'.threw
  tx j hj := (h'.tx j hj).trans (h.tx j hj)
  held j hj := (h'.held j hj).trans (h.held j hj)

/-- The invariant of the database, and what its clients rely on. -/
def discipline (X : Externals) (cfg : DbConfig) : Discipline Request World where
  inv := Consistent X cfg
  rely := Kept
  refl _ _ := ⟨List.prefix_rfl, List.prefix_rfl, rfl, rfl⟩
  trans h h' :=
    ⟨h.log.trans h'.log, h.threw.trans h'.threw, h'.tx.trans h.tx, h'.held.trans h.held⟩

/-- The world is consistent before any request. -/
theorem consistent_start (X : Externals) (cfg : DbConfig) :
    Consistent X cfg [] (World.start cfg) where
  pool := conserved_start cfg.pool
  log row h := by cases h
  tx _ row h := by cases h
  ids row h := by cases h
  valid row h := by cases h
  entered row h := by cases h
  inserts conn h := by cases h
  holders := ⟨List.nodup_nil, fun j h => by cases h⟩
  refused _ others h := by cases h

section updates

variable {X : Externals} {cfg : DbConfig} {qs : List Request} {w : World} {i : Nat}

/-- A request arrives. -/
theorem Consistent.arrive (h : Consistent X cfg qs w) (q : Request) :
    Consistent X cfg (qs ++ [q]) w :=
  { h with
    entered := fun row hrow => (h.entered row hrow).mono (List.prefix_append _ _)
    holders := ⟨h.holders.1, fun j hj =>
      (h.holders.2 j hj).trans_le (List.prefix_append qs [q]).length_le⟩
    refused := fun j others hj => (h.refused j others hj).mono (List.prefix_append _ _) }

/-! ### One lemma for each way the world changes -/

/-- The rows of a transaction may be replaced by rows that were inserted. -/
theorem Consistent.setTx (h : Consistent X cfg qs w) {rows : List UserRow}
    (hrows : ∀ row ∈ rows, row ∈ w.inserted) : Consistent X cfg qs (w.setTx i rows) :=
  { h with
    tx := fun j row hrow => by
      by_cases hj : j = i
      · subst hj
        simp only [World.setTx, Function.update_self] at hrow
        exact hrows row hrow
      · simp only [World.setTx, Function.update_of_ne hj] at hrow
        exact h.tx j row hrow }

/-- A request may set the rows of its own transaction. -/
theorem Own.setTx (rows : List UserRow) : Own i w (w.setTx i rows) :=
  { Own.refl i w with tx := fun _ hj => Function.update_of_ne hj _ _ }

/-- A transaction ends. -/
theorem Consistent.endTx (h : Consistent X cfg qs w) : Consistent X cfg qs (w.setTx i []) :=
  h.setTx (by simp)

/-- A call throws. -/
theorem Consistent.record (h : Consistent X cfg qs w) {cause : Failure}
    (hcause : ∀ others, cause = .noConnection others → OthersHold cfg qs i others) :
    Consistent X cfg qs (w.record i cause) :=
  { h with
    refused := fun j others hj => by
      rcases List.mem_append.mp hj with hj | hj
      · exact h.refused j others hj
      · rw [List.mem_singleton, Prod.mk.injEq] at hj
        rw [hj.1]
        exact hcause others hj.2.symm }

/-- A request may record why it failed. -/
theorem Own.record (cause : Failure) : Own i w (w.record i cause) :=
  { Own.refl i w with threw := List.prefix_append _ _ }

/-- Something outside throws. -/
theorem Consistent.external (h : Consistent X cfg qs w) (what : Bytes) :
    Consistent X cfg qs (w.record i (.external what)) :=
  h.record fun others hn => by cases hn

/-- A statement is sent: an `INSERT` only to the master. -/
theorem Consistent.send (h : Consistent X cfg qs w) {s : Statement} {conn : Connection}
    (hconn : s = .insert → conn.nodeType = .master) : Consistent X cfg qs (w.send s conn) :=
  { h with
    inserts := fun c hc => by
      rcases List.mem_append.mp hc with hc | hc
      · exact h.inserts c hc
      · rw [List.mem_singleton, Prod.mk.injEq] at hc
        rw [hc.2]
        exact hconn hc.1.symm }

/-- A request may send a statement. -/
theorem Own.send (s : Statement) (conn : Connection) : Own i w (w.send s conn) :=
  { Own.refl i w with }

/-- A transaction is committed. -/
theorem Consistent.publish (h : Consistent X cfg qs w) : Consistent X cfg qs (w.publish i) :=
  { h.endTx (i := i) with
    log := fun row hrow => by
      rcases List.mem_append.mp hrow with hrow | hrow
      · exact h.log row hrow
      · exact h.tx i row hrow }

/-- A request may commit its own rows. -/
theorem Own.publish : Own i w (w.publish i) :=
  { Own.setTx (i := i) (w := w) [] with log := List.prefix_append _ _ }

/-- A row is inserted: its id is fresh, and its request asked for it. -/
theorem Consistent.addRow (h : Consistent X cfg qs w) {row : UserRow} (hfresh : w.FreshId row.id)
    (hentered : Entered X qs row.owner row.toUserColumns) :
    Consistent X cfg qs (w.addRow i row) where
  pool := h.pool
  log r hr := List.mem_append_left _ (h.log r hr)
  tx j r hr := by
    by_cases hj : j = i
    · subst hj
      simp only [World.addRow, World.setTx, Function.update_self] at hr
      exact List.mem_append.mpr ((List.mem_append.mp hr).imp_left (h.tx j r))
    · simp only [World.addRow, World.setTx, Function.update_of_ne hj] at hr
      exact List.mem_append_left _ (h.tx j r hr)
  ids r hr r' hr' he := by
    simp only [World.addRow, List.mem_append, List.mem_singleton] at hr hr'
    rcases hr with hr | rfl <;> rcases hr' with hr' | rfl
    · exact h.ids r hr r' hr' he
    · exact absurd he (hfresh.2.2 r hr)
    · exact absurd he.symm (hfresh.2.2 r' hr')
    · rfl
  valid r hr := by
    rcases List.mem_append.mp hr with hr | hr
    · exact h.valid r hr
    · rw [List.mem_singleton.mp hr]
      exact ⟨hfresh.1, hfresh.2.1⟩
  entered r hr := by
    rcases List.mem_append.mp hr with hr | hr
    · exact h.entered r hr
    · rw [List.mem_singleton.mp hr]
      exact hentered
  inserts := h.inserts
  holders := h.holders
  refused := h.refused

/-- A request may add a row to its own transaction. -/
theorem Own.addRow (row : UserRow) : Own i w (w.addRow i row) :=
  { Own.setTx (i := i) (w := w) (w.tx i ++ [row]) with }

/-! ### The pool -/

/-- A request without a connection is not among the holders. -/
theorem not_mem_holders (h : w.held i = []) : i ∉ w.holders := by
  intro hi
  obtain ⟨e, he, rfl⟩ := List.mem_map.mp hi
  have hmem : e ∈ w.held e.1 := List.mem_filter.mpr ⟨he, by simp⟩
  rw [h] at hmem
  cases hmem

/-- A request that holds nothing gets a connection. -/
theorem Consistent.take (h : Consistent X cfg qs w) {p : ConnectionPool} {preferred : NodeType}
    {sc : ScopedConnection} (hnew : ScopedConnection.new w.pool.pool preferred = (p, .ok sc))
    (hheld : w.held i = []) (hi : i < qs.length) :
    Consistent X cfg qs { w with pool := ⟨p, w.pool.live ++ [(i, sc)]⟩ } :=
  { h with
    pool := h.pool.next (a := .construct i preferred) (by simp only [PoolState.next, hnew])
    holders := by
      have hholders : (w.pool.live ++ [(i, sc)]).map Prod.fst = w.holders ++ [i] := by
        simp [World.holders]
      unfold World.holders
      rw [hholders]
      refine ⟨List.nodup_append.mpr ⟨h.holders.1, List.nodup_singleton _, ?_⟩, fun j hj => ?_⟩
      · rintro j hj k hk rfl
        rw [List.mem_singleton.mp hk] at hj
        exact not_mem_holders hheld hj
      · rcases List.mem_append.mp hj with hj | hj
        · exact h.holders.2 j hj
        · rw [List.mem_singleton.mp hj]
          exact hi }

/-- A request may take a connection for itself. -/
theorem Own.take (p : ConnectionPool) (sc : ScopedConnection) :
    Own i w { w with pool := ⟨p, w.pool.live ++ [(i, sc)]⟩ } :=
  { Own.refl i w with held := fun j hj => by simp [World.held, Ne.symm hj] }

/-- A request that holds nothing is refused a connection. -/
theorem Consistent.refuse (h : Consistent X cfg qs w) {p : ConnectionPool} {preferred : NodeType}
    {what : Bytes} (hnew : ScopedConnection.new w.pool.pool preferred = (p, .error what))
    (hheld : w.held i = []) :
    Consistent X cfg qs
      (({ w with pool := ⟨p, w.pool.live⟩ } : World).record i (.noConnection w.holders)) := by
  have hpool : Consistent X cfg qs { w with pool := ⟨p, w.pool.live⟩ } :=
    { h with
      pool := h.pool.next (a := .construct i preferred) (by simp only [PoolState.next, hnew]) }
  apply hpool.record
  rintro others ⟨⟩
  refine ⟨?_, h.holders.1, not_mem_holders hheld, h.holders.2⟩
  have hsize := h.pool.exhausted (by simp [DbConfig.pool]) (ScopedConnection.new_error hnew)
  simpa [World.holders, DbConfig.pool] using hsize

/-- Giving back a connection takes it off the live ones. -/
theorem live_giveBack (sc : ScopedConnection) :
    (w.giveBack i sc).pool.live = w.pool.live.erase (i, sc) := by
  rw [← List.eraseIdx_idxOf_eq_erase]
  unfold World.giveBack PoolState.next
  cases hget : w.pool.live[w.pool.live.idxOf (i, sc)]? with
  | none =>
      rw [List.eraseIdx_of_length_le (List.getElem?_eq_none_iff.mp hget)]
      simp only [hget, Option.map_none, Option.getD_none]
  | some e => simp only [hget, Option.map_some, Option.getD_some]

/-- Giving back a connection loses none. -/
theorem conserved_giveBack (h : Conserved cfg.pool w.pool) (sc : ScopedConnection) :
    Conserved cfg.pool (w.giveBack i sc).pool := by
  show Conserved cfg.pool ((w.pool.next (.destroy (w.pool.live.idxOf (i, sc)))).getD w.pool)
  cases hnext : w.pool.next (.destroy (w.pool.live.idxOf (i, sc))) with
  | none => exact h
  | some p => exact h.next hnext

/-- The world stays consistent when a connection is given back. -/
theorem Consistent.giveBack (h : Consistent X cfg qs w) (sc : ScopedConnection) :
    Consistent X cfg qs (w.giveBack i sc) := by
  have hsub : (w.giveBack i sc).holders.Sublist w.holders := by
    unfold World.holders
    rw [live_giveBack]
    exact List.erase_sublist.map _
  exact { h with
    pool := conserved_giveBack h.pool sc
    holders := ⟨h.holders.1.sublist hsub, fun j hj => h.holders.2 j (hsub.subset hj)⟩ }

/-- A connection that is given back is no longer held. -/
theorem held_giveBack (sc : ScopedConnection) (j : Nat) :
    (w.giveBack i sc).held j = (w.held j).erase (i, sc) := by
  unfold World.held
  rw [live_giveBack, List.erase_filter]

/-- A request may give back a connection of its own. -/
theorem Own.giveBack (sc : ScopedConnection) : Own i w (w.giveBack i sc) :=
  { Own.refl i w with
    held := fun j hj => by
      rw [held_giveBack]
      refine List.erase_of_not_mem fun hmem => hj ?_
      have := (List.mem_filter.mp hmem).2
      simpa using (of_decide_eq_true this).symm }

/-- Replication changes nothing a request relies on. -/
theorem Consistent.replicate (h : Consistent X cfg qs w) {b : Replication} {w' : World}
    (hb : App.replicate w b = some w') : Consistent X cfg qs w' ∧ ∀ i, Kept i w w' := by
  obtain ⟨replica, rows⟩ := b
  simp only [App.replicate] at hb
  split at hb
  · cases hb
    exact ⟨{ h with }, fun i => ⟨List.prefix_rfl, List.prefix_rfl, rfl, rfl⟩⟩
  · cases hb

end updates

/-! ### The step lemma -/

section step

variable {X : Externals} {cfg : DbConfig} {qs : List Request} {w w' : World} {i : Nat}

/-- What the invariant asks of an operation of the `i`-th request: it takes one connection at most,
and an `INSERT` runs on a connection to the master with columns that the request gave. -/
def Allowed (X : Externals) (i : Nat) (e : Op) (qs : List Request) (w : World) : Prop :=
  match e with
  | .getConnection _ => w.held i = [] ∧ i < qs.length
  | .insert sc columns => sc.conn.nodeType = .master ∧ Entered X qs i columns
  | _ => True

/-- Every operation keeps the invariant, and what the others rely on. -/
theorem perform_consistent {e : Op} {choice : Choice} {r : e.Result}
    (h : Consistent X cfg qs w) (hallowed : Allowed X i e qs w)
    (hperf : perform X i w e choice = some (r, w')) : Consistent X cfg qs w' ∧ Own i w w' := by
  cases e with
  | generateHash pwd workload =>
      obtain ⟨salt, -, rfl⟩ | ⟨what, -, rfl⟩ := perform_generateHash hperf
      · exact ⟨h, .refl _ _⟩
      · exact ⟨h.external what, .record _⟩
  | getConnection preferred =>
      obtain ⟨hheld, hi⟩ := hallowed
      obtain ⟨p, sc, hnew, -, rfl⟩ | ⟨p, what, hnew, -, rfl⟩ := perform_getConnection hperf
      · exact ⟨h.take hnew hheld hi, .take _ _⟩
      · exact ⟨h.refuse hnew hheld, { Own.record (i := i) (w := w) _ with }⟩
  | beginWork sc =>
      obtain ⟨-, rfl⟩ | ⟨what, -, rfl⟩ := perform_beginWork hperf
      · exact ⟨h.endTx, .setTx _⟩
      · exact ⟨h.external what, .record _⟩
  | insert sc columns =>
      obtain ⟨hmaster, hentered⟩ := hallowed
      have hsend : Consistent X cfg qs (w.send .insert sc.conn) := h.send fun _ => hmaster
      obtain ⟨id, birthdate, hfresh, -, rfl⟩ | ⟨what, -, rfl⟩ := perform_insert hperf
      · exact ⟨hsend.addRow hfresh hentered, (Own.send _ _).trans (.addRow _)⟩
      · exact ⟨hsend.external what, (Own.send _ _).trans (.record _)⟩
  | select sc id =>
      have hsend : Consistent X cfg qs (w.send .select sc.conn) := h.send fun he => by cases he
      obtain ⟨-, rfl⟩ | ⟨what, -, rfl⟩ := perform_select hperf
      · exact ⟨hsend, .send _ _⟩
      · exact ⟨hsend.external what, (Own.send _ _).trans (.record _)⟩
  | commit =>
      obtain ⟨-, rfl⟩ | ⟨what, -, rfl⟩ | ⟨what, -, rfl⟩ := perform_commit hperf
      · exact ⟨h.publish, .publish⟩
      · exact ⟨h.publish.external what, Own.publish.trans (.record _)⟩
      · exact ⟨h.endTx.external what, (Own.setTx _).trans (.record _)⟩
  | endWork =>
      obtain rfl := perform_endWork hperf
      exact ⟨h.endTx, .setTx _⟩
  | release sc =>
      obtain rfl := perform_release hperf
      exact ⟨h.giveBack sc, .giveBack _⟩

end step

end SocialNetwork.App
