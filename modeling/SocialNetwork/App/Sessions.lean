import SocialNetwork.App.SearchDatabase
import SocialNetwork.Foundation.Sessions

/-!
# The sessions of the requests

What a request does with the pool and the database is a session: it takes one connection, begins one
transaction on it, inserts at most one row and commits it at most once, ends the transaction and gives
the connection back. `databaseProtocol` is that automaton, `Shows` what each of its states means for
the pool, the transactions and the table, and `serveAny_keeps` says that every handler keeps to it, on
every path through its exceptions, with no more than seven calls.
-/

namespace SocialNetwork.App

open Foundation Helpers Pool

/-! ## States of a session -/

/-- The connection of a request, and whether there is a transaction on it. -/
inductive Link
  | none
  | held (sc : ScopedConnection)
  | working (sc : ScopedConnection)

/-- What has become of the row of a request; the ids are those the `INSERT` gave back. -/
inductive Entry
  | absent
  | pending (ids : List Bytes)
  | committed (ids : List Bytes)
  | inDoubt

/-- The state of a session. -/
structure Session where
  link : Link
  entry : Entry

/-- A request that has made no call. -/
def Session.start : Session := ⟨.none, .absent⟩

/-- The transaction ends. -/
def Link.drop : Link → Link
  | .working sc => .held sc
  | link => link

/-- Rows that were not committed are lost. -/
def Entry.drop : Entry → Entry
  | .pending _ => .absent
  | entry => entry

/-- The commit returns. -/
def Entry.commit : Entry → Entry
  | .pending ids => .committed ids
  | entry => entry

/-- The automaton of the calls of the handlers. -/
def opProtocol : Protocol Op.Result Session where
  allowed s
    | .generateHash _ _ => True
    | .getConnection _ => s.link = .none
    | .beginWork sc => s.link = .held sc ∧ s.entry = .absent
    | .insert sc _ => s.link = .working sc ∧ s.entry = .absent
    | .select sc _ => s.link = .working sc
    | .commit => ∃ ids, s.entry = .pending ids
    | .endWork => ∃ sc, s.link = .working sc
    | .release sc => s.link = .held sc
  next s
    | .generateHash _ _, _ => s
    | .getConnection _, .ok sc => { s with link := .held sc }
    | .getConnection _, .error _ => s
    | .beginWork sc, .ok _ => { s with link := .working sc }
    | .beginWork _, .error _ => s
    | .insert _ _, .ok ids => { s with entry := .pending ids }
    | .insert _ _, .error _ => s
    | .select _ _, _ => s
    | .commit, .ok _ => { s with entry := s.entry.commit }
    | .commit, .error _ => { s with entry := .inDoubt }
    | .endWork, _ => ⟨s.link.drop, s.entry.drop⟩
    | .release _, _ => { s with link := .none }

/-- The automaton, with searches. -/
def databaseProtocol : Protocol SearchOp.Result Session where
  allowed s
    | .db e => opProtocol.allowed s e
    | .search sc _ _ => s.link = .working sc
  next s
    | .db e, r => opProtocol.next s e r
    | .search _ _ _, _ => s

/-! ## What a session shows -/

/-- The committed rows of a request. -/
def World.rowsOf (w : World) (i : Nat) : List UserRow := w.log.filter fun row => row.owner = i

/-- The live connections of a request in its session. -/
def Link.live (i : Nat) : Link → List (Nat × ScopedConnection)
  | .none => []
  | .held sc => [(i, sc)]
  | .working sc => [(i, sc)]

/-- The rows of a request, in its transaction and in the table. -/
def Entry.Shows (i : Nat) (tx rows : List UserRow) : Entry → Prop
  | .absent => tx = [] ∧ rows = []
  | .pending ids => tx.map UserRow.id = ids ∧ ids.length ≤ 1 ∧ (∀ row ∈ tx, row.owner = i) ∧
      rows = []
  | .committed ids => tx = [] ∧ rows.map UserRow.id = ids ∧ ids.length ≤ 1
  | .inDoubt => tx = [] ∧ rows.length ≤ 1

/-- The world shows the session of the `i`-th request. -/
structure Shows (i : Nat) (s : Session) (w : World) : Prop where
  held : w.held i = s.link.live i
  entry : s.entry.Shows i (w.tx i) (w.rowsOf i)

theorem Entry.Shows.owner {i : Nat} {tx rows : List UserRow} {entry : Entry}
    (h : entry.Shows i tx rows) {row : UserRow} (hrow : row ∈ tx) : row.owner = i := by
  cases entry with
  | absent => exact absurd hrow (by simp [h.1])
  | pending ids => exact h.2.2.1 row hrow
  | committed ids => exact absurd hrow (by simp [h.1])
  | inDoubt => exact absurd hrow (by simp [h.1])

/-- No request has more than one row in the table. -/
theorem Entry.Shows.length_le {i : Nat} {tx rows : List UserRow} {entry : Entry}
    (h : entry.Shows i tx rows) : rows.length ≤ 1 := by
  cases entry with
  | absent => simp [h.2]
  | pending ids => simp [h.2.2.2]
  | committed ids =>
      rw [← List.length_map (f := UserRow.id), h.2.1]
      exact h.2.2
  | inDoubt => exact h.2

namespace Shows

variable {X : Externals} {cfg : DbConfig} {i j : Nat} {s : Session} {w w' : World}

/-- Nothing that the session shows in has changed. -/
theorem frame (h : Shows i s w) (hheld : w'.held i = w.held i) (htx : w'.tx i = w.tx i)
    (hrows : w'.rowsOf i = w.rowsOf i) : Shows i s w' :=
  ⟨hheld.trans h.held, by rw [htx, hrows]; exact h.entry⟩

/-- The rows of the other requests after a commit. -/
theorem rowsOf_publish (h : Shows i s w) (hij : j ≠ i) : (w.publish i).rowsOf j = w.rowsOf j := by
  have hnone : (w.tx i).filter (fun row => row.owner = j) = [] := by
    refine List.filter_eq_nil_iff.mpr fun row hrow => ?_
    rw [h.entry.owner hrow]
    simpa using Ne.symm hij
  unfold World.rowsOf World.publish
  rw [List.filter_append, hnone, List.append_nil]

/-- The rows of a request after its commit. -/
theorem rowsOf_publish_self (h : Shows i s w) : (w.publish i).rowsOf i = w.rowsOf i ++ w.tx i := by
  have hall : (w.tx i).filter (fun row => row.owner = i) = w.tx i :=
    List.filter_eq_self.mpr fun row hrow => by simpa using h.entry.owner hrow
  unfold World.rowsOf World.publish
  rw [List.filter_append, hall]

/-- A commit that took effect. -/
theorem publish {ids : List Bytes} (h : Shows i ⟨s.link, .pending ids⟩ w) :
    Shows i ⟨s.link, .committed ids⟩ (w.publish i) := by
  refine ⟨h.held, Function.update_self .., ?_, h.entry.2.1⟩
  rw [h.rowsOf_publish_self, h.entry.2.2.2, List.nil_append]
  exact h.entry.1

/-- A transaction of the `i`-th request that ends leaves the others alone. -/
theorem setTx_of_ne (h : Shows j s w) (hij : j ≠ i) (rows : List UserRow) :
    Shows j s (w.setTx i rows) :=
  h.frame rfl (Function.update_of_ne hij ..) rfl

end Shows

/-- A call of the `i`-th request leaves the sessions of the others as they were. -/
theorem Shows.other {X : Externals} {i : Nat} {s : Session} {w w' : World} (h : Shows i s w) {e : Op}
    {choice : Choice} {r : e.Result} (hperf : perform X i w e choice = some (r, w')) {j : Nat}
    (hij : j ≠ i) {t : Session} (ht : Shows j t w) : Shows j t w' := by
  cases e with
  | generateHash pwd workload =>
      obtain ⟨salt, -, rfl⟩ | ⟨what, -, rfl⟩ := perform_generateHash hperf
      · exact ht
      · exact ht.frame rfl rfl rfl
  | getConnection preferred =>
      obtain ⟨p, sc, -, -, rfl⟩ | ⟨p, what, -, -, rfl⟩ := perform_getConnection hperf
      · exact ht.frame ((Own.take p sc).held j hij) rfl rfl
      · exact ht.frame rfl rfl rfl
  | beginWork sc =>
      obtain ⟨-, rfl⟩ | ⟨what, -, rfl⟩ := perform_beginWork hperf
      · exact ht.setTx_of_ne hij []
      · exact ht.frame rfl rfl rfl
  | insert sc columns =>
      obtain ⟨id, birthdate, -, -, rfl⟩ | ⟨what, -, rfl⟩ := perform_insert hperf
      · exact ht.frame rfl (Function.update_of_ne hij ..) rfl
      · exact ht.frame rfl rfl rfl
  | select sc id =>
      obtain ⟨-, rfl⟩ | ⟨what, -, rfl⟩ := perform_select hperf
      · exact ht.frame rfl rfl rfl
      · exact ht.frame rfl rfl rfl
  | commit =>
      have hpublish : Shows j t (w.publish i) :=
        ht.frame rfl (Function.update_of_ne hij ..) (h.rowsOf_publish hij)
      obtain ⟨-, rfl⟩ | ⟨what, -, rfl⟩ | ⟨what, -, rfl⟩ := perform_commit hperf
      · exact hpublish
      · exact hpublish.frame rfl rfl rfl
      · exact (ht.setTx_of_ne hij []).frame rfl rfl rfl
  | endWork =>
      obtain rfl := perform_endWork hperf
      exact ht.setTx_of_ne hij []
  | release sc =>
      obtain rfl := perform_release hperf
      exact ht.frame ((Own.giveBack sc).held j hij) rfl rfl

/-- A call that the session allows leads where the protocol says. -/
theorem Shows.own {X : Externals} {i : Nat} {s : Session} {w w' : World} (h : Shows i s w) {e : Op}
    (hallowed : opProtocol.allowed s e) {choice : Choice} {r : e.Result}
    (hperf : perform X i w e choice = some (r, w')) : Shows i (opProtocol.next s e r) w' := by
  obtain ⟨link, entry⟩ := s
  cases e with
  | generateHash pwd workload =>
      obtain ⟨salt, -, rfl⟩ | ⟨what, -, rfl⟩ := perform_generateHash hperf
      · exact h
      · exact h.frame rfl rfl rfl
  | getConnection preferred =>
      obtain rfl : link = .none := hallowed
      obtain ⟨p, sc, -, rfl, rfl⟩ | ⟨p, what, -, rfl, rfl⟩ := perform_getConnection hperf
      · have hnone : w.pool.live.filter (fun e => decide (e.1 = i)) = [] := h.held
        exact ⟨by simp [World.held, opProtocol, Link.live, hnone], h.entry⟩
      · exact h.frame rfl rfl rfl
  | beginWork sc =>
      obtain ⟨rfl, rfl⟩ : link = .held sc ∧ entry = .absent := hallowed
      obtain ⟨rfl, rfl⟩ | ⟨what, rfl, rfl⟩ := perform_beginWork hperf
      · exact ⟨h.held, Function.update_self .., h.entry.2⟩
      · exact h.frame rfl rfl rfl
  | insert sc columns =>
      obtain ⟨rfl, rfl⟩ : link = .working sc ∧ entry = .absent := hallowed
      obtain ⟨id, birthdate, -, rfl, rfl⟩ | ⟨what, rfl, rfl⟩ := perform_insert hperf
      · have htx : ((w.send .insert sc.conn).addRow i
            { columns with birthdate := birthdate, owner := i, id }).tx i =
            [{ columns with birthdate := birthdate, owner := i, id }] := by
          simp [World.addRow, World.setTx, World.send, h.entry.1]
        refine ⟨h.held, ?_⟩
        rw [htx]
        exact ⟨rfl, by simp, fun row hrow => by rw [List.mem_singleton.mp hrow], h.entry.2⟩
      · exact h.frame rfl rfl rfl
  | select sc id =>
      obtain ⟨-, rfl⟩ | ⟨what, -, rfl⟩ := perform_select hperf
      · exact h.frame rfl rfl rfl
      · exact h.frame rfl rfl rfl
  | commit =>
      obtain ⟨ids, rfl⟩ : ∃ ids, entry = .pending ids := hallowed
      have hpublish : Shows i ⟨link, .committed ids⟩ (w.publish i) := h.publish (s := ⟨link, .absent⟩)
      obtain ⟨rfl, rfl⟩ | ⟨what, rfl, rfl⟩ | ⟨what, rfl, rfl⟩ := perform_commit hperf
      · exact hpublish
      · exact ⟨h.held, hpublish.entry.1, hpublish.entry.length_le⟩
      · exact ⟨h.held, Function.update_self .., h.entry.length_le⟩
  | endWork =>
      obtain ⟨sc, rfl⟩ : ∃ sc, link = .working sc := hallowed
      obtain rfl := perform_endWork hperf
      refine ⟨h.held, ?_⟩
      have htx : (w.setTx i []).tx i = [] := Function.update_self ..
      rw [htx]
      have hentry := h.entry
      cases entry with
      | absent => exact ⟨rfl, hentry.2⟩
      | pending ids => exact ⟨rfl, hentry.2.2.2⟩
      | committed ids => exact ⟨rfl, hentry.2⟩
      | inDoubt => exact ⟨rfl, hentry.2⟩
  | release sc =>
      obtain rfl : link = .held sc := hallowed
      obtain rfl := perform_release hperf
      refine ⟨?_, h.entry⟩
      rw [held_giveBack, h.held]
      exact List.erase_cons_head ..

/-- **The sessions of all requests show in the world.** -/
theorem tracks_sessions (X : Externals) (cfg : DbConfig) :
    Tracks (searchDatabase X cfg) databaseProtocol .start Shows where
  start i := ⟨rfl, rfl, rfl⟩
  perform {i s w e choice r w'} h hallowed hperf := by
    cases e with
    | db e => exact ⟨h.own hallowed hperf, fun j hij t ht => h.other hperf hij ht⟩
    | search sc firstName secondName =>
        obtain ⟨rows, -, -, rfl⟩ | ⟨what, -, rfl⟩ := perform_search hperf
        · exact ⟨h.frame rfl rfl rfl, fun j _ t ht => ht.frame rfl rfl rfl⟩
        · exact ⟨h.frame rfl rfl rfl, fun j _ t ht => ht.frame rfl rfl rfl⟩
  background {w b w'} hb i s h := by
    obtain ⟨replica, rows⟩ := b
    simp only [searchDatabase, replicate] at hb
    split at hb
    · cases hb
      exact h.frame rfl rfl rfl
    · cases hb

/-! ## The handlers keep to the protocol -/

/-- The session is at `link`, with `Q` of the value and the row. -/
def Linked {α : Type} (link : Link) (Q : α → Entry → Prop) (a : α) (s : Session) : Prop :=
  s.link = link ∧ Q a s.entry

section blocks

variable {α : Type} {n : Nat} {Q : α → Entry → Prop} {Z : Entry → Prop} {sc : ScopedConnection}

/-- One call. -/
theorem call_keeps {Q : α → Session → Prop} {X : Bytes → Session → Prop} {s : Session} (e : Op)
    (result : e.Result → Except Bytes α) (he : opProtocol.allowed s e)
    (hQ : ∀ r, Program.ends Q X (result r) (opProtocol.next s e r)) :
    Program.KeepsE opProtocol Q X (ExceptT.mk (.op e fun r => .ret (result r))) 1 s :=
  Program.keepsE_call e result he hQ

/-- A block with a transaction. -/
theorem withWork_keeps {body : DbM α} (hZ : Z .absent)
    (hbody : Program.KeepsE opProtocol (Linked (.working sc) fun a entry => Q a entry.drop)
      (Linked (.working sc) fun _ entry => Z entry.drop) body n ⟨.working sc, .absent⟩) :
    Program.KeepsE opProtocol (Linked (.held sc) Q) (Linked (.held sc) fun _ => Z) (withWork sc body)
      (1 + (n + 1)) ⟨.held sc, .absent⟩ := by
  refine Program.keepsE_bind ?_
  refine call_keeps (.beginWork sc) (fun r => r) ⟨rfl, rfl⟩ fun r => ?_
  cases r with
  | error what => exact ⟨rfl, hZ⟩
  | ok u =>
      refine Program.keepsE_andFinally (Program.keepsE_mono hbody le_rfl ?_ ?_)
      · rintro a ⟨link, entry⟩ ⟨rfl, hq⟩
        exact Program.keeps_call ⟨sc, rfl⟩ fun _ => ⟨rfl, hq⟩
      · rintro what ⟨link, entry⟩ ⟨rfl, hz⟩
        exact Program.keeps_call ⟨sc, rfl⟩ fun _ => ⟨rfl, hz⟩

/-- A block with a connection. -/
theorem withScopedConnection_keeps {preferred : NodeType} {body : ScopedConnection → DbM α}
    (hZ : Z .absent)
    (hbody : ∀ sc, Program.KeepsE opProtocol (Linked (.held sc) Q) (Linked (.held sc) fun _ => Z) (body sc)
      n ⟨.held sc, .absent⟩) :
    Program.KeepsE opProtocol (Linked .none Q) (Linked .none fun _ => Z)
      (withScopedConnection preferred body) (1 + (n + 1)) .start := by
  refine Program.keepsE_bind ?_
  refine call_keeps (.getConnection preferred) (fun r => r) rfl fun r => ?_
  cases r with
  | error what => exact ⟨rfl, hZ⟩
  | ok sc =>
      refine Program.keepsE_andFinally (Program.keepsE_mono (hbody sc) le_rfl ?_ ?_)
      · rintro a ⟨link, entry⟩ ⟨rfl, hq⟩
        exact Program.keeps_call rfl fun _ => ⟨rfl, hq⟩
      · rintro what ⟨link, entry⟩ ⟨rfl, hz⟩
        exact Program.keeps_call rfl fun _ => ⟨rfl, hz⟩

/-- The `try` block and what follows it. -/
theorem tryQuery_keeps {Q : TryResult → Entry → Prop} {Q' : Bool × HttpResponse → Entry → Prop}
    {X : Bytes → Session → Prop} {res : HttpResponse} {block : DbM TryResult} {s : Session}
    (hblock : Program.KeepsE opProtocol (Linked .none Q) (Linked .none fun _ => Z) block n s)
    (hQ : ∀ result entry, Q result entry → Q' result.conclude entry)
    (hZ : ∀ what entry, Z entry →
      Q' (false, (res.setStatus 500).setJson (errorJson 500 (str "Error SQL: " ++ what))) entry) :
    Program.KeepsE opProtocol (Linked .none Q') X (tryQuery res block) n s := by
  refine Program.keepsE_bind (m := 0) (n := n)
    (Program.keepsE_tryCatch (m := 0) (n := n) (Program.keepsE_mono hblock le_rfl ?_ ?_))
  · rintro result s ⟨hl, hq⟩
    exact ⟨hl, hQ result _ hq⟩
  · rintro what s ⟨hl, hz⟩
    exact ⟨hl, hZ what _ hz⟩

end blocks

/-- What the answer of a request says of its row. -/
def Dispatch.Leaves (res : HttpResponse) (entry : Entry) : Dispatch → Prop
  | .userRegister _ =>
      (∃ id rest, res.status = some 200 ∧ entry = .committed (id :: rest) ∧
        res.content = some (.json (userIdJson id))) ∨
      (res.status = some 500 ∧ ∀ ids, entry ≠ .pending ids) ∨
      (res.status ≠ some 200 ∧ entry = .absent)
  | _ => entry = .absent

/-- What a request that reads a user does. -/
theorem read_keeps (sc : ScopedConnection) (id : Bytes) (of : List UserRow → TryResult) :
    Program.KeepsE opProtocol (Linked (.held sc) fun _ entry => entry = .absent)
      (Linked (.held sc) fun _ entry => entry = .absent)
      (withWork sc do
        let result ← execSelect sc id
        pure (of result)) 3 ⟨.held sc, .absent⟩ := by
  refine withWork_keeps (n := 1) (Z := fun entry => entry = .absent) rfl ?_
  refine Program.keepsE_bind (m := 0) ?_
  refine call_keeps (.select sc id) (fun r => r) rfl fun r => ?_
  cases r with
  | error what => exact ⟨rfl, rfl⟩
  | ok rows => exact ⟨rfl, rfl⟩

section handlers

variable (X : Externals) (dbPool : Bool) (req : HttpRequest) (res : HttpResponse)

/-- `login_handler` leaves no row. -/
theorem loginHandler_keeps :
    Program.KeepsE opProtocol (Linked .none fun _ entry => entry = .absent)
      (Linked .none fun _ entry => entry = .absent) (loginHandler X dbPool req res) 5 .start := by
  unfold loginHandler loginHandlerWith
  split
  · exact ⟨rfl, rfl⟩
  · split_ifs
    · exact ⟨rfl, rfl⟩
    · exact ⟨rfl, rfl⟩
    · exact ⟨rfl, rfl⟩
    · exact ⟨rfl, rfl⟩
    · exact tryQuery_keeps (Z := fun entry => entry = .absent)
        (withScopedConnection_keeps (n := 3) rfl fun sc => read_keeps sc _ _) (fun _ _ h => h)
        fun _ _ h => h

/-- `user_get_id_handler` leaves no row. -/
theorem userGetIdHandler_keeps :
    Program.KeepsE opProtocol (Linked .none fun _ entry => entry = .absent)
      (Linked .none fun _ entry => entry = .absent) (userGetIdHandler dbPool req res) 5 .start := by
  unfold userGetIdHandler userGetIdHandlerWith
  split
  · exact ⟨rfl, rfl⟩
  · split_ifs
    · exact ⟨rfl, rfl⟩
    · exact ⟨rfl, rfl⟩
    · exact tryQuery_keeps (Z := fun entry => entry = .absent)
        (withScopedConnection_keeps (n := 3) rfl fun sc => read_keeps sc _ _) (fun _ _ h => h)
        fun _ _ h => h

/-- `user_register_handler` leaves a row if it answers 200, perhaps one if it answers 500, and none
otherwise. -/
theorem userRegisterHandler_keeps :
    Program.KeepsE opProtocol
      (Linked .none fun r entry => Dispatch.Leaves (finish X req r.2) entry (.userRegister req))
      (Linked .none fun _ entry => entry = .absent)
      (userRegisterHandler X dbPool req .fresh) 7 .start := by
  unfold userRegisterHandler userRegisterHandlerWith
  split
  · exact ⟨rfl, rfl⟩
  · split_ifs
    · exact ⟨rfl, .inr (.inr ⟨(by decide : some 400 ≠ some 200), rfl⟩)⟩
    · exact ⟨rfl, .inr (.inr ⟨(by decide : some 400 ≠ some 200), rfl⟩)⟩
    · exact ⟨rfl, .inr (.inr ⟨(by decide : some 400 ≠ some 200), rfl⟩)⟩
    · exact ⟨rfl, .inr (.inr ⟨(by decide : some 400 ≠ some 200), rfl⟩)⟩
    · exact ⟨rfl, .inr (.inr ⟨(by decide : some 503 ≠ some 200), rfl⟩)⟩
    · refine tryQuery_keeps (Z := fun entry => ∀ ids, entry ≠ .pending ids)
        (Q := fun r entry => Dispatch.Leaves (finish X req r.conclude.2) entry (.userRegister req))
        ?_ (fun _ _ h => h) fun what entry h => .inr (.inl ⟨rfl, h⟩)
      refine Program.keepsE_bind (n := 1) (m := 6) ?_
      refine call_keeps (.generateHash _ 12) (fun r => r) trivial fun r => ?_
      cases r with
      | error what => exact ⟨rfl, fun ids h => by cases h⟩
      | ok hashedPwd =>
          refine withScopedConnection_keeps (n := 4) (fun ids h => by cases h) fun sc => ?_
          refine withWork_keeps (n := 2) (fun ids h => by cases h) ?_
          refine Program.keepsE_bind (n := 1) (m := 1) ?_
          refine call_keeps (.insert sc _) (fun r => r) ⟨rfl, rfl⟩ fun r => ?_
          cases r with
          | error what => exact ⟨rfl, fun ids h => by cases h⟩
          | ok ids =>
              refine Program.keepsE_bind (n := 1) (m := 0) ?_
              refine call_keeps .commit (fun r => r) ⟨ids, rfl⟩ fun r => ?_
              cases r with
              | error what => exact ⟨rfl, fun ids h => by cases h⟩
              | ok u =>
                  cases ids with
                  | nil => exact ⟨rfl, .inr (.inl ⟨rfl, fun ids h => by cases h⟩)⟩
                  | cons id rest => exact ⟨rfl, .inl ⟨id, rest, rfl, rfl, rfl⟩⟩

end handlers

/-- The block of the search leaves no row. -/
theorem searchBlock_keeps (firstName secondName : Bytes) :
    Program.KeepsE databaseProtocol (Linked .none fun _ entry => entry = .absent)
      (Linked .none fun (_ : Bytes) entry => entry = .absent)
      (do
        let sc ← SearchM.getConnection .replica
        Program.andFinally (do
          SearchM.beginWork sc
          Program.andFinally (do
            let result ← SearchM.execSearch sc firstName secondName
            pure (searchResult .fresh result)) (Program.call (SearchOp.db .endWork)))
          (Program.call (SearchOp.db (.release sc)))) 5 .start := by
  refine Program.keepsE_bind (n := 1) (m := 4) ?_
  refine Program.keepsE_call (P := databaseProtocol) (SearchOp.db (.getConnection .replica))
    (fun r => r) rfl fun r => ?_
  cases r with
  | error what => exact ⟨rfl, rfl⟩
  | ok sc =>
      have hwork : Program.KeepsE databaseProtocol (Linked (.held sc) fun _ entry => entry = .absent)
          (Linked (.held sc) fun (_ : Bytes) entry => entry = .absent)
          (do
            SearchM.beginWork sc
            Program.andFinally (do
              let result ← SearchM.execSearch sc firstName secondName
              pure (searchResult .fresh result)) (Program.call (SearchOp.db .endWork)))
          3 ⟨.held sc, .absent⟩ := by
        refine Program.keepsE_bind (n := 1) (m := 2) ?_
        refine Program.keepsE_call (P := databaseProtocol) (SearchOp.db (.beginWork sc)) (fun r => r)
          ⟨rfl, rfl⟩ fun r => ?_
        cases r with
        | error what => exact ⟨rfl, rfl⟩
        | ok u =>
            refine Program.keepsE_andFinally (n := 1) (m := 1) ?_
            refine Program.keepsE_bind (n := 1) (m := 0) ?_
            refine Program.keepsE_call (P := databaseProtocol)
              (SearchOp.search sc firstName secondName) (fun r => r) rfl fun r => ?_
            cases r with
            | error what => exact Program.keeps_call ⟨sc, rfl⟩ fun _ => ⟨rfl, rfl⟩
            | ok rows => exact Program.keeps_call ⟨sc, rfl⟩ fun _ => ⟨rfl, rfl⟩
      refine Program.keepsE_andFinally (n := 3) (m := 1) (Program.keepsE_mono hwork le_rfl ?_ ?_)
      · rintro a ⟨link, entry⟩ ⟨rfl, hq⟩
        exact Program.keeps_call rfl fun _ => ⟨rfl, hq⟩
      · rintro what ⟨link, entry⟩ ⟨rfl, hz⟩
        exact Program.keeps_call rfl fun _ => ⟨rfl, hz⟩

/-- `user_search_handler` leaves no row. -/
theorem userSearchHandler_keeps (dbPool : Bool) (req : SearchRequest) :
    Program.KeepsE databaseProtocol (Linked .none fun _ entry => entry = .absent)
      (Linked .none fun _ entry => entry = .absent) (userSearchHandler dbPool req .fresh) 5
      .start := by
  unfold userSearchHandler userSearchHandlerWith
  split_ifs
  · exact ⟨rfl, rfl⟩
  · exact ⟨rfl, rfl⟩
  · exact Program.keepsE_bind (n := 5) (m := 0) (Program.keepsE_tryCatch (n := 5) (m := 0)
      (Program.keepsE_mono (searchBlock_keeps _ _) le_rfl (fun _ _ h => h) fun _ _ h => h))

/-- The program of a request that is not a search. -/
theorem serve_keeps {X : Externals} {dbPool : Bool} {r : Request} {q : Dispatch} {n : Nat}
    (h : Program.KeepsE opProtocol
      (Linked .none fun x entry => q.Leaves (finish X r.http x.2) entry)
      (Linked .none fun _ entry => entry = .absent) (handler X dbPool r) n .start)
    (hthrew : q.Leaves (finish X r.http (exceptionHandler .fresh)) .absent) :
    (withSearch (serve X dbPool r)).Keeps databaseProtocol (Linked .none q.Leaves) n .start := by
  have hserve : (serve X dbPool r).Keeps opProtocol (Linked .none q.Leaves) n .start := by
    refine Program.Keeps.bind (m := 0) (Program.Keeps.mono h le_rfl fun x s hx => ?_)
    cases x with
    | ok x => exact hx
    | error what =>
        obtain ⟨link, entry⟩ := s
        obtain ⟨hl, rfl⟩ : link = .none ∧ entry = .absent := hx
        exact ⟨hl, hthrew⟩
  refine Program.Keeps.along ?_ ?_ hserve
  · exact fun h => h
  · exact fun {_ _ _} => rfl

/-- **Every handler keeps to the protocol**, on every path, with at most seven calls. -/
theorem serveAny_keeps (X : Externals) (dbPool : Bool) (q : Dispatch) :
    (serveAny X dbPool q).Keeps databaseProtocol (Linked .none q.Leaves) 7 .start := by
  cases q with
  | login req =>
      exact (serve_keeps (q := .login req) (r := .login req)
        (loginHandler_keeps X dbPool req .fresh) rfl).mono (by decide) fun _ _ h => h
  | userRegister req =>
      exact serve_keeps (q := .userRegister req) (r := .userRegister req)
        (userRegisterHandler_keeps X dbPool req) (.inr (.inl ⟨rfl, fun ids h => by cases h⟩))
  | userGetId req =>
      exact (serve_keeps (q := .userGetId req) (r := .userGetId req)
        (userGetIdHandler_keeps dbPool req .fresh) rfl).mono (by decide) fun _ _ h => h
  | userSearch req =>
      refine Program.Keeps.bind (n := 5) (m := 2)
        (Program.Keeps.mono (userSearchHandler_keeps dbPool req) le_rfl fun x s hx => ?_)
      cases x with
      | ok x => exact hx
      | error what => exact hx

end SocialNetwork.App
