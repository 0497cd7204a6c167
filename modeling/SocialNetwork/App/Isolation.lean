import SocialNetwork.App.Consistency

/-!
# What belongs to one request

The server over a database whose commits either take effect entirely or throw without effect
(`atomicDatabase`), with any number of requests in any interleaving. A request's connection, its
transaction and the committed rows that it owns are its part of the world (`Mine`). Other requests
leave it alone (`Untouched`), so that a handler can be followed as if it ran alone: `wp_own` is the
rule for one call, and the lemmas after it are the rules for the calls and blocks of the handlers.
-/

namespace SocialNetwork.App

open Foundation Helpers Pool

/-! ## The database -/

/-- What is assumed of the outside: a commit that throws has no effect, and `dateOf` is how the
database reads a birth date and writes it back (`none` if it is not a date). -/
def Atomic (dateOf : Bytes → Option Bytes) : Op → Choice → Prop
  | .commit, .inDoubt _ => False
  | .insert _ columns, .row _ birthdate => dateOf columns.birthdate = some birthdate
  | _, _ => True

instance (dateOf : Bytes → Option Bytes) (e : Op) (choice : Choice) :
    Decidable (Atomic dateOf e choice) := by
  unfold Atomic
  split <;> infer_instance

/-- The database and the pool, under that assumption. -/
def atomicDatabase (X : Externals) (cfg : DbConfig) (dateOf : Bytes → Option Bytes) :
    Machine Op.Result World Choice Replication where
  start := World.start cfg
  perform i w e choice := if Atomic dateOf e choice then perform X i w e choice else none
  background := replicate

/-- What a handler returns, or throws. -/
abbrev Returned := Except Bytes (Bool × HttpResponse)

/-- The outcomes of a call of the `i`-th request. -/
inductive Performed (X : Externals) (dateOf : Bytes → Option Bytes) (i : Nat) (w : World) :
    (e : Op) → e.Result → World → Prop
  | hashed (pwd : Bytes) (workload : Nat) (salt : Bytes) :
      Performed X dateOf i w (.generateHash pwd workload)
        (Except.ok (X.generateHash pwd workload salt) : Except Bytes Bytes) w
  | hashThrew (pwd : Bytes) (workload : Nat) (what : Bytes) :
      Performed X dateOf i w (.generateHash pwd workload) (Except.error what : Except Bytes Bytes)
        (w.record i (.external what))
  | connected (preferred : NodeType) (p : ConnectionPool) (sc : ScopedConnection)
      (h : ScopedConnection.new w.pool.pool preferred = (p, .ok sc)) :
      Performed X dateOf i w (.getConnection preferred)
        (Except.ok sc : Except Bytes ScopedConnection)
        { w with pool := ⟨p, w.pool.live ++ [(i, sc)]⟩ }
  | refused (preferred : NodeType) (p : ConnectionPool) (what : Bytes)
      (h : ScopedConnection.new w.pool.pool preferred = (p, .error what)) :
      Performed X dateOf i w (.getConnection preferred)
        (Except.error what : Except Bytes ScopedConnection)
        (({ w with pool := ⟨p, w.pool.live⟩ } : World).record i (.noConnection w.holders))
  | began (sc : ScopedConnection) :
      Performed X dateOf i w (.beginWork sc) (Except.ok () : Except Bytes Unit) (w.setTx i [])
  | beginThrew (sc : ScopedConnection) (what : Bytes) :
      Performed X dateOf i w (.beginWork sc) (Except.error what : Except Bytes Unit)
        (w.record i (.external what))
  | inserted (sc : ScopedConnection) (columns : UserColumns) (id birthdate : Bytes)
      (h : dateOf columns.birthdate = some birthdate) :
      Performed X dateOf i w (.insert sc columns) (Except.ok [id] : Except Bytes (List Bytes))
        ((w.send .insert sc.conn).addRow i { columns with birthdate := birthdate, owner := i, id })
  | insertThrew (sc : ScopedConnection) (columns : UserColumns) (what : Bytes) :
      Performed X dateOf i w (.insert sc columns) (Except.error what : Except Bytes (List Bytes))
        ((w.send .insert sc.conn).record i (.external what))
  | selected (sc : ScopedConnection) (id : Bytes) (rows : List UserRow) :
      Performed X dateOf i w (.select sc id) (Except.ok rows : Except Bytes (List UserRow))
        (w.send .select sc.conn)
  | selectThrew (sc : ScopedConnection) (id what : Bytes) :
      Performed X dateOf i w (.select sc id) (Except.error what : Except Bytes (List UserRow))
        ((w.send .select sc.conn).record i (.external what))
  | committed :
      Performed X dateOf i w .commit (Except.ok () : Except Bytes Unit) (w.publish i)
  | commitThrew (what : Bytes) :
      Performed X dateOf i w .commit (Except.error what : Except Bytes Unit)
        ((w.setTx i []).record i (.external what))
  | ended : Performed X dateOf i w .endWork () (w.setTx i [])
  | released (sc : ScopedConnection) : Performed X dateOf i w (.release sc) () (w.giveBack i sc)

variable {X : Externals} {cfg : DbConfig} {dateOf : Bytes → Option Bytes} {dbPool : Bool}

/-- Those are all. -/
theorem performed_of_perform {i : Nat} {w w' : World} {e : Op} {choice : Choice} {r : e.Result}
    (h : (atomicDatabase X cfg dateOf).perform i w e choice = some (r, w')) :
    Performed X dateOf i w e r w' := by
  simp only [atomicDatabase] at h
  split at h
  · rename_i hatomic
    unfold perform at h
    split at h
    · cases h; exact .hashed _ _ _
    · cases h; exact .hashThrew _ _ _
    · split at h
      · rename_i hnew
        cases h
        exact .connected _ _ _ hnew
      · rename_i hnew
        cases h
        exact .refused _ _ _ hnew
    · cases h; exact .began _
    · cases h; exact .beginThrew _ _
    · split at h
      · cases h
        exact .inserted _ _ _ _ hatomic
      · cases h
    · cases h; exact .insertThrew _ _ _
    · cases h; exact .selected _ _ _
    · cases h; exact .selectThrew _ _ _
    · cases h; exact .committed
    · exact absurd hatomic id
    · cases h; exact .commitThrew _
    · cases h; exact .ended
    · cases h; exact .released _
    · cases h
  · cases h

/-! ## What belongs to a request -/

/-- The committed rows of the `i`-th request. -/
def World.gained (w : World) (i : Nat) : List UserRow := w.log.filter fun row => row.owner = i

/-- The part of the world that belongs to one request. -/
structure Mine where
  held : List (Nat × ScopedConnection)
  tx : List UserRow
  gained : List UserRow

/-- The part that belongs to the `i`-th request. -/
def World.mine (w : World) (i : Nat) : Mine := ⟨w.held i, w.tx i, w.gained i⟩

/-- The invariant of the world: the pool is conserved, and what is in a transaction, in the table or
among the live connections belongs to a request that has arrived. -/
structure Accounts (cfg : DbConfig) (qs : List Request) (w : World) : Prop where
  pool : Conserved cfg.pool w.pool
  live : ∀ e ∈ w.pool.live, e.1 < qs.length
  tx : ∀ j, ∀ row ∈ w.tx j, row.owner = j
  log : ∀ row ∈ w.log, row.owner < qs.length

/-- What the other requests leave alone. -/
structure Untouched (i : Nat) (w w' : World) : Prop where
  mine : w'.mine i = w.mine i
  log : w.log <+: w'.log

/-- The invariant, and what a request relies on. -/
def accounts (cfg : DbConfig) : Discipline Request World where
  inv := Accounts cfg
  rely := Untouched
  refl _ _ := ⟨rfl, List.prefix_rfl⟩
  trans h h' := ⟨h'.mine.trans h.mine, h.log.trans h'.log⟩

/-- A request arrives. -/
theorem Accounts.arrive {qs : List Request} {w : World} (h : Accounts cfg qs w) (q : Request) :
    Accounts cfg (qs ++ [q]) w where
  pool := h.pool
  live e he := (h.live e he).trans_le (List.prefix_append qs [q]).length_le
  tx := h.tx
  log row hrow := (h.log row hrow).trans_le (List.prefix_append qs [q]).length_le

/-- What a call makes of the part that belongs to its request. -/
def Effect (X : Externals) (dateOf : Bytes → Option Bytes) (i : Nat) (m : Mine) :
    (e : Op) → e.Result → Mine → Prop
  | .generateHash pwd workload, r, m' =>
      m' = m ∧ ∀ hash, r = .ok hash → ∃ salt, hash = X.generateHash pwd workload salt
  | .getConnection _, r, m' =>
      (∀ sc, r = .ok sc → m' = { m with held := m.held ++ [(i, sc)] }) ∧
        ∀ what, r = .error what → m' = m
  | .beginWork _, r, m' =>
      (r = .ok () → m' = { m with tx := [] }) ∧ ∀ what, r = .error what → m' = m
  | .insert _ columns, r, m' =>
      (∀ ids, r = .ok ids → ∃ row : UserRow, ids = [row.id] ∧
        m' = { m with tx := m.tx ++ [row] } ∧ dateOf columns.birthdate = some row.birthdate ∧
        row.toUserColumns = { columns with birthdate := row.birthdate }) ∧
        ∀ what, r = .error what → m' = m
  | .select _ _, _, m' => m' = m
  | .commit, r, m' =>
      (r = .ok () → m' = { m with tx := [], gained := m.gained ++ m.tx }) ∧
        ∀ what, r = .error what → m' = { m with tx := [] }
  | .endWork, _, m' => m' = { m with tx := [] }
  | .release sc, _, m' => m' = { m with held := m.held.erase (i, sc) }

section step

variable {i : Nat} {w w' : World} {qs : List Request}

/-- The rows of a request's transaction are the request's. -/
theorem Accounts.filter_tx (h : Accounts cfg qs w) (j : Nat) :
    (w.tx i).filter (fun row => row.owner = j) = if i = j then w.tx i else [] := by
  split
  · rename_i hij
    exact List.filter_eq_self.mpr fun row hrow => decide_eq_true ((h.tx i row hrow).trans hij)
  · rename_i hij
    refine List.filter_eq_nil_iff.mpr fun row hrow => ?_
    rw [h.tx i row hrow]
    simpa using hij

/-- What a commit adds to the table. -/
theorem Accounts.gained_publish (h : Accounts cfg qs w) (j : Nat) :
    (w.publish i).gained j = w.gained j ++ if i = j then w.tx i else [] := by
  rw [← h.filter_tx]
  exact List.filter_append ..

/-- A call has its effect on its request's part. -/
theorem Performed.effect (h : Accounts cfg qs w) {e : Op} {r : e.Result}
    (hperf : Performed X dateOf i w e r w') : Effect X dateOf i (w.mine i) e r (w'.mine i) := by
  cases hperf with
  | hashed pwd workload salt => exact ⟨rfl, fun hash hr => ⟨salt, (Except.ok.inj hr).symm⟩⟩
  | hashThrew pwd workload what => exact ⟨rfl, fun hash hr => by cases hr⟩
  | connected preferred p sc hnew =>
      refine ⟨fun sc' hr => ?_, fun what hr => by cases hr⟩
      rw [← Except.ok.inj hr]
      simp [World.mine, World.held, World.gained]
  | refused preferred p what hnew => exact ⟨fun sc hr => (by cases hr), fun _ _ => rfl⟩
  | began sc =>
      refine ⟨fun _ => ?_, fun what hr => by cases hr⟩
      simp [World.mine, World.held, World.gained, World.setTx]
  | beginThrew sc what => exact ⟨fun hr => (by cases hr), fun _ _ => rfl⟩
  | inserted sc columns id birthdate hdate =>
      refine ⟨fun ids hr => ?_, fun what hr => by cases hr⟩
      rw [← Except.ok.inj hr]
      refine ⟨{ columns with birthdate := birthdate, owner := i, id }, rfl, ?_, hdate, rfl⟩
      simp [World.mine, World.held, World.gained, World.addRow, World.setTx, World.send]
  | insertThrew sc columns what => exact ⟨fun ids hr => (by cases hr), fun _ _ => rfl⟩
  | selected sc id rows => rfl
  | selectThrew sc id what => rfl
  | committed =>
      refine ⟨fun _ => ?_, fun what hr => by cases hr⟩
      rw [World.mine, h.gained_publish, if_pos rfl]
      simp [World.mine, World.held, World.publish, World.setTx]
  | commitThrew what =>
      refine ⟨fun hr => (by cases hr), fun _ _ => ?_⟩
      simp [World.mine, World.held, World.gained, World.record, World.setTx]
  | ended => simp [Effect, World.mine, World.held, World.gained, World.setTx]
  | released sc =>
      show Mine.mk _ _ _ = _
      rw [held_giveBack]
      rfl

/-- A call leaves the part of the other requests alone. -/
theorem Performed.untouched (h : Accounts cfg qs w) {e : Op} {r : e.Result}
    (hperf : Performed X dateOf i w e r w') {j : Nat} (hj : j ≠ i) : Untouched j w w' := by
  have hown : ∀ {w'}, Own i w w' → w'.log = w.log → Untouched j w w' := by
    intro w' ho hlog
    refine ⟨?_, hlog ▸ List.prefix_rfl⟩
    simp only [World.mine, World.gained, ho.tx j hj, ho.held j hj, hlog]
  cases hperf with
  | hashed pwd workload salt => exact hown (.refl _ _) rfl
  | hashThrew pwd workload what => exact hown (.record _) rfl
  | connected preferred p sc hnew => exact hown (.take _ _) rfl
  | refused preferred p what hnew => exact hown { Own.record (i := i) (w := w) _ with } rfl
  | began sc => exact hown (.setTx _) rfl
  | beginThrew sc what => exact hown (.record _) rfl
  | inserted sc columns id birthdate hdate => exact hown ((Own.send _ _).trans (.addRow _)) rfl
  | insertThrew sc columns what => exact hown ((Own.send _ _).trans (.record _)) rfl
  | selected sc id rows => exact hown (.send _ _) rfl
  | selectThrew sc id what => exact hown ((Own.send _ _).trans (.record _)) rfl
  | committed =>
      have ho : Own i w (w.publish i) := .publish
      refine ⟨?_, ho.log⟩
      rw [World.mine, World.mine, h.gained_publish, if_neg (Ne.symm hj), ho.tx j hj, ho.held j hj,
        List.append_nil]
  | commitThrew what => exact hown ((Own.setTx _).trans (.record _)) rfl
  | ended => exact hown (.setTx _) rfl
  | released sc =>
      apply hown (.giveBack _)
      rfl

/-- A transaction holds its request's rows. -/
theorem Accounts.setTx (h : Accounts cfg qs w) (i : Nat) (rows : List UserRow)
    (hrows : ∀ row ∈ rows, row.owner = i) : Accounts cfg qs (w.setTx i rows) :=
  { h with
    tx := fun j row hrow => by
      by_cases hj : j = i
      · subst hj
        simp only [World.setTx, Function.update_self] at hrow
        exact hrows row hrow
      · simp only [World.setTx, Function.update_of_ne hj] at hrow
        exact h.tx j row hrow }

/-- A call keeps the invariant. -/
theorem Performed.accounts (h : Accounts cfg qs w) (hi : i < qs.length) {e : Op} {r : e.Result}
    (hperf : Performed X dateOf i w e r w') : Accounts cfg qs w' := by
  cases hperf with
  | hashed pwd workload salt => exact h
  | hashThrew pwd workload what => exact { h with }
  | connected preferred p sc hnew =>
      refine { h with
        pool := h.pool.next (a := .construct i preferred) (by simp only [PoolState.next, hnew])
        live := fun e he => ?_ }
      rcases List.mem_append.mp he with he | he
      · exact h.live e he
      · rw [List.mem_singleton.mp he]
        exact hi
  | refused preferred p what hnew =>
      exact { h with
        pool := h.pool.next (a := .construct i preferred) (by simp only [PoolState.next, hnew]; rfl) }
  | began sc => exact h.setTx i [] (by simp)
  | beginThrew sc what => exact { h with }
  | inserted sc columns id birthdate hdate =>
      refine { h.setTx i (w.tx i ++ [_]) ?_ with }
      intro row hrow
      rcases List.mem_append.mp hrow with hrow | hrow
      · exact h.tx i row hrow
      · rw [List.mem_singleton.mp hrow]
  | insertThrew sc columns what => exact { h with }
  | selected sc id rows => exact { h with }
  | selectThrew sc id what => exact { h with }
  | committed =>
      refine { h.setTx i [] (by simp) with log := fun row hrow => ?_ }
      rcases List.mem_append.mp hrow with hrow | hrow
      · exact h.log row hrow
      · rw [h.tx i row hrow]
        exact hi
  | commitThrew what => exact { h.setTx i [] (by simp) with }
  | ended => exact h.setTx i [] (by simp)
  | released sc =>
      refine { h with pool := conserved_giveBack h.pool sc, live := fun e he => ?_ }
      rw [live_giveBack] at he
      exact h.live e (List.mem_of_mem_erase he)

end step

/-! ## Following one request -/

/-- The `i`-th request has arrived, and this is its part of the world. -/
def At (i : Nat) (m : Mine) (qs : List Request) (w : World) : Prop := i < qs.length ∧ w.mine i = m

section rules

variable {i : Nat} {m : Mine} {qs : List Request} {w : World}

/-- Other requests do not change where a request is. -/
theorem stable_at (i : Nat) (m : Mine) : (accounts cfg).Stable i (At i m) :=
  fun _ _ _ _ hl hat => ⟨hat.1.trans_le hl.requests.length_le, hl.world.mine.trans hat.2⟩

/-- **A call, seen by its request alone.** -/
theorem wp_own {e : Op} {Q : e.Result → List Request → World → Prop} (hat : At i m qs w)
    (h : ∀ r m' qs w, At i m' qs w → Effect X dateOf i m e r m' → Q r qs w) :
    wp (atomicDatabase X cfg dateOf) (accounts cfg) i Q (Program.call e) qs w := by
  apply wp_call (stable_at i m) hat
  intro qs w choice r w' hinv hat hperf
  have hperf := performed_of_perform hperf
  refine ⟨hperf.accounts hinv hat.1, fun j hj => hperf.untouched hinv hj, ?_⟩
  refine h r (w'.mine i) qs w' ⟨hat.1, rfl⟩ ?_
  rw [← hat.2]
  exact hperf.effect hinv

/-- From a given state, a piece of the `i`-th request's handler returns with `P`, or throws with `T`,
of the part of the world that belongs to the request. -/
def Leaves {α : Type} (X : Externals) (cfg : DbConfig) (dateOf : Bytes → Option Bytes) (i : Nat)
    (P : α → Mine → Prop) (T : Mine → Prop) (x : DbM α) : List Request → World → Prop :=
  wpE (atomicDatabase X cfg dateOf) (accounts cfg) i (fun a qs w => ∃ m, At i m qs w ∧ P a m)
    (fun _ qs w => ∃ m, At i m qs w ∧ T m) x

variable {α β : Type} {P : α → Mine → Prop} {T : Mine → Prop}

/-- Returning a value. -/
theorem Leaves.pure {a : α} (hat : At i m qs w) (ha : P a m) :
    Leaves X cfg dateOf i P T (pure a) qs w :=
  wpE_pure ⟨m, hat, ha⟩

/-- One piece after another. -/
theorem Leaves.bind {R : β → Mine → Prop} {T' : Mine → Prop} {x : DbM α} {f : α → DbM β}
    (hx : Leaves X cfg dateOf i P T' x qs w) (hT : ∀ m, T' m → T m)
    (hf : ∀ a m qs w, At i m qs w → P a m → Leaves X cfg dateOf i R T (f a) qs w) :
    Leaves X cfg dateOf i R T (x >>= f) qs w := by
  refine wpE_bind (wpE_mono ?_ ?_ hx)
  · rintro a qs w ⟨m, hat, ha⟩
    exact hf a m qs w hat ha
  · rintro _ qs w ⟨m, hat, hm⟩
    exact ⟨m, hat, hT m hm⟩

/-! ### Calls -/

/-- A connection that is obtained is held, or nothing is. -/
theorem getConnection_own (hat : At i m qs w) (preferred : NodeType) :
    Leaves X cfg dateOf i (fun sc m' => m' = { m with held := m.held ++ [(i, sc)] }) (· = m)
      (ExceptT.mk (Program.call (Op.getConnection preferred)) : DbM ScopedConnection) qs w := by
  refine wp_own hat fun r m' qs w hat' heffect => ?_
  cases r with
  | ok sc => exact ⟨m', hat', heffect.1 sc rfl⟩
  | error what => exact ⟨m', hat', heffect.2 what rfl⟩

/-- A new transaction has no rows. -/
theorem beginWork_own (hat : At i m qs w) (sc : ScopedConnection) :
    Leaves X cfg dateOf i (fun _ m' => m' = { m with tx := [] }) (· = m)
      (ExceptT.mk (Program.call (Op.beginWork sc)) : DbM Unit) qs w := by
  refine wp_own hat fun r m' qs w hat' heffect => ?_
  cases r with
  | ok _ => exact ⟨m', hat', heffect.1 rfl⟩
  | error what => exact ⟨m', hat', heffect.2 what rfl⟩

/-- A `SELECT` leaves what the request has as it is. -/
theorem execSelect_own (hat : At i m qs w) (sc : ScopedConnection) (id : Bytes) :
    Leaves X cfg dateOf i (fun _ m' => m' = m) (· = m) (execSelect sc id) qs w := by
  refine wp_own hat fun r m' qs w hat' heffect => ?_
  cases r with
  | ok rows => exact ⟨m', hat', heffect⟩
  | error what => exact ⟨m', hat', heffect⟩

variable (G : α → List UserRow → Prop) (E : List UserRow → Prop)

/-- A block with a transaction, which is gone after it. -/
theorem withWork_own (hat : At i m qs w) (hthrew : E m.gained) (sc : ScopedConnection)
    {body : DbM α}
    (hbody : ∀ qs w, At i { m with tx := [] } qs w →
      Leaves X cfg dateOf i (fun a m' => m'.held = m.held ∧ G a m'.gained)
        (fun m' => m'.held = m.held ∧ E m'.gained) body qs w) :
    Leaves X cfg dateOf i (fun a m' => m'.held = m.held ∧ G a m'.gained)
      (fun m' => m'.held = m.held ∧ E m'.gained) (withWork sc body) qs w := by
  refine (beginWork_own hat sc).bind ?_ ?_
  · rintro _ rfl
    exact ⟨rfl, hthrew⟩
  · rintro _ _ qs w hat rfl
    refine wpE_andFinally ?_ (hbody qs w hat)
    intro result qs w hresult
    cases result with
    | ok a =>
        obtain ⟨m', hat', hm'⟩ := hresult
        refine wp_own hat' fun _ m'' qs w hat'' heffect => ⟨m'', hat'', ?_⟩
        rw [show m'' = { m' with tx := [] } from heffect]
        exact hm'
    | error what =>
        obtain ⟨m', hat', hm'⟩ := hresult
        refine wp_own hat' fun _ m'' qs w hat'' heffect => ⟨m'', hat'', ?_⟩
        rw [show m'' = { m' with tx := [] } from heffect]
        exact hm'

/-- A block with a connection, which is given back after it. -/
theorem withScopedConnection_own (hat : At i m qs w) (hheld : m.held = []) (hthrew : E m.gained)
    (preferred : NodeType) {body : ScopedConnection → DbM α}
    (hbody : ∀ sc qs w, At i { m with held := [(i, sc)] } qs w →
      Leaves X cfg dateOf i (fun a m' => m'.held = [(i, sc)] ∧ G a m'.gained)
        (fun m' => m'.held = [(i, sc)] ∧ E m'.gained) (body sc) qs w) :
    Leaves X cfg dateOf i (fun a m' => m'.held = [] ∧ G a m'.gained)
      (fun m' => m'.held = [] ∧ E m'.gained) (withScopedConnection preferred body) qs w := by
  refine (getConnection_own hat preferred).bind ?_ ?_
  · rintro _ rfl
    exact ⟨hheld, hthrew⟩
  · rintro sc _ qs w hat rfl
    rw [hheld, List.nil_append] at hat
    refine wpE_andFinally ?_ (hbody sc qs w hat)
    intro result qs w hresult
    cases result with
    | ok a =>
        obtain ⟨m', hat', hheld', hm'⟩ := hresult
        refine wp_own hat' fun _ m'' qs w hat'' heffect => ⟨m'', hat'', ?_⟩
        rw [show m'' = { m' with held := m'.held.erase (i, sc) } from heffect, hheld']
        exact ⟨List.erase_cons_head .., hm'⟩
    | error what =>
        obtain ⟨m', hat', hheld', hm'⟩ := hresult
        refine wp_own hat' fun _ m'' qs w hat'' heffect => ⟨m'', hat'', ?_⟩
        rw [show m'' = { m' with held := m'.held.erase (i, sc) } from heffect, hheld']
        exact ⟨List.erase_cons_head .., hm'⟩

end rules

end SocialNetwork.App
