import SocialNetwork.App.Consistency

/-!
# Rules for the calls of the handlers

For each call, what a handler knows after it, whatever other requests and replication do in
between. `Meets P Q x`: when the piece `x` of a handler returns `a`, `P` and `Q a` hold; when it
throws, `P` holds and a call of this request is on record as having thrown.

An assertion that other requests and most own calls keep is `Carried`; one that does not look at
the connections held is `Lasting`.
-/

namespace SocialNetwork.App

open Foundation Helpers Pool

/-- A statement about the world and the requests that have arrived. -/
abbrev Assertion := List Request → World → Prop

/-- Kept by everything but a call of the `i`-th request that takes or gives back a connection. -/
def Carried (i : Nat) (P : Assertion) : Prop :=
  ∀ ⦃qs w qs' w'⦄, qs <+: qs' → w.log <+: w'.log → w.threw <+: w'.threw →
    w'.held i = w.held i → P qs w → P qs' w'

/-- Kept by everything. -/
def Lasting (P : Assertion) : Prop :=
  ∀ ⦃qs w qs' w'⦄, qs <+: qs' → w.log <+: w'.log → w.threw <+: w'.threw → P qs w → P qs' w'

/-- A call of the `i`-th request has thrown. -/
def Threw (i : Nat) : Assertion := fun _ w => ∃ cause, (i, cause) ∈ w.threw

section assertions

variable {i : Nat} {P Q : Assertion}

/-- What lasts is carried through the steps of a request. -/
theorem Lasting.carried (h : Lasting P) : Carried i P :=
  fun _ _ _ _ hq hlog hthrew _ hp => h hq hlog hthrew hp

/-- Two assertions that last, last together. -/
theorem Lasting.and (hP : Lasting P) (hQ : Lasting Q) : Lasting fun qs w => P qs w ∧ Q qs w :=
  fun _ _ _ _ hq hlog hthrew hp => ⟨hP hq hlog hthrew hp.1, hQ hq hlog hthrew hp.2⟩

/-- Two assertions that are carried are carried together. -/
theorem Carried.and (hP : Carried i P) (hQ : Carried i Q) :
    Carried i fun qs w => P qs w ∧ Q qs w :=
  fun _ _ _ _ hq hlog hthrew hheld hp =>
    ⟨hP hq hlog hthrew hheld hp.1, hQ hq hlog hthrew hheld hp.2⟩

/-- What a request holds is not changed by the others. -/
theorem carried_held (held : List (Nat × ScopedConnection)) :
    Carried i fun _ w => w.held i = held :=
  fun _ _ _ _ _ _ _ hheld hp => hheld.trans hp

/-- A failure stays recorded. -/
theorem lasting_threw (i : Nat) : Lasting (Threw i) :=
  fun _ _ _ _ _ _ hthrew ⟨cause, hcause⟩ => ⟨cause, hthrew.subset hcause⟩

/-- A request that has arrived stays at its place. -/
theorem lasting_request (i : Nat) (q : Request) : Lasting fun qs _ => qs[i]? = some q :=
  fun _ _ _ _ hq _ _ hp => getElem?_of_prefix hq hp

/-- An outcome lasts if its postconditions do. -/
theorem lasting_outcome {α : Type} {Q : α → Assertion} (hQ : ∀ a, Lasting (Q a))
    (result : Except Bytes α) : Lasting (outcome Q (fun _ => Threw i) result) := by
  cases result with
  | ok a => exact hQ a
  | error what => exact lasting_threw i

/-- An outcome is carried if its postconditions are. -/
theorem carried_outcome {α : Type} {Q : α → Assertion} (hQ : ∀ a, Carried i (Q a))
    (result : Except Bytes α) : Carried i (outcome Q (fun _ => Threw i) result) := by
  cases result with
  | ok a => exact hQ a
  | error what => exact (lasting_threw i).carried

/-- What is carried is stable under the steps of the others. -/
theorem Carried.stable {X : Externals} {cfg : DbConfig} (h : Carried i P) :
    (discipline X cfg).Stable i P :=
  fun _ _ _ _ hl => h hl.requests hl.world.log hl.world.threw hl.world.held

/-- An own call that leaves the pool alone keeps a carried assertion. -/
theorem Carried.own (h : Carried i P) {qs : List Request} {w w' : World} (ho : Own i w w')
    (hheld : w'.held i = w.held i) (hp : P qs w) : P qs w' :=
  h List.prefix_rfl ho.log ho.threw hheld hp

/-- What lasts survives a request's own steps. -/
theorem Lasting.own (h : Lasting P) {qs : List Request} {w w' : World} (ho : Own i w w')
    (hp : P qs w) : P qs w' :=
  h List.prefix_rfl ho.log ho.threw hp

/-- A failure that is recorded is one that was thrown. -/
theorem threw_record (w : World) (qs : List Request) (cause : Failure) :
    Threw i qs (w.record i cause) :=
  ⟨cause, List.mem_append_right _ List.mem_cons_self⟩

end assertions

section rules

variable (X : Externals) (cfg : DbConfig) (i : Nat)

/-- What a piece of the `i`-th request's handler comes to, from a given state. -/
def Meets {α : Type} (P : Assertion) (Q : α → Assertion) (x : DbM α) : Assertion :=
  wpE (database X cfg) (discipline X cfg) i (fun a qs w => P qs w ∧ Q a qs w)
    (fun _ qs w => P qs w ∧ Threw i qs w) x

variable {X cfg i} {P : Assertion} {qs : List Request} {w : World}

/-- One call: what it does is looked up in `perform`, in a later state in which the carried
assertion and the rows of the transaction are as they were. -/
theorem wp_perform {e : Op} {Q : e.Result → Assertion} (hP : Carried i P) (hp : P qs w)
    {rows : List UserRow} (htx : w.tx i = rows)
    (hallowed : ∀ qs w, P qs w → Allowed X i e qs w)
    (hres : ∀ qs w choice r w', Consistent X cfg qs w → P qs w → w.tx i = rows → Own i w w' →
      perform X i w e choice = some (r, w') → Q r qs w') :
    wp (database X cfg) (discipline X cfg) i Q (Program.call e) qs w := by
  have htxStable : (discipline X cfg).Stable i fun _ w => w.tx i = rows :=
    fun _ _ _ _ hl htx => hl.world.tx.trans htx
  refine wp_call (hP.stable.and htxStable) ⟨hp, htx⟩ fun qs w choice r w' hinv hpre hperf => ?_
  obtain ⟨hinv', hown⟩ := perform_consistent hinv (hallowed qs w hpre.1) hperf
  exact ⟨hinv', fun j hj => hown.kept hj, hres qs w choice r w' hinv hpre.1 hpre.2 hown hperf⟩

/-- Returning a value. -/
theorem Meets.pure {α : Type} {Q : α → Assertion} {a : α} (hp : P qs w) (ha : Q a qs w) :
    Meets X cfg i P Q (pure a) qs w :=
  wpE_pure ⟨hp, ha⟩

/-- One piece after another. -/
theorem Meets.bind {α β : Type} {Q : α → Assertion} {R : β → Assertion} {x : DbM α}
    {f : α → DbM β} (hx : Meets X cfg i P Q x qs w)
    (hf : ∀ a qs w, P qs w → Q a qs w → Meets X cfg i P R (f a) qs w) :
    Meets X cfg i P R (x >>= f) qs w :=
  wpE_bind (wpE_mono (fun a qs w h => hf a qs w h.1 h.2) (fun _ _ _ h => h) hx)

/-! ## Calls -/

/-- A hash is made with some salt. -/
theorem generateHash_spec (hP : Carried i P) (hp : P qs w) (pwd : Bytes) (workload : Nat) :
    Meets X cfg i P (fun hash _ _ => ∃ salt, hash = X.generateHash pwd workload salt)
      (generateHash pwd workload) qs w := by
  refine wp_perform hP hp rfl (fun _ _ _ => trivial) ?_
  intro qs w choice r w' _ hp _ hown hperf
  obtain ⟨salt, rfl, rfl⟩ | ⟨what, rfl, rfl⟩ := perform_generateHash hperf
  · exact ⟨hp, salt, rfl⟩
  · exact ⟨hP.own hown rfl hp, threw_record w qs _⟩

/-- A transaction starts out empty. -/
theorem beginWork_spec (hP : Carried i P) (hp : P qs w) (sc : ScopedConnection) :
    Meets X cfg i P (fun _ _ w => w.tx i = [])
      (ExceptT.mk (Program.call (Op.beginWork sc)) : DbM Unit) qs w := by
  refine wp_perform hP hp rfl (fun _ _ _ => trivial) ?_
  intro qs w choice r w' _ hp _ hown hperf
  obtain ⟨rfl, rfl⟩ | ⟨what, rfl, rfl⟩ := perform_beginWork hperf
  · exact ⟨hP.own hown rfl hp, Function.update_self ..⟩
  · exact ⟨hP.own hown rfl hp, threw_record w qs _⟩

/-- An `INSERT` gives back the id of the one new row of the transaction. -/
theorem execInsert_spec (hP : Carried i P) (hp : P qs w) (htx : w.tx i = [])
    {sc : ScopedConnection} {columns : UserColumns} (hmaster : sc.conn.nodeType = .master)
    (hentered : ∀ qs w, P qs w → Entered X qs i columns) :
    Meets X cfg i P
      (fun ids _ w => ∃ row : UserRow, ids = [row.id] ∧ row.owner = i ∧ w.tx i = [row])
      (execInsert sc columns) qs w := by
  refine wp_perform hP hp htx (fun qs w hp => ⟨hmaster, hentered qs w hp⟩) ?_
  intro qs w choice r w' _ hp htx hown hperf
  obtain ⟨id, birthdate, -, rfl, rfl⟩ | ⟨what, rfl, rfl⟩ := perform_insert hperf
  · refine ⟨hP.own hown rfl hp,
      { columns with birthdate := birthdate, owner := i, id := id }, rfl, rfl, ?_⟩
    show Function.update w.tx i (w.tx i ++ [_]) i = _
    rw [Function.update_self, htx]
    rfl
  · exact ⟨hP.own hown rfl hp, threw_record _ qs _⟩

/-- A `SELECT` gives back committed rows with the id. On the master it finds a row that is known to
be there. -/
theorem execSelect_spec (hP : Carried i P) (hp : P qs w) (htx : w.tx i = [])
    {sc : ScopedConnection} {id : Bytes} (known : Prop)
    (hknown : ∀ qs w, P qs w → known → ∃ row ∈ w.log, row.id = toLowercase id) :
    Meets X cfg i P
      (fun rows _ w => (∀ row ∈ rows, row ∈ w.log ∧ row.id = toLowercase id) ∧
        (sc.conn.nodeType = .master → known → rows ≠ []))
      (execSelect sc id) qs w := by
  refine wp_perform hP hp htx (fun _ _ _ => trivial) ?_
  intro qs w choice r w' _ hp htx hown hperf
  obtain ⟨rfl, rfl⟩ | ⟨what, rfl, rfl⟩ := perform_select hperf
  · rw [htx, List.append_nil]
    refine ⟨hP.own hown rfl hp, fun row hrow => ?_, fun hmaster hk hnil => ?_⟩
    · obtain ⟨hmem, hid⟩ := List.mem_filter.mp hrow
      refine ⟨?_, of_decide_eq_true hid⟩
      unfold World.table at hmem
      split at hmem
      · exact hmem
      · exact List.mem_of_mem_take hmem
    · obtain ⟨row, hrow, hid⟩ := hknown qs w hp hk
      have htable : w.table sc.conn = w.log := by
        unfold World.table
        rw [hmaster]
      rw [htable] at hnil
      exact List.filter_eq_nil_iff.mp hnil row hrow (decide_eq_true hid)
  · exact ⟨hP.own hown rfl hp, threw_record _ qs _⟩

/-- After a commit that did not throw, the row is in the master's table. -/
theorem commit_spec (hP : Carried i P) (hp : P qs w) {row : UserRow} (htx : w.tx i = [row]) :
    Meets X cfg i P (fun _ _ w => row ∈ w.log) commit qs w := by
  refine wp_perform hP hp htx (fun _ _ _ => trivial) ?_
  intro qs w choice r w' _ hp htx hown hperf
  obtain ⟨rfl, rfl⟩ | ⟨what, rfl, rfl⟩ | ⟨what, rfl, rfl⟩ := perform_commit hperf
  · refine ⟨hP.own hown rfl hp, ?_⟩
    show row ∈ w.log ++ w.tx i
    rw [htx]
    exact List.mem_append_right _ List.mem_cons_self
  · exact ⟨hP.own hown rfl hp, threw_record _ qs _⟩
  · exact ⟨hP.own hown rfl hp, threw_record _ qs _⟩

/-! ## Blocks with a local variable -/

/-- A block with a transaction. -/
theorem withWork_spec {α : Type} {Q : α → Assertion} (hP : Carried i P)
    (hQ : ∀ a, Carried i (Q a)) (hp : P qs w) (sc : ScopedConnection) {body : DbM α}
    (hbody : ∀ qs w, P qs w → w.tx i = [] → Meets X cfg i P Q body qs w) :
    Meets X cfg i P Q (withWork sc body) qs w := by
  refine Meets.bind (beginWork_spec hP hp sc) fun _ qs w hp htx => ?_
  refine wpE_andFinally (fun result qs w hr => ?_) (hbody qs w hp htx)
  have hcarried := hP.and (carried_outcome hQ result)
  refine wp_perform hcarried ((outcome_and result qs w).mp hr) rfl (fun _ _ _ => trivial) ?_
  intro qs w choice r w' _ hr _ hown hperf
  obtain rfl := perform_endWork hperf
  exact (outcome_and result qs _).mpr (hcarried.own hown rfl hr)

/-- A block with a connection. It goes to the master if that is asked for, or if there is no
replica. -/
theorem withScopedConnection_spec {α : Type} {Q : α → Assertion} (hP : Lasting P)
    (hQ : ∀ a, Lasting (Q a)) (hp : P qs w) (hheld : w.held i = [])
    (hi : ∀ qs w, P qs w → i < qs.length) {preferred : NodeType}
    {body : ScopedConnection → DbM α}
    (hbody : ∀ sc qs w, P qs w → w.held i = [(i, sc)] →
      (preferred = .master ∨ cfg.replicas = [] → sc.conn.nodeType = .master) →
      Meets X cfg i (fun qs w => P qs w ∧ w.held i = [(i, sc)]) Q (body sc) qs w) :
    Meets X cfg i (fun qs w => P qs w ∧ w.held i = []) Q
      (withScopedConnection preferred body) qs w := by
  have hget : wp (database X cfg) (discipline X cfg) i
      (outcome (fun (sc : ScopedConnection) qs w => P qs w ∧ w.held i = [(i, sc)] ∧
          (preferred = .master ∨ cfg.replicas = [] → sc.conn.nodeType = .master))
        (fun (_ : Bytes) qs w => (P qs w ∧ w.held i = []) ∧ Threw i qs w))
      (Program.call (Op.getConnection preferred)) qs w := by
    refine wp_perform (hP.carried.and (carried_held [])) ⟨hp, hheld⟩ rfl
      (fun qs w h => ⟨h.2, hi qs w h.1⟩) ?_
    intro qs w choice r w' hinv hpre _ hown hperf
    obtain ⟨p, sc, hnew, rfl, rfl⟩ | ⟨p, what, -, rfl, rfl⟩ := perform_getConnection hperf
    · obtain ⟨hconn, hnum, hmaster⟩ := hinv.pool.new_ok hnew
      refine ⟨hP.own hown hpre.1, ?_, ?_⟩
      · have hnone : w.pool.live.filter (fun e => decide (e.1 = i)) = [] := hpre.2
        simp [World.held, hnone]
      · rintro (hpref | hrep)
        · rw [hconn]
          exact hmaster hpref
        · rw [hconn]
          cases htype : sc.nodeType with
          | master => rfl
          | replica => simp [htype, DbConfig.pool, PoolConfig.nodes, hrep] at hnum
    · exact ⟨⟨hP.own hown hpre.1, hpre.2⟩, threw_record _ qs _⟩
  refine wpE_bind (wp_mono (fun result qs w hr => ?_) hget)
  cases result with
  | error what => exact hr
  | ok sc =>
      obtain ⟨hp, hheld, hmaster⟩ := hr
      refine wpE_andFinally (fun result qs w hr => ?_) (hbody sc qs w hp hheld hmaster)
      have hlasting := lasting_outcome (i := i) hQ result
      refine wp_perform ((hP.carried.and (carried_held _)).and hlasting.carried)
        ((outcome_and result qs w).mp hr) rfl (fun _ _ _ => trivial) ?_
      intro qs w choice r w' _ hr _ hown hperf
      obtain rfl := perform_release hperf
      obtain ⟨⟨hp, hheld⟩, hr⟩ := hr
      refine (outcome_and result qs _).mpr ⟨⟨hP.own hown hp, ?_⟩, hlasting.own hown hr⟩
      rw [held_giveBack, hheld]
      exact List.erase_cons_head ..

/-- The `try` block and what follows it: nothing is thrown any more. -/
theorem tryQuery_spec {Q : TryResult → Assertion} {R : Bool × HttpResponse → Assertion}
    {E : Bytes → Assertion} {res : HttpResponse} {block : DbM TryResult}
    (hblock : Meets X cfg i P Q block qs w)
    (hQ : ∀ result qs w, P qs w → Q result qs w → R result.conclude qs w)
    (hthrew : ∀ what qs w, P qs w → Threw i qs w →
      R (false, (res.setStatus 500).setJson (errorJson 500 (str "Error SQL: " ++ what))) qs w) :
    wpE (database X cfg) (discipline X cfg) i R E (tryQuery res block) qs w := by
  refine wpE_bind (wpE_tryCatch (wpE_mono ?_ ?_ hblock))
  · intro result qs w h
    exact wpE_pure (hQ result qs w h.1 h.2)
  · intro what qs w h
    exact wpE_pure (wpE_pure (hthrew what qs w h.1 h.2))

end rules

end SocialNetwork.App
