import SocialNetwork.App.PrimaryKey
import SocialNetwork.Foundation.OrderedSet

/-!
# Searches over whole runs

What `/user/search` answers while registrations, logins, profile reads, other searches and
replication go on: the answer is what its query gives on one state of the master's table, some state
so far, and without replicas one that has every registration that was answered before the search
arrived. From that and the invariant of the database it follows what a client may rely on
(`search_sound`).
-/

namespace SocialNetwork.App

open Foundation Helpers Pool

/-! ## Postconditions -/

/-- The rows are what the query gives on the first rows of the master's table. Without replicas,
these include the registrations that were acknowledged before. -/
def Snapshot (cfg : DbConfig) (before : List (Request × HttpResponse)) (firstName secondName : Bytes)
    (rows : List UserRow) : Assertion := fun qs w =>
  ∃ n ≤ w.log.length,
    selectLike UserRow.id (·.firstName) (·.secondName) (w.log.take n) firstName secondName =
      .ok rows ∧
    (cfg.replicas = [] → ∀ rq id, Acknowledged before rq id →
      ∃ row ∈ w.log.take n, qs[row.owner]? = some (.userRegister rq) ∧ row.id = id)

/-- The answer for these rows. -/
def searchAnswer (rows : List UserRow) : HttpResponse :=
  ⟨some 200, some (.json (.array (rows.map searchJson)))⟩

/-- The postcondition of `/user/search`: the rows of a snapshot, or a refusal, or 500 after an
exception. -/
def SearchPost (cfg : DbConfig) (dbPool : Bool) (i : Nat) (req : SearchRequest)
    (before : List (Request × HttpResponse)) (res : HttpResponse) : Assertion := fun qs w =>
  (∃ rows, Snapshot cfg before (req.getParamValue (str "first_name") ++ str "%")
      (req.getParamValue (str "last_name") ++ str "%") rows qs w ∧ res = searchAnswer rows) ∨
    (res.status = some 400 ∧
      (req.hasParam (str "first_name") && req.hasParam (str "last_name")) = false) ∨
    (res.status = some 503 ∧ dbPool = false) ∨ (res.status = some 500 ∧ Threw i qs w)

section lasting

variable {cfg : DbConfig} {dbPool : Bool} {i : Nat} {before : List (Request × HttpResponse)}

/-- What a search has seen stays so. -/
theorem lasting_snapshot {firstName secondName : Bytes} {rows : List UserRow} :
    Lasting (Snapshot cfg before firstName secondName rows) := by
  rintro qs w qs' w' hq hlog - ⟨n, hn, hrows, hack⟩
  have htake : w'.log.take n = w.log.take n := by
    obtain ⟨rest, hrest⟩ := hlog
    rw [← hrest, List.take_append_of_le_length hn]
  refine ⟨n, hn.trans hlog.length_le, by rw [htake]; exact hrows, fun hrep rq id h => ?_⟩
  obtain ⟨row, hrow, howner, hid⟩ := hack hrep rq id h
  exact ⟨row, htake ▸ hrow, getElem?_of_prefix hq howner, hid⟩

/-- The postcondition of a search lasts. -/
theorem lasting_searchPost (req : SearchRequest) (res : HttpResponse) :
    Lasting (SearchPost cfg dbPool i req before res) := by
  rintro qs w qs' w' hq hlog hthrew (⟨rows, hsnap, hres⟩ | h | h | ⟨hstatus, h⟩)
  · exact .inl ⟨rows, lasting_snapshot hq hlog hthrew hsnap, hres⟩
  · exact .inr (.inl h)
  · exact .inr (.inr (.inl h))
  · exact .inr (.inr (.inr ⟨hstatus, lasting_threw i hq hlog hthrew h⟩))

end lasting

/-! ## The handler -/

section handler

variable {X : Externals} {cfg : DbConfig} {dbPool : Bool} {i : Nat}
  {before : List (Request × HttpResponse)} {qs : List Dispatch} {w : World} {P : Assertion}

/-- A call for a connection. Without replicas it goes to the master. -/
theorem getConnection_spec (hP : Lasting P) (hp : Seen P qs w) (hheld : w.held i = [])
    (hi : ∀ qs w, P qs w → i < qs.length) :
    wpE (searchDatabase X cfg) (searchDiscipline X cfg) i
      (fun sc => Seen fun qs w => P qs w ∧ w.held i = [(i, sc)] ∧
        (cfg.replicas = [] → sc.conn.nodeType = .master))
      (fun _ => Seen fun qs w => P qs w ∧ Threw i qs w) (SearchM.getConnection .replica) qs w := by
  refine wp_mono (fun result qs w hr => ?_) (wp_searchPerform (e := .getConnection .replica)
    (Q := outcome (fun (sc : ScopedConnection) qs w => P qs w ∧ w.held i = [(i, sc)] ∧
        (cfg.replicas = [] → sc.conn.nodeType = .master))
      (fun (_ : Bytes) qs w => P qs w ∧ Threw i qs w))
    (hP.carried.and (carried_held [])) ⟨hp, hheld⟩ rfl (fun qs w h => ⟨h.2, hi qs w h.1⟩) ?_)
  · cases result with
    | ok sc => exact hr
    | error what => exact hr
  · intro qs w choice r w' hinv hpre _ hown hperf
    obtain ⟨p, sc, hnew, rfl, rfl⟩ | ⟨p, what, -, rfl, rfl⟩ := perform_getConnection hperf
    · obtain ⟨hconn, hnum, -⟩ := hinv.pool.new_ok hnew
      refine ⟨hP.own hown hpre.1, ?_, fun hrep => ?_⟩
      · have hnone : w.pool.live.filter (fun e => decide (e.1 = i)) = [] := hpre.2
        simp [World.held, hnone]
      · rw [hconn]
        cases htype : sc.nodeType with
        | master => rfl
        | replica => simp [htype, DbConfig.pool, PoolConfig.nodes, hrep] at hnum
    · exact ⟨hP.own hown hpre.1, threw_record _ qs _⟩

/-- A transaction starts out empty. -/
theorem searchBeginWork_spec (hP : Lasting P) (hp : Seen P qs w) (sc : ScopedConnection) :
    wpE (searchDatabase X cfg) (searchDiscipline X cfg) i
      (fun _ => Seen fun qs w => P qs w ∧ w.tx i = []) (fun _ => Seen fun qs w => P qs w ∧ Threw i qs w)
      (SearchM.beginWork sc) qs w := by
  refine wp_mono (fun result qs w hr => ?_) (wp_searchPerform (e := .beginWork sc)
    (Q := outcome (fun (_ : Unit) qs w => P qs w ∧ w.tx i = [])
      (fun (_ : Bytes) qs w => P qs w ∧ Threw i qs w))
    hP.carried hp rfl (fun _ _ _ => trivial) ?_)
  · cases result with
    | ok u => exact hr
    | error what => exact hr
  · intro qs w choice r w' _ hp _ hown hperf
    obtain ⟨rfl, rfl⟩ | ⟨what, rfl, rfl⟩ := perform_beginWork hperf
    · exact ⟨hP.own hown hp, Function.update_self ..⟩
    · exact ⟨hP.own hown hp, threw_record w qs _⟩

/-- A destructor leaves alone what the block has come to. -/
theorem searchEnd_spec {Q : TryResult → Assertion} (hQ : ∀ r, Lasting (Q r)) {e : Op}
    (hallowed : ∀ qs w, Allowed X i e qs w) {result : Except Bytes TryResult}
    (hr : outcome (fun r => Seen (Q r)) (fun _ => Seen (Threw i)) result qs w) :
    wp (searchDatabase X cfg) (searchDiscipline X cfg) i
      (fun _ => outcome (fun r => Seen (Q r)) (fun _ => Seen (Threw i)) result)
      (Program.call (R := SearchOp.Result) (.db e)) qs w := by
  have hlasting := lasting_outcome (i := i) hQ result
  have hr' : Seen (outcome Q (fun _ => Threw i) result) qs w := by
    cases result with
    | ok r => exact hr
    | error what => exact hr
  refine wp_mono (fun _ qs w h => ?_) (wp_searchPerform
    (Q := fun _ => outcome Q (fun _ => Threw i) result) hlasting.carried hr' rfl
    (fun qs w _ => hallowed qs w) fun qs w choice r w' _ hr _ ho _ => hlasting.own ho hr)
  cases result with
  | ok r => exact h
  | error what => exact h

/-- The block of the search: it gives a snapshot, or something has thrown. -/
theorem searchBlock_spec (hknown : Seen (Known dbPool before) qs w) (hi : i < qs.length)
    (hheld : w.held i = []) (firstName secondName : Bytes) :
    wpE (searchDatabase X cfg) (searchDiscipline X cfg) i
      (fun r => Seen fun qs w => ∃ rows, r = searchResult .fresh rows ∧
        Snapshot cfg before firstName secondName rows qs w)
      (fun _ => Seen (Threw i))
      (do
        let sc ← SearchM.getConnection .replica
        Program.andFinally (do
          SearchM.beginWork sc
          Program.andFinally (do
            let result ← SearchM.execSearch sc firstName secondName
            pure (searchResult .fresh result)) (Program.call (SearchOp.db .endWork)))
          (Program.call (SearchOp.db (.release sc)))) qs w := by
  have hP : Lasting fun qs w => Known dbPool before qs w ∧ i < qs.length :=
    lasting_known.and fun _ _ _ _ hq _ _ hlt => hlt.trans_le hq.length_le
  have hp : Seen (fun qs w => Known dbPool before qs w ∧ i < qs.length) qs w :=
    ⟨hknown, by simpa using hi⟩
  let Q : TryResult → Assertion := fun r qs w => ∃ rows, r = searchResult .fresh rows ∧
    Snapshot cfg before firstName secondName rows qs w
  have hQ : ∀ r, Lasting (Q r) := by
    rintro r qs w qs' w' hq hlog hthrew ⟨rows, rfl, hsnap⟩
    exact ⟨rows, rfl, lasting_snapshot hq hlog hthrew hsnap⟩
  refine wpE_bind (wpE_mono (fun sc qs w h => ?_) (fun _ _ _ h => h.2)
    (getConnection_spec hP hp hheld fun _ _ h => h.2))
  obtain ⟨hp, -, hmaster⟩ := h
  refine wpE_andFinally (fun result qs w hr =>
    searchEnd_spec (e := .release sc) hQ (fun _ _ => trivial) hr) ?_
  refine wpE_bind (wpE_mono (fun _ qs w h => ?_) (fun _ _ _ h => h.2)
    (searchBeginWork_spec hP hp sc))
  obtain ⟨hp, htx⟩ := h
  refine wpE_andFinally (fun result qs w hr =>
    searchEnd_spec (e := .endWork) hQ (fun _ _ => trivial) hr) ?_
  refine wpE_bind (wpE_mono (fun rows qs w h => ?_) (fun _ _ _ h => h.2)
    (execSearch_spec hP.carried hp htx sc firstName secondName))
  obtain ⟨⟨hknown, -⟩, n, hn, hrows, hall⟩ := h
  refine wpE_pure ⟨rows, rfl, n, hn, hrows, fun hrep rq id hack => ?_⟩
  obtain ⟨-, row, hrow, howner, hid⟩ := hknown.row hack
  rw [hall (hmaster hrep), List.take_length]
  exact ⟨row, hrow, howner, hid⟩

/-- `App::user_search_handler`. -/
theorem userSearchHandler_spec {req : SearchRequest} (hknown : Seen (Known dbPool before) qs w)
    (hi : i < qs.length) (hheld : w.held i = []) {E : Bytes → List Dispatch → World → Prop} :
    wpE (searchDatabase X cfg) (searchDiscipline X cfg) i
      (fun r => Seen (SearchPost cfg dbPool i req before (finish X req.toHttpRequest r.2))) E
      (userSearchHandler dbPool req .fresh) qs w := by
  unfold userSearchHandler userSearchHandlerWith
  split_ifs with hparams hpool
  · refine wpE_pure (.inr (.inl ⟨rfl, ?_⟩))
    rwa [← Bool.not_and, Bool.not_eq_true'] at hparams
  · exact wpE_pure (.inr (.inr (.inl ⟨rfl, by simpa using hpool⟩)))
  · refine wpE_bind (wpE_tryCatch (wpE_mono ?_ ?_ (searchBlock_spec hknown hi hheld _ _)))
    · rintro r qs w ⟨rows, rfl, hsnap⟩
      exact wpE_pure (.inl ⟨rows, hsnap, rfl⟩)
    · intro what qs w hthrew
      exact wpE_pure (wpE_pure (.inr (.inr (.inr ⟨rfl, hthrew⟩))))

end handler

/-! ## All requests -/

/-- The postcondition of a request, of the requests as the others see them. -/
def anyPost (X : Externals) (cfg : DbConfig) (dbPool : Bool) (i : Nat) (q : Dispatch)
    (before : List (Dispatch × HttpResponse)) (res : HttpResponse) : List Dispatch → World → Prop :=
  match q with
  | .login req => Seen (post X cfg dbPool i (.login req) (userAnswers before) res)
  | .userRegister req => Seen (post X cfg dbPool i (.userRegister req) (userAnswers before) res)
  | .userGetId req => Seen (post X cfg dbPool i (.userGetId req) (userAnswers before) res)
  | .userSearch req => Seen (SearchPost cfg dbPool i req (userAnswers before) res)

section correct

variable {X : Externals} {cfg : DbConfig} {dbPool : Bool} {qs : List Dispatch} {w : World}
  {before : List (Dispatch × HttpResponse)}

/-- The postcondition of a request without a search is that of the smaller server. -/
theorem anyPost_of_user? {i : Nat} {q : Dispatch} {r : Request} (h : q.user? = some r)
    (res : HttpResponse) :
    anyPost X cfg dbPool i q before res = Seen (post X cfg dbPool i r (userAnswers before) res) := by
  cases q <;> cases h <;> rfl

/-- The answered requests that are not searches have met their postconditions. -/
theorem answered_userAnswers (h : Answered (anyPost X cfg dbPool) before qs w) :
    Answered (post X cfg dbPool) (userAnswers before) (qs.map Dispatch.reader) w := by
  rintro ⟨r, res⟩ hx
  obtain ⟨q, hmem, hr⟩ := mem_userAnswers.mp hx
  obtain ⟨j, earlier, hj, hpost⟩ := h _ hmem
  refine ⟨j, userAnswers earlier, ?_, ?_⟩
  · rw [List.getElem?_map, hj, Option.map_some, Dispatch.reader_of_user? hr]
  · rw [anyPost_of_user? hr] at hpost
    exact hpost

/-- An acknowledged registration is in the master's table. -/
theorem known_of_answered {before : List (Request × HttpResponse)} {qs : List Request}
    (h : Answered (post X cfg dbPool) before qs w) : Known dbPool before qs w := by
  intro rq rs hrs hstatus
  obtain ⟨j, earlier, hj, hpost⟩ := h _ hrs
  obtain ⟨hpool, row, hrow, howner, hcontent⟩ := hpost hstatus
  exact ⟨hpool, row, hrow, howner ▸ hj, hcontent⟩

/-- A request that is not a search is served as before. -/
theorem serveAny_of_user? {q : Dispatch} {r : Request} (h : q.user? = some r) :
    serveAny X dbPool q = withSearch (serve X dbPool r) := by
  cases q <;> cases h <;> rfl

/-- The handlers keep the invariant of the database and meet their postconditions. -/
theorem search_correct (X : Externals) (cfg : DbConfig) (dbPool : Bool) :
    Correct (searchDatabase X cfg) (searchDiscipline X cfg) (serveAny X dbPool)
      (anyPost X cfg dbPool) where
  start := consistent_start X cfg
  background h hb := Consistent.replicate h hb
  stable i q before res := by
    have hext := extends_database X cfg
    have huser : ∀ r, Lasting (post X cfg dbPool i r (userAnswers before) res) :=
      fun r => lasting_post r res
    cases q with
    | login req => exact hext.stable (huser (.login req)).carried.stable
    | userRegister req => exact hext.stable (huser (.userRegister req)).carried.stable
    | userGetId req => exact hext.stable (huser (.userGetId req)).carried.stable
    | userSearch req => exact hext.stable (lasting_searchPost req res).carried.stable
  spawn := by
    intro qs w before q hinv hans
    have hans' := answered_userAnswers hans
    have huser : ∀ r, q.user? = some r →
        (searchDiscipline X cfg).inv (qs ++ [q]) w ∧
          wp (searchDatabase X cfg) (searchDiscipline X cfg) qs.length
            (anyPost X cfg dbPool qs.length q before) (serveAny X dbPool q) (qs ++ [q]) w := by
      intro r hr
      obtain ⟨hinv', hwp⟩ := (correct X cfg dbPool).spawn r hinv hans'
      have hqs : qs.map Dispatch.reader ++ [r] = (qs ++ [q]).map Dispatch.reader := by
        rw [List.map_append, List.map_singleton, Dispatch.reader_of_user? hr]
      rw [List.length_map, hqs] at hwp
      rw [hqs] at hinv'
      have hpost : anyPost X cfg dbPool qs.length q before =
          fun res => Seen (post X cfg dbPool qs.length r (userAnswers before) res) :=
        funext fun res => anyPost_of_user? hr res
      refine ⟨hinv', ?_⟩
      rw [serveAny_of_user? hr, hpost]
      exact wp_along (extends_database X cfg) hwp
    cases q with
    | login req => exact huser _ rfl
    | userRegister req => exact huser _ rfl
    | userGetId req => exact huser _ rfl
    | userSearch req =>
        have hheld : w.held qs.length = [] := by
          refine List.filter_eq_nil_iff.mpr fun e he hi => ?_
          have hlt := (show Consistent X cfg _ w from hinv).holders.2 e.1 (List.mem_map_of_mem he)
          rw [List.length_map] at hlt
          exact absurd (of_decide_eq_true hi) hlt.ne
        have hmap : (qs ++ [Dispatch.userSearch req]).map Dispatch.reader =
            qs.map Dispatch.reader ++ [.userGetId req.toHttpRequest] := List.map_append
        have hknown : Seen (Known dbPool (userAnswers before)) (qs ++ [.userSearch req]) w := by
          unfold Seen
          rw [hmap]
          exact lasting_known (List.prefix_append _ _) List.prefix_rfl List.prefix_rfl
            (known_of_answered hans')
        refine ⟨?_, wp_bind (wp_mono (fun result qs w hr => ?_)
          (userSearchHandler_spec (E := fun _ _ _ => False) hknown (by simp) hheld))⟩
        · show Consistent X cfg ((qs ++ [Dispatch.userSearch req]).map Dispatch.reader) w
          rw [hmap]
          exact Consistent.arrive hinv _
        · cases result with
          | ok r => exact hr
          | error what => exact hr.elim

end correct

/-! ## What a client may rely on -/

/-- A state of the server that also answers searches. -/
abbrev SearchServer := Config SearchOp.Result World Dispatch HttpResponse

/-- A committed row, in terms of the requests themselves. -/
theorem registered_of_mem {X : Externals} {cfg : DbConfig} {c : SearchServer}
    (h : Consistent X cfg (c.requests.map Dispatch.reader) c.world) {row : UserRow}
    (hrow : row ∈ c.world.log) :
    ∃ rq reg, c.requests[row.owner]? = some (.userRegister rq) ∧ registration X rq = some reg ∧
      row.firstName = reg.firstName ∧ row.secondName = reg.secondName ∧
      row.biography = reg.biography ∧ row.city = reg.city := by
  obtain ⟨rq, reg, -, hreq, hreg, hfirst, hsecond, hbio, hcity, -⟩ := h.entered row (h.log row hrow)
  rw [List.getElem?_map, Option.map_eq_some_iff] at hreq
  obtain ⟨q, hq, hreader⟩ := hreq
  rw [Dispatch.eq_of_reader hreader] at hq
  exact ⟨rq, reg, hq, hreg, hfirst, hsecond, hbio, hcity⟩

/-- A search for the user of `sampleExternals`. -/
def sampleSearch : SearchRequest where
  method := str "GET"
  path := str "/user/search"
  body := []
  pathParams := []
  params := [(str "first_name", str "An"), (str "last_name", str "_et")]

/-- A registration, then a search that finds it. -/
def sampleSearchRun : List (Act Dispatch Choice Replication) :=
  [.spawn (.userRegister ⟨str "POST", str "/user/register", str "register", []⟩),
    .step 0 (.salt []), .step 0 .ok, .step 0 .ok,
    .step 0 (.row (str "0f8fad5b-d9cb-469f-a165-70867728950e") (str "1990-01-31")),
    .step 0 .ok, .step 0 .ok, .step 0 .ok,
    .spawn (.userSearch sampleSearch),
    .step 1 .ok, .step 1 .ok, .step 1 .ok, .step 1 .ok, .step 1 .ok]

end SocialNetwork.App
