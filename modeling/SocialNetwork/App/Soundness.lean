import SocialNetwork.App.Authentication

/-!
# Authentication over whole runs

Every request meets its postcondition (`App.correct`), so every reachable configuration of the
server, whatever the order of requests, calls and replication, is as `AuthenticationSound` says.
-/

namespace SocialNetwork.App

open Foundation Helpers Pool

/-- A state of the server: the world and the requests that have arrived. -/
abbrev Server := Config Op.Result World Request HttpResponse

/-- The handlers keep the invariant of the database and meet their postconditions. -/
theorem correct (X : Externals) (cfg : DbConfig) (dbPool : Bool) :
    Correct (database X cfg) (discipline X cfg) (serve X dbPool) (post X cfg dbPool) where
  start := consistent_start X cfg
  background h hb := h.replicate hb
  stable i q before res := (lasting_post q res).carried.stable
  spawn := by
    intro qs w before q hinv hans
    have hheld : w.held qs.length = [] := by
      refine List.filter_eq_nil_iff.mpr fun e he hi => ?_
      have hlt := hinv.holders.2 e.1 (List.mem_map_of_mem he)
      exact absurd (of_decide_eq_true hi) hlt.ne
    have hq : (qs ++ [q])[qs.length]? = some q := by simp
    have hi : qs.length < (qs ++ [q]).length := by simp
    have hknown : Known dbPool before (qs ++ [q]) w := by
      intro rq rs hrs hstatus
      obtain ⟨j, earlier, hj, hpost⟩ := hans _ hrs
      obtain ⟨hpool, row, hrow, howner, hcontent⟩ := hpost hstatus
      refine ⟨hpool, row, hrow, getElem?_of_prefix (List.prefix_append qs [q]) ?_, hcontent⟩
      rw [howner]
      exact hj
    refine ⟨hinv.arrive q, serve_spec ?_⟩
    cases q with
    | login req => exact loginHandler_spec hknown hi hheld
    | userRegister req => exact userRegisterHandler_spec hq hheld
    | userGetId req => exact userGetIdHandler_spec hknown hi hheld

/-- The row was committed, by a request that asked for the registration `reg`. -/
def Registered (X : Externals) (c : Server) (row : UserRow) (reg : Registration) : Prop :=
  row ∈ c.world.log ∧
    ∃ req, c.requests[row.owner]? = some (.userRegister req) ∧ registration X req = some reg

/-- A call of the `i`-th request threw: in a library or the database, or in `get_connection` while
as many other requests as the node has connections held one. -/
def CallThrew (cfg : DbConfig) (c : Server) (i : Nat) : Prop :=
  ∃ cause, (i, cause) ∈ c.world.threw ∧
    ∀ others, cause = .noConnection others → OthersHold cfg c.requests i others

/-- What the answers of a server say. -/
structure AuthenticationSound (X : Externals) (cfg : DbConfig) (c : Server) : Prop where
  /-- `/login` answers 200 only with the requested id, in canonical text, and only if a
  registration with exactly that password was committed with that id. -/
  login : ∀ (i : Nat) req before res, c.procs[i]? = some ⟨.login req, before, .ret res⟩ →
    res.status = some 200 → ∃ id pwd row reg, credentials X req = some (id, pwd) ∧
      res.content = some (.json (tokenJson (toLowercase id))) ∧ row.id = toLowercase id ∧
      Registered X c row reg ∧ reg.password = pwd
  /-- `/user/get/:id` answers 200 only for the id of a committed registration and with its data. -/
  userGetId : ∀ (i : Nat) req before res,
    c.procs[i]? = some ⟨.userGetId req, before, .ret res⟩ →
    res.status = some 200 → ∃ id row reg, req.pathParam (str "id") = some id ∧
      row.id = toLowercase id ∧ Registered X c row reg ∧
      res.content = some (.json
        (profileJson id reg.firstName reg.secondName row.birthdate reg.biography reg.city))
  /-- `/user/register` answers 200 only with the id of the row it committed. -/
  userRegister : ∀ (i : Nat) req before res,
    c.procs[i]? = some ⟨.userRegister req, before, .ret res⟩ →
    res.status = some 200 → ∃ row reg, row.owner = i ∧ Registered X c row reg ∧
      res.content = some (.json (userIdJson row.id))
  /-- No `INSERT` is executed on a replica. -/
  insert : ∀ conn, (.insert, conn) ∈ c.world.executed → conn.nodeType = .master
  /-- Without replicas, a login after an acknowledged registration finds the user: it answers 200
  to the right password and 400 to a wrong one, unless a call of its own threw. -/
  loginFinds : cfg.replicas = [] → ∀ (i : Nat) req before res rq id pwd,
    c.procs[i]? = some ⟨.login req, before, .ret res⟩ → credentials X req = some (id, pwd) →
    Acknowledged before rq (toLowercase id) →
    (∃ reg, registration X rq = some reg ∧
      (pwd = reg.password → res.status = some 200 ∧
        res.content = some (.json (tokenJson (toLowercase id)))) ∧
      (pwd ≠ reg.password → res.status = some 400)) ∨
    (res.status = some 500 ∧ CallThrew cfg c i)
  /-- Without replicas, a profile read after an acknowledged registration answers 200 with its
  data, unless a call of its own threw. -/
  userGetIdFinds : cfg.replicas = [] → ∀ (i : Nat) req before res rq id,
    c.procs[i]? = some ⟨.userGetId req, before, .ret res⟩ →
    req.pathParam (str "id") = some id → Acknowledged before rq (toLowercase id) →
    (∃ reg birthdate, registration X rq = some reg ∧ res.status = some 200 ∧
      res.content = some (.json
        (profileJson id reg.firstName reg.secondName birthdate reg.biography reg.city))) ∨
    (res.status = some 500 ∧ CallThrew cfg c i)

/-! ## From the postconditions to the theorem -/

section

variable {X : Externals} {cfg : DbConfig} {dbPool : Bool} {c : Server}

/-- A committed row is what its request asked for. -/
theorem Consistent.registered (h : Consistent X cfg c.requests c.world) {row : UserRow}
    (hrow : row ∈ c.world.log) :
    ∃ reg salt, Registered X c row reg ∧ row.firstName = reg.firstName ∧
      row.secondName = reg.secondName ∧ row.biography = reg.biography ∧ row.city = reg.city ∧
      row.pwdHash = X.generateHash reg.password 12 salt := by
  obtain ⟨req, reg, salt, hreq, hreg, h⟩ := h.entered row (h.log row hrow)
  exact ⟨reg, salt, ⟨hrow, req, hreq, hreg⟩, h⟩

/-- Two committed rows with one id are one row. -/
theorem Consistent.eq_of_id (h : Consistent X cfg c.requests c.world) {row row' : UserRow}
    (hrow : row ∈ c.world.log) (hrow' : row' ∈ c.world.log) (hid : row.id = row'.id) : row = row' :=
  h.ids row (h.log row hrow) row' (h.log row' hrow') hid

theorem Consistent.callThrew (h : Consistent X cfg c.requests c.world) {i : Nat}
    (hthrew : Threw i c.requests c.world) : CallThrew cfg c i := by
  obtain ⟨cause, hcause⟩ := hthrew
  exact ⟨cause, hcause, fun others hothers => h.refused i others (hothers ▸ hcause)⟩

/-- The answer of `/login` to the row it found. -/
theorem login_answer (req : HttpRequest) (pwd : Bytes) (row : UserRow) :
    finish X req (loginResult X pwd .fresh [row]).conclude.2 =
      if X.validatePassword pwd row.pwdHash then ⟨some 200, some (.json (tokenJson row.id))⟩
      else errorHandler X req 400 (HttpResponse.fresh.setStatus 400) := by
  simp only [loginResult]
  split
  · rfl
  · rfl

/-- The answer of `/user/get/:id` to the row it found. -/
theorem userGetId_answer (req : HttpRequest) (id : Bytes) (row : UserRow) :
    finish X req (getResult id .fresh [row]).conclude.2 = ⟨some 200, some (.json
      (profileJson id row.firstName row.secondName row.birthdate row.biography row.city))⟩ := rfl

/-- An answer 200 of a request that reads a user comes from a committed row. -/
theorem ReadPost.found {i : Nat} {q : Request} {before : List (Request × HttpResponse)}
    {res : HttpResponse} (h : ReadPost X cfg dbPool i q before res c.requests c.world)
    (hstatus : res.status = some 200) :
    ∃ id result, readTarget X q = some (id, result) ∧ ∃ row ∈ c.world.log,
      row.id = toLowercase id ∧ res = finish X q.http (result [row]).conclude.2 := by
  rcases h.2 with ⟨id, result, htarget, hrow | ⟨h404, -⟩ | ⟨h500, -⟩⟩ | ⟨hne, -⟩
  · exact ⟨id, result, htarget, hrow⟩
  · rw [hstatus] at h404
    cases h404
  · rw [hstatus] at h500
    cases h500
  · exact absurd hstatus hne

/-- Without replicas, a request that reads an acknowledged user answers from the row of that
registration, or 500. -/
theorem ReadPost.finds (hinv : Consistent X cfg c.requests c.world) (hrep : cfg.replicas = [])
    {i : Nat} {q : Request} {before : List (Request × HttpResponse)} {res : HttpResponse}
    (h : ReadPost X cfg dbPool i q before res c.requests c.world) {id : Bytes}
    {result : List UserRow → TryResult} (htarget : readTarget X q = some (id, result))
    {rq : HttpRequest} (hack : Acknowledged before rq (toLowercase id)) :
    (∃ row ∈ c.world.log, c.requests[row.owner]? = some (.userRegister rq) ∧
      row.id = toLowercase id ∧ res = finish X q.http (result [row]).conclude.2) ∨
    (res.status = some 500 ∧ CallThrew cfg c i) := by
  obtain ⟨hpool, row, hrow, howner, hid⟩ := h.1.row hack
  rcases h.2 with ⟨id', result', htarget', hread⟩ | ⟨-, hrefused⟩
  · rw [htarget] at htarget'
    cases htarget'
    rcases hread with ⟨row', hrow', hid', hres⟩ | ⟨-, hnone⟩ | ⟨h500, hthrew⟩
    · have heq : row' = row := hinv.eq_of_id hrow' hrow (hid'.trans hid.symm)
      subst heq
      exact .inl ⟨row', hrow, howner, hid, hres⟩
    · exact absurd ⟨rq, hack⟩ (hnone hrep)
    · exact .inr ⟨h500, hinv.callThrew hthrew⟩
  · -- a refused request did not carry a UUID, or there is no pool; but the id is that of a row
    have hvalid : isValidUuid id = true := by
      rw [← isValidUuid_toLowercase, ← hid]
      exact (hinv.valid row (hinv.log row hrow)).1
    rw [hrefused id result htarget hvalid] at hpool
    cases hpool

end

/-- **Authentication and profile reads are sound over whole runs.** In every reachable state of the
server, from an empty table and with any number of requests of the three kinds, whose calls
interleave with each other and with replicas that hold arbitrary earlier states of the master's
table.
Source: `app.cpp`, `App::login_handler`, `App::user_register_handler`,
`App::user_get_id_handler`; `app_connection_pool.h`, `ConnectionPool::get_connection` -/
theorem authentication_sound (X : Externals) (hX : X.IdealBcrypt) (cfg : DbConfig) (dbPool : Bool)
    {c : Server} (hc : (AppSystem X cfg dbPool).Reachable c) : AuthenticationSound X cfg c := by
  have hgood := (correct X cfg dbPool).reachable hc
  have hinv : Consistent X cfg c.requests c.world := hgood.inv
  refine ⟨?_, ?_, ?_, hinv.inserts, ?_, ?_⟩
  · intro i req before res hp hstatus
    have hpost : ReadPost X cfg dbPool i (.login req) before res c.requests c.world :=
      hgood.met hp rfl
    obtain ⟨id, result, htarget, row, hrow, hid, hres⟩ := hpost.found hstatus
    obtain ⟨⟨id, pwd⟩, hcred, he⟩ := Option.map_eq_some_iff.mp htarget
    cases he
    obtain ⟨reg, salt, hreg, -, -, -, -, hhash⟩ := hinv.registered hrow
    rw [login_answer] at hres
    split at hres
    · rename_i hvalid
      subst hres
      rw [hhash] at hvalid
      exact ⟨id, pwd, row, reg, hcred, by rw [hid], hid, hreg, ((hX _ _ _ _).mp hvalid).symm⟩
    · subst hres
      cases hstatus
  · intro i req before res hp hstatus
    have hpost : ReadPost X cfg dbPool i (.userGetId req) before res c.requests c.world :=
      hgood.met hp rfl
    obtain ⟨id, result, htarget, row, hrow, hid, hres⟩ := hpost.found hstatus
    obtain ⟨id, hparam, he⟩ := Option.map_eq_some_iff.mp htarget
    cases he
    obtain ⟨reg, -, hreg, hfname, hsname, hbio, hcity, -⟩ := hinv.registered hrow
    refine ⟨id, row, reg, hparam, hid, hreg, ?_⟩
    rw [hres, userGetId_answer, hfname, hsname, hbio, hcity]
  · intro i req before res hp hstatus
    have hpost : RegisterPost dbPool i res c.requests c.world := hgood.met hp rfl
    obtain ⟨-, row, hrow, howner, hcontent⟩ := hpost hstatus
    obtain ⟨reg, -, hreg, -⟩ := hinv.registered hrow
    exact ⟨row, reg, howner, hreg, hcontent⟩
  · intro hrep i req before res rq id pwd hp hcred hack
    have hpost : ReadPost X cfg dbPool i (.login req) before res c.requests c.world :=
      hgood.met hp rfl
    have htarget : readTarget X (.login req) = some (id, loginResult X pwd .fresh) := by
      simp only [readTarget, hcred, Option.map_some]
    apply (hpost.finds hinv hrep htarget hack).imp_left
    rintro ⟨row, hrow, howner, hid, hres⟩
    obtain ⟨reg, salt, ⟨-, rq', howner', hreg⟩, -, -, -, -, hhash⟩ := hinv.registered hrow
    rw [howner] at howner'
    cases howner'
    rw [login_answer, hhash] at hres
    refine ⟨reg, hreg, fun heq => ?_, fun hne => ?_⟩
    · rw [if_pos ((hX _ _ _ _).mpr heq)] at hres
      subst hres
      exact ⟨rfl, by rw [hid]⟩
    · rw [if_neg fun hv => hne ((hX _ _ _ _).mp hv)] at hres
      subst hres
      rfl
  · intro hrep i req before res rq id hp hparam hack
    have hpost : ReadPost X cfg dbPool i (.userGetId req) before res c.requests c.world :=
      hgood.met hp rfl
    have htarget : readTarget X (.userGetId req) = some (id, getResult id .fresh) := by
      simp only [readTarget, hparam, Option.map_some]
    apply (hpost.finds hinv hrep htarget hack).imp_left
    rintro ⟨row, hrow, howner, hid, hres⟩
    obtain ⟨reg, -, ⟨-, rq', howner', hreg⟩, hfname, hsname, hbio, hcity, -⟩ :=
      hinv.registered hrow
    rw [howner] at howner'
    cases howner'
    rw [userGetId_answer, hfname, hsname, hbio, hcity] at hres
    subst hres
    exact ⟨reg, row.birthdate, hreg, rfl, rfl⟩

/-- Every request that has arrived can be answered, in every state: no handler waits for another
request. -/
theorem request_answered (X : Externals) (cfg : DbConfig) (dbPool : Bool) (c : Server) {i : Nat}
    {p : Proc Op.Result Request HttpResponse} (hp : c.procs[i]? = some p) :
    ∃ c' res, (AppSystem X cfg dbPool).Leads c c' ∧
      c'.procs[i]? = some ⟨p.request, p.before, .ret res⟩ :=
  (database X cfg).answers (serve X dbPool) (perform_enabled X) hp

/-! ## A run -/

/-- An ideal BCrypt that keeps the password, and a parser that knows two bodies. -/
def sampleExternals : Externals where
  parse body :=
    if body = str "register" then
      .ok (.object [(str "password", .string (str "swordfish")),
        (str "first_name", .string (str "Anna")), (str "second_name", .string (str "Petrova")),
        (str "birthdate", .string (str "1990-01-31")), (str "biography", .string (str "-")),
        (str "city", .string (str "Tver"))])
    else
      .ok (.object [(str "id", .string (str "0F8FAD5B-D9CB-469F-A165-70867728950E")),
        (str "password", .string (str "swordfish"))])
  generateHash password _ _ := password
  validatePassword password hash := password = hash
  statusMessage _ := []

/-- One master with one connection. -/
def sampleDb : DbConfig := ⟨(str "host=m", str "m:5432"), [], 1⟩

/-- A master and a replica, with two connections each. -/
def replicatedDb : DbConfig := ⟨(str "host=m", str "m:5432"), [(str "host=r", str "r:5432")], 2⟩

/-- A registration. While it ends, a login with the same password asks the replica, which does not have
the row yet, and another one asks it after the row has been replicated. -/
def sampleRun : List (Act Request Choice Replication) :=
  [.spawn (.userRegister ⟨str "POST", str "/user/register", str "register", []⟩),
    .step 0 (.salt []), .step 0 .ok, .step 0 .ok,
    .step 0 (.row (str "0f8fad5b-d9cb-469f-a165-70867728950e") (str "1990-01-31")),
    .spawn (.login ⟨str "POST", str "/login", str "login", []⟩), .step 1 .ok,
    .step 0 .ok, .step 1 .ok, .step 1 .ok, .step 0 .ok,
    .background (.replicate 0 1),
    .spawn (.login ⟨str "POST", str "/login", str "login", []⟩), .step 2 .ok, .step 2 .ok,
    .step 1 .ok, .step 2 .ok, .step 1 .ok, .step 0 .ok, .step 2 .ok, .step 2 .ok]

theorem authentication_sound_sample :
    ∃ c, System.runFrom ((database sampleExternals replicatedDb).next (serve sampleExternals true))
        ⟨World.start replicatedDb, []⟩ sampleRun = some c ∧
      c.answers.map (fun x => x.2.status) = [some 200, some 404, some 200] ∧
      AuthenticationSound sampleExternals replicatedDb c := by
  have hrun : (System.runFrom ((database sampleExternals replicatedDb).next
      (serve sampleExternals true)) ⟨World.start replicatedDb, []⟩ sampleRun).map
        (fun c => c.answers.map fun x => x.2.status) =
          some [some 200, some 404, some 200] := by
    decide
  obtain ⟨c, hc, hstatus⟩ := Option.map_eq_some_iff.mp hrun
  exact ⟨c, hc, hstatus, authentication_sound sampleExternals
    (fun _ _ _ _ => decide_eq_true_iff) replicatedDb true (.runFrom sampleRun (.init rfl) hc)⟩

end SocialNetwork.App
