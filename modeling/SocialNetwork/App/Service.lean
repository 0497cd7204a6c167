import SocialNetwork.App.Settling
import SocialNetwork.Threads.Quiescence

/-!
# The threads and the requests together

`http_start` hands the worker pool to the HTTP server as its task queue. A task is the connection of a
client: the worker that runs it reads one request after the other from the connection, and its body
ends when the last one has been answered. `db_start` builds the connection pool with as many
connections for each node as there are workers: both are `http_threads_count`.

`ServiceSystem` is the two systems put together in this way, each with all its own interleavings. Two
results need both of them:

* `never_exhausted`: no request is ever refused a database connection, since each unanswered request
  keeps a worker busy (`Served`) and holds at most one connection;
* `service_drains`: left to itself, the service answers what it has read and completes what it has
  accepted. A worker waits for the request it serves, but no request waits for a worker.
-/

namespace SocialNetwork.Threads

variable {ρ : Type}

/-- The worker runs the body of a task. -/
def WorkerPc.isRunning : WorkerPc ρ → Bool
  | .running _ _ => true
  | _ => false

/-- A body goes on until its own worker makes a step. -/
theorem ThreadPoolState.Transition.running {s s' : ThreadPoolState ρ} {a : Action ρ}
    (hs : Transition s a s') {w : Nat} {pc : WorkerPc ρ} (hw : s.workers[w]? = some pc)
    (hrun : pc.isRunning = true) :
    s'.workers[w]? = some pc ∨ ∃ outcome, a = .workerStep w outcome := by
  have hother : ∀ (v : Nat) (place place' : WorkerPc ρ), s.workers[v]? = some place →
      place.isRunning = false → (s.workers.set v place')[w]? = some pc := by
    intro v place place' hv hplace
    have hne : v ≠ w := by
      rintro rfl
      rw [Option.some.inj (hw.symm.trans hv), hplace] at hrun
      cases hrun
    rw [List.getElem?_set_ne hne, hw]
  have hown : ∀ (v : Nat) (outcome : Outcome ρ) (place' : WorkerPc ρ),
      (s.workers.set v place')[w]? = some pc ∨
        ∃ outcome', (.workerStep v outcome : Action ρ) = .workerStep w outcome' := by
    intro v outcome place'
    by_cases hvw : v = w
    · exact .inr ⟨outcome, by rw [hvw]⟩
    · exact .inl (by rw [List.getElem?_set_ne hvw, hw])
  cases hs with
  | callAccept c choice =>
      rcases notifyOne_cases (s := _) choice with ⟨heq, -⟩ | ⟨v, hv, heq⟩ <;> rw [heq]
      · exact .inl hw
      · exact .inl (hother v _ .notified hv rfl)
  | stopNotify =>
      have hnotify : pc.notify = pc := by
        cases pc <;> first | rfl | cases hrun
      exact .inl (by simp [notifyAllWorkers, hw, hnotify])
  | spuriousWorker v hv => exact .inl (hother v _ .notified hv rfl)
  | workerLoop v outcome | workerLock v outcome | workerCheck v outcome | workerSleep v outcome
  | workerStart v outcome | workerSkip v outcome | workerRun v outcome | workerCallback v outcome
  | workerNoCallback v outcome | workerCount v outcome | workerNotify v outcome
  | workerUnlock v outcome => exact hown v outcome _
  | _ => exact .inl hw

end SocialNetwork.Threads

namespace SocialNetwork.App

open Foundation Helpers Pool Threads

/-! ## The service -/

/-- The `i`-th request has arrived and is not answered. -/
def unanswered (c : SearchServer) (i : Nat) : Bool := (c.procs[i]?).any fun p => p.answer.isNone

/-- The threads of the pool, the requests, and for each worker the last request it has read. -/
structure Service where
  threads : ThreadPoolState Unit
  server : SearchServer
  serving : Nat → Option Nat

/-- What happens in the service. -/
inductive Turn
  /-- A thread makes a step, or somebody calls the pool. -/
  | thread (a : Action Unit)
  /-- A worker reads a request from the connection that is its task. -/
  | read (w : Nat) (q : Dispatch)
  /-- A request makes a call. -/
  | call (i : Nat) (choice : Choice)
  /-- The database replicates. -/
  | replicate (b : Replication)

namespace Service

variable (s : Service)

/-- The worker runs a task. -/
def inBody (w : Nat) : Bool := (s.threads.workers[w]?).any WorkerPc.isRunning

/-- The last request that the worker has read is not answered. -/
def busy (w : Nat) : Bool := (s.serving w).any (unanswered s.server)

/-- The body of a task does not end before its request is answered. -/
def waits : Action Unit → Bool
  | .workerStep w _ => s.inBody w && s.busy w
  | _ => false

/-- One step of the service. -/
def next (X : Externals) (cfg : DbConfig) (dbPool : Bool) : Turn → Option Service
  | .thread a =>
      if s.waits a then none else (s.threads.next a).map fun threads => { s with threads }
  | .read w q =>
      if s.inBody w && !s.busy w then
        ((searchDatabase X cfg).next (serveAny X dbPool) s.server (.spawn q)).map fun server =>
          { s with
            server
            serving := Function.update s.serving w (some s.server.procs.length) }
      else none
  | .call i choice =>
      ((searchDatabase X cfg).next (serveAny X dbPool) s.server (.step i choice)).map fun server =>
        { s with server }
  | .replicate b =>
      ((searchDatabase X cfg).next (serveAny X dbPool) s.server (.background b)).map fun server =>
        { s with server }

/-- No task and no request yet. -/
def start (cfg : DbConfig) (tasksCapacity : Nat) : Service :=
  ⟨.new cfg.poolSize tasksCapacity, ⟨World.start cfg, []⟩, fun _ => none⟩

end Service

/-- The service that `db_start` and `http_start` set up: one `http_threads_count` for the workers and
for the connections of each node. -/
def ServiceSystem (X : Externals) (cfg : DbConfig) (dbPool : Bool) (tasksCapacity : Nat) :
    System Service Turn :=
  System.ofNext (· = Service.start cfg tasksCapacity) fun s a => s.next X cfg dbPool a

namespace Service

variable {X : Externals} {cfg : DbConfig} {dbPool : Bool} {cap : Nat} {s s' : Service}

/-! ### What a step does -/

/-- A step of the thread pool: it happens there, and not to a thread that waits for its request. -/
theorem next_thread {a : Action Unit} (h : s.next X cfg dbPool (.thread a) = some s') :
    s.waits a = false ∧ ∃ threads, s.threads.next a = some threads ∧ s' = { s with threads } := by
  simp only [next] at h
  split at h
  · cases h
  · rename_i hwaits
    obtain ⟨threads, hnext, rfl⟩ := Option.map_eq_some_iff.mp h
    exact ⟨by simpa using hwaits, threads, hnext, rfl⟩

/-- A thread that reads a request: it is in a task, and gets a request of its own. -/
theorem next_read {w : Nat} {q : Dispatch} (h : s.next X cfg dbPool (.read w q) = some s') :
    s.inBody w = true ∧ s.busy w = false ∧
      s' = ⟨s.threads,
        ⟨s.server.world, s.server.procs ++ [⟨q, s.server.answers, serveAny X dbPool q⟩]⟩,
        Function.update s.serving w (some s.server.procs.length)⟩ := by
  simp only [next] at h
  split at h
  · rename_i hready
    obtain ⟨hbody, hbusy⟩ := (Bool.and_eq_true _ _).mp hready
    cases h
    exact ⟨hbody, by simpa using hbusy, rfl⟩
  · cases h

/-- A call of a handler is a step of the server alone. -/
theorem next_call {i : Nat} {choice : Choice}
    (h : s.next X cfg dbPool (.call i choice) = some s') : ∃ server,
      (searchDatabase X cfg).next (serveAny X dbPool) s.server (.step i choice) = some server ∧
        s' = { s with server } := by
  obtain ⟨server, hnext, rfl⟩ := Option.map_eq_some_iff.mp h
  exact ⟨server, hnext, rfl⟩

/-- Replication is a step of the database alone. -/
theorem next_replicate {b : Replication} (h : s.next X cfg dbPool (.replicate b) = some s') :
    ∃ world, replicate s.server.world b = some world ∧
      s' = { s with server := ⟨world, s.server.procs⟩ } := by
  obtain ⟨server, hnext, rfl⟩ := Option.map_eq_some_iff.mp h
  obtain ⟨world, hworld, rfl⟩ := Option.map_eq_some_iff.mp hnext
  exact ⟨world, hworld, rfl⟩

/-- **The service is made of a pool of threads and a server**: each part is in a state that it reaches
by itself. -/
theorem parts (hs : (ServiceSystem X cfg dbPool cap).Reachable s) :
    (ThreadPool Unit cfg.poolSize cap).Reachable s.threads ∧
      (SearchSystem X cfg dbPool).Reachable s.server := by
  induction hs with
  | init hi =>
      obtain rfl := hi
      exact ⟨.init rfl, .init rfl⟩
  | @step s s' a _ hstep ih =>
      change s.next X cfg dbPool a = some s' at hstep
      cases a with
      | thread a =>
          obtain ⟨-, threads, hnext, rfl⟩ := next_thread hstep
          exact ⟨.step ih.1 hnext, ih.2⟩
      | read w q =>
          obtain ⟨-, -, rfl⟩ := next_read hstep
          exact ⟨ih.1, .step (a := .spawn q) ih.2 rfl⟩
      | call i choice =>
          obtain ⟨server, hnext, rfl⟩ := next_call hstep
          exact ⟨ih.1, .step ih.2 hnext⟩
      | replicate b =>
          obtain ⟨world, hworld, rfl⟩ := next_replicate hstep
          refine ⟨ih.1, .step (a := .background b) ih.2 ?_⟩
          exact Option.map_eq_some_iff.mpr ⟨world, hworld, rfl⟩

/-! ## Every unanswered request keeps a worker busy -/

/-- A request is unanswered while its program stands before a call. -/
theorem unanswered_iff {c : SearchServer} {i : Nat} : unanswered c i = true ↔
    ∃ q before e k, c.procs[i]? = some ⟨q, before, .op e k⟩ := by
  unfold unanswered
  rw [Option.any_eq_true]
  constructor
  · rintro ⟨⟨q, before, prog⟩, hp, hnone⟩
    cases prog with
    | ret res => cases hnone
    | op e k => exact ⟨q, before, e, k, hp⟩
  · rintro ⟨q, before, e, k, hp⟩
    exact ⟨_, hp, rfl⟩

/-- An unanswered request is served by a worker in the body of its task. -/
def Served (s : Service) : Prop :=
  ∀ i, unanswered s.server i = true → ∃ w, s.serving w = some i ∧ s.inBody w = true

/-- A worker that serves an unanswered request is busy. -/
theorem busy_of_serving {w i : Nat} (hw : s.serving w = some i)
    (hi : unanswered s.server i = true) : s.busy w = true := by
  rw [busy, hw]
  exact hi

/-- A thread that does not wait for a request leaves the busy workers in their bodies. -/
theorem Served.thread (h : s.Served) {a : Action Unit} {threads : ThreadPoolState Unit}
    (hwaits : s.waits a = false) (hnext : s.threads.next a = some threads) :
    ({ s with threads } : Service).Served := by
  intro i hi
  obtain ⟨w, hserving, hbody⟩ := h i hi
  refine ⟨w, hserving, ?_⟩
  obtain ⟨pc, hw, hrun⟩ := (Option.any_eq_true _ _).mp hbody
  rcases (ThreadPoolState.transition_of_next hnext).running hw hrun with hw' | ⟨outcome, rfl⟩
  · exact (Option.any_eq_true _ _).mpr ⟨pc, hw', hrun⟩
  · have hbusy := busy_of_serving hserving hi
    rw [waits, hbody, hbusy] at hwaits
    cases hwaits

/-- A worker that is not busy takes a request. -/
theorem Served.read (h : s.Served) {w : Nat} {p : Proc SearchOp.Result Dispatch HttpResponse}
    (hbody : s.inBody w = true) (hbusy : s.busy w = false) :
    (⟨s.threads, ⟨s.server.world, s.server.procs ++ [p]⟩,
      Function.update s.serving w (some s.server.procs.length)⟩ : Service).Served := by
  intro i hi
  by_cases hlast : i = s.server.procs.length
  · exact ⟨w, by rw [hlast]; exact Function.update_self .., hbody⟩
  · have hold : unanswered s.server i = true := by
      obtain ⟨q, before, e, k, hp⟩ := unanswered_iff.mp hi
      have hlt := (List.getElem?_eq_some_iff.mp hp).1
      rw [List.length_append, List.length_singleton] at hlt
      rw [List.getElem?_append_left (by omega)] at hp
      exact unanswered_iff.mpr ⟨q, before, e, k, hp⟩
    obtain ⟨v, hv, hvbody⟩ := h i hold
    have hne : v ≠ w := by
      rintro rfl
      rw [busy_of_serving hv hold] at hbusy
      cases hbusy
    exact ⟨v, by rw [← hv]; exact Function.update_of_ne hne .., hvbody⟩

/-- A call leaves no more requests unanswered. -/
theorem unanswered_of_step {i j : Nat} {choice : Choice} {c c' : SearchServer}
    (hnext : (searchDatabase X cfg).next (serveAny X dbPool) c (.step i choice) = some c')
    (hj : unanswered c' j = true) : unanswered c j = true := by
  obtain ⟨q, before, e, k, r, world, hi, -, rfl⟩ := Machine.next_step hnext
  obtain ⟨q', before', e', k', hp⟩ := unanswered_iff.mp hj
  by_cases hij : i = j
  · exact unanswered_iff.mpr ⟨q, before, e, k, hij ▸ hi⟩
  · exact unanswered_iff.mpr ⟨q', before', e', k', by rw [← hp, List.getElem?_set_ne hij]⟩

/-- In every run, an unanswered request is served by a worker in the body of its task. -/
theorem served_invariant (X : Externals) (cfg : DbConfig) (dbPool : Bool) (cap : Nat) :
    (ServiceSystem X cfg dbPool cap).Invariant Served where
  init s hs := by
    rw [show s = start cfg cap from hs]
    intro i hi
    cases hi
  step s a s' _ h hstep := by
    change s.next X cfg dbPool a = some s' at hstep
    cases a with
    | thread a =>
        obtain ⟨hwaits, threads, hnext, rfl⟩ := next_thread hstep
        exact h.thread hwaits hnext
    | read w q =>
        obtain ⟨hbody, hbusy, rfl⟩ := next_read hstep
        exact h.read hbody hbusy
    | call i choice =>
        obtain ⟨server, hnext, rfl⟩ := next_call hstep
        exact fun j hj => h j (unanswered_of_step hnext hj)
    | replicate b =>
        obtain ⟨world, -, rfl⟩ := next_replicate hstep
        exact h

/-- The unanswered requests. -/
def pending (s : Service) : Finset Nat :=
  (Finset.range s.server.procs.length).filter fun i => unanswered s.server i = true

/-- The pending requests are the unanswered ones. -/
theorem mem_pending {i : Nat} : i ∈ s.pending ↔ unanswered s.server i = true := by
  rw [pending, Finset.mem_filter, Finset.mem_range]
  refine ⟨fun h => h.2, fun h => ⟨?_, h⟩⟩
  obtain ⟨q, before, e, k, hp⟩ := unanswered_iff.mp h
  exact (List.getElem?_eq_some_iff.mp hp).1

/-- There are no more of them than workers. -/
theorem card_pending_le (hs : (ServiceSystem X cfg dbPool cap).Reachable s) :
    s.pending.card ≤ cfg.poolSize := by
  have hserved := (served_invariant X cfg dbPool cap).reachable hs
  have hlength := (ThreadPoolState.workers_length_invariant cfg.poolSize cap).reachable (parts hs).1
  have hsub : s.pending ⊆ (Finset.range cfg.poolSize).image fun w => (s.serving w).getD 0 := by
    intro i hi
    obtain ⟨w, hserving, hbody⟩ := hserved i (mem_pending.mp hi)
    obtain ⟨pc, hw, -⟩ := (Option.any_eq_true _ _).mp hbody
    have hlt := (List.getElem?_eq_some_iff.mp hw).1
    refine Finset.mem_image.mpr ⟨w, Finset.mem_range.mpr (hlength ▸ hlt), ?_⟩
    rw [hserving]
    rfl
  calc s.pending.card ≤ ((Finset.range cfg.poolSize).image fun w => (s.serving w).getD 0).card :=
        Finset.card_le_card hsub
    _ ≤ (Finset.range cfg.poolSize).card := Finset.card_image_le
    _ = cfg.poolSize := Finset.card_range _

/-! ## No request is refused a connection -/

/-- A request that holds a connection is not answered. -/
theorem unanswered_of_held (hs : (SearchSystem X cfg dbPool).Reachable s.server) {i : Nat}
    (hheld : s.server.world.held i ≠ []) : unanswered s.server i = true := by
  have hsession := inSession hs
  cases hp : s.server.procs[i]? with
  | none => exact absurd (hsession.absent i (List.getElem?_eq_none_iff.mp hp)).held hheld
  | some p =>
      obtain ⟨q, before, prog⟩ := p
      cases prog with
      | op e k => exact unanswered_iff.mpr ⟨q, before, e, k, hp⟩
      | ret res =>
          obtain ⟨⟨link, entry⟩, hshows, rfl, -⟩ := hsession.ended hp
          exact absurd hshows.held hheld

/-- An unanswered request without a connection leaves one for itself. -/
theorem length_live_lt (hs : (ServiceSystem X cfg dbPool cap).Reachable s) {i : Nat}
    (hi : unanswered s.server i = true) (hheld : s.server.world.held i = []) :
    s.server.world.pool.live.length < cfg.poolSize := by
  have hserver := (parts hs).2
  have hinv : Consistent X cfg (s.server.requests.map Dispatch.reader) s.server.world :=
    ((search_correct X cfg dbPool).reachable hserver).inv
  have hmem : ∀ e ∈ s.server.world.pool.live, e ∈ s.server.world.held e.1 := fun e he =>
    List.mem_filter.mpr ⟨he, by simp⟩
  refine (live_length_lt hinv.holders.1 (fun e he => ?_) (mem_pending.mpr hi) fun e he heq => ?_).trans_le
    (card_pending_le hs)
  · exact mem_pending.mpr (unanswered_of_held hserver (List.ne_nil_of_mem (hmem e he)))
  · have hnone := hmem e he
    rw [heq, hheld] at hnone
    cases hnone

/-- **A request that is about to take a connection gets one.** -/
theorem connection_available (hs : (ServiceSystem X cfg dbPool cap).Reachable s) {i : Nat}
    {q : Dispatch} {before : List (Dispatch × HttpResponse)} {preferred : NodeType}
    {k : Except Bytes ScopedConnection → Program SearchOp.Result HttpResponse}
    (hp : s.server.procs[i]? = some ⟨q, before, .op (.db (.getConnection preferred)) k⟩) :
    ∃ p sc, ScopedConnection.new s.server.world.pool.pool preferred = (p, .ok sc) := by
  have hserver := (parts hs).2
  have hinv : Consistent X cfg (s.server.requests.map Dispatch.reader) s.server.world :=
    ((search_correct X cfg dbPool).reachable hserver).inv
  obtain ⟨⟨link, entry⟩, n, -, hshows, -, hallowed, -⟩ := (inSession hserver).procs i _ hp
  obtain rfl : link = .none := hallowed
  rcases hnew : ScopedConnection.new s.server.world.pool.pool preferred with ⟨p, what | sc⟩
  · have hfull := hinv.pool.exhausted (List.cons_ne_nil _ _) (ScopedConnection.new_error hnew)
    have hlive := length_live_lt hs (unanswered_iff.mpr ⟨q, before, _, _, hp⟩) hshows.held
    exact absurd hfull (Nat.not_le.mpr hlive)
  · exact ⟨p, sc, rfl⟩

/-- A call fails because of something outside, or because it found no connection. -/
theorem threw_perform {i : Nat} {w w' : World} {e : Op} {choice : Choice} {r : e.Result}
    (hperf : perform X i w e choice = some (r, w')) {x : Nat × Failure} (hx : x ∈ w'.threw) :
    x ∈ w.threw ∨ (∃ what, x.2 = .external what) ∨
      ∃ preferred p what, e = .getConnection preferred ∧
        ScopedConnection.new w.pool.pool preferred = (p, .error what) := by
  have hrecord : ∀ (u : World) (what : Bytes), u.threw = w.threw →
      x ∈ (u.record i (.external what)).threw → x ∈ w.threw ∨ ∃ what, x.2 = .external what := by
    intro u what hu hmem
    rcases List.mem_append.mp hmem with hold | hnew
    · exact .inl (hu ▸ hold)
    · exact .inr ⟨what, by rw [List.mem_singleton.mp hnew]⟩
  cases e with
  | generateHash pwd workload =>
      obtain ⟨salt, -, rfl⟩ | ⟨what, -, rfl⟩ := perform_generateHash hperf
      · exact .inl hx
      · exact (hrecord _ what rfl hx).imp_right .inl
  | getConnection preferred =>
      obtain ⟨p, sc, -, -, rfl⟩ | ⟨p, what, hnew, -, rfl⟩ := perform_getConnection hperf
      · exact .inl hx
      · exact .inr (.inr ⟨preferred, p, what, rfl, hnew⟩)
  | beginWork sc =>
      obtain ⟨-, rfl⟩ | ⟨what, -, rfl⟩ := perform_beginWork hperf
      · exact .inl hx
      · exact (hrecord _ what rfl hx).imp_right .inl
  | insert sc columns =>
      obtain ⟨id, birthdate, -, -, rfl⟩ | ⟨what, -, rfl⟩ := perform_insert hperf
      · exact .inl hx
      · exact (hrecord _ what rfl hx).imp_right .inl
  | select sc id =>
      obtain ⟨-, rfl⟩ | ⟨what, -, rfl⟩ := perform_select hperf
      · exact .inl hx
      · exact (hrecord _ what rfl hx).imp_right .inl
  | commit =>
      obtain ⟨-, rfl⟩ | ⟨what, -, rfl⟩ | ⟨what, -, rfl⟩ := perform_commit hperf
      · exact .inl hx
      · exact (hrecord _ what rfl hx).imp_right .inl
      · exact (hrecord _ what rfl hx).imp_right .inl
  | endWork =>
      obtain rfl := perform_endWork hperf
      exact .inl hx
  | release sc =>
      obtain rfl := perform_release hperf
      exact .inl hx

end Service

/-- No request is short of a connection, now or before. -/
structure NeverExhausted (s : Service) : Prop where
  /-- A request that is about to take a connection gets one. -/
  available : ∀ (i : Nat) q before preferred k,
    s.server.procs[i]? = some ⟨q, before, .op (.db (.getConnection preferred)) k⟩ →
      ∃ p sc, ScopedConnection.new s.server.world.pool.pool preferred = (p, .ok sc)
  /-- What was thrown so far came from outside. -/
  threw : ∀ x ∈ s.server.world.threw, ∃ what, x.2 = .external what

/-- **No request is ever refused a connection**: in every run of the service, with any number of
clients, any requests and any failures of the database.
Source: `app.cpp`, `App::db_start`, `App::http_start`; `app_connection_pool.h`,
`ConnectionPool::get_connection`; `thread_pool.cpp`, `ThreadPool::run` -/
theorem never_exhausted (X : Externals) (cfg : DbConfig) (dbPool : Bool) (cap : Nat) {s : Service}
    (hs : (ServiceSystem X cfg dbPool cap).Reachable s) : NeverExhausted s := by
  refine ⟨fun i q before preferred k hp => Service.connection_available hs hp, ?_⟩
  induction hs with
  | init hi =>
      obtain rfl := hi
      intro x hx
      cases hx
  | @step s s' a hr hstep ih =>
      change s.next X cfg dbPool a = some s' at hstep
      cases a with
      | thread a =>
          obtain ⟨-, threads, -, rfl⟩ := Service.next_thread hstep
          exact ih
      | read w q =>
          obtain ⟨-, -, rfl⟩ := Service.next_read hstep
          exact ih
      | replicate b =>
          obtain ⟨world, hworld, rfl⟩ := Service.next_replicate hstep
          obtain ⟨replica, rows⟩ := b
          simp only [replicate] at hworld
          split at hworld
          · cases hworld
            exact ih
          · cases hworld
      | call i choice =>
          obtain ⟨server, hnext, rfl⟩ := Service.next_call hstep
          obtain ⟨q, before, e, k, r, world, hp, hperf, rfl⟩ := Machine.next_step hnext
          intro x hx
          cases e with
          | db e =>
              rcases Service.threw_perform hperf hx with hold | hout | ⟨preferred, p, what, rfl, hnew⟩
              · exact ih x hold
              · exact hout
              · obtain ⟨p', sc, hok⟩ := Service.connection_available hr hp
                rw [hok] at hnew
                cases hnew
          | search sc firstName secondName =>
              obtain ⟨rows, -, -, rfl⟩ | ⟨what, -, rfl⟩ := perform_search hperf
              · exact ih x hx
              · rcases List.mem_append.mp hx with hold | hnew
                · exact ih x hold
                · exact ⟨what, by rw [List.mem_singleton.mp hnew]⟩

/-- A worker that has a task reads a registration, which takes the only connection. -/
def sampleTurns : List Turn :=
  [.thread (.addTask false true), .thread (.callStep 0 0), .thread (.callStep 0 0),
    .thread (.callStep 0 0), .thread (.callStep 0 0), .thread (.workerStep 0 .threw),
    .thread (.workerStep 0 .threw), .thread (.workerStep 0 .threw), .thread (.workerStep 0 .threw),
    .read 0 (.userRegister ⟨str "POST", str "/user/register", str "register", []⟩),
    .call 0 (.salt []), .call 0 .ok]

/-- With its only connection taken, a pool of one worker has not run short of connections. -/
theorem never_exhausted_sample :
    ∃ s, System.runFrom (fun s a => s.next sampleExternals sampleDb true a)
        (Service.start sampleDb 1) sampleTurns = some s ∧
      s.server.world.pool.live.length = sampleDb.poolSize ∧ NeverExhausted s := by
  obtain ⟨s, hs⟩ : ∃ s, System.runFrom (fun s a => s.next sampleExternals sampleDb true a)
      (Service.start sampleDb 1) sampleTurns = some s := ⟨_, rfl⟩
  have hlive : s.server.world.pool.live.length = sampleDb.poolSize := by
    cases hs
    rfl
  exact ⟨s, hs, hlive, never_exhausted sampleExternals sampleDb true 1
    (.runFrom sampleTurns (.init rfl) hs)⟩

/-! ## The service drains -/

/-- What the service does by itself: no new connection of a client, no new request, no call of the
destructor. -/
def Service.Internal (s : Service) : Turn → Prop
  | .thread a => s.threads.Internal a
  | .call _ _ => True
  | .read _ _ | .replicate _ => False

/-- The service left to itself. -/
def IdleService (X : Externals) (cfg : DbConfig) (dbPool : Bool) (tasksCapacity : Nat) :
    System Service Turn :=
  (ServiceSystem X cfg dbPool tasksCapacity).guarded Service.Internal

namespace Service

variable {X : Externals} {cfg : DbConfig} {dbPool : Bool} {cap : Nat} {s s' : Service}

/-- The work of the threads, and the calls that the requests may still make. -/
noncomputable def work (s : Service) : Nat := s.threads.work + s.server.remaining

/-- Every step brings the service nearer to its rest. -/
theorem idle_terminating (X : Externals) (cfg : DbConfig) (dbPool : Bool) (cap : Nat) :
    (IdleService X cfg dbPool cap).Terminating (ServiceSystem X cfg dbPool cap).Reachable work where
  keeps s a s' hs hstep := .step hs hstep.2
  lowers s a s' hs hstep := by
    obtain ⟨hthreads, hserver⟩ := parts hs
    obtain ⟨hinternal, hstep⟩ := hstep
    change s.next X cfg dbPool a = some s' at hstep
    cases a with
    | thread a =>
        obtain ⟨-, threads, hnext, rfl⟩ := next_thread hstep
        have hlt := (ThreadPoolState.internal_terminating cfg.poolSize cap).lowers s.threads a threads
          hthreads ⟨hinternal, hnext⟩
        exact Nat.add_lt_add_right hlt _
    | call i choice =>
        obtain ⟨server, hnext, rfl⟩ := next_call hstep
        have hlt := (own_terminating (tracks_sessions X cfg) (serveAny_keeps X dbPool)).lowers
          s.server (.step i choice) server (inSession hserver) ⟨trivial, hnext⟩
        exact Nat.add_lt_add_left hlt _
    | read w q => exact hinternal.elim
    | replicate b => exact hinternal.elim

/-- The calls that are left are at most seven for each request. -/
theorem work_le (hs : (ServiceSystem X cfg dbPool cap).Reachable s) :
    s.work ≤ s.threads.work + 7 * s.server.procs.length := by
  obtain ⟨k, hk⟩ := (parts hs).2.exists_history 0 countOwn
  have hle := steps_le (tracks_sessions X cfg) (serveAny_keeps X dbPool) hk
  unfold work
  omega

/-- In a service at rest no request can make a call. -/
theorem quiet_server (hquiet : (IdleService X cfg dbPool cap).Quiet s) :
    ((searchDatabase X cfg).ownSteps (serveAny X dbPool)).Quiet s.server := by
  rintro a server ⟨hown, hnext⟩
  cases a with
  | spawn q => exact hown.elim
  | background b => exact hown.elim
  | step i choice =>
      have hstep : s.next X cfg dbPool (.call i choice) = some { s with server } :=
        Option.map_eq_some_iff.mpr ⟨server, hnext, rfl⟩
      exact hquiet (.call i choice) _ ⟨trivial, hstep⟩

/-- In a service at rest no thread can make a step: none of them waits for a request. -/
theorem quiet_threads (hquiet : (IdleService X cfg dbPool cap).Quiet s)
    (hanswered : ∀ p ∈ s.server.procs, ∃ res, p.prog = .ret res) :
    (IdlePool Unit cfg.poolSize cap).Quiet s.threads := by
  rintro a threads ⟨hinternal, hnext⟩
  have hdone : ∀ i, unanswered s.server i = false := by
    intro i
    rw [Bool.eq_false_iff]
    intro hi
    obtain ⟨q, before, e, k, hp⟩ := unanswered_iff.mp hi
    obtain ⟨res, hres⟩ := hanswered _ (List.mem_of_getElem? hp)
    cases hres
  have hidle : ∀ w, s.busy w = false := by
    intro w
    unfold busy
    cases s.serving w with
    | none => rfl
    | some i => exact hdone i
  have hwaits : s.waits a = false := by
    cases a with
    | workerStep w outcome => rw [waits, hidle, Bool.and_false]
    | _ => rfl
  have hstep : s.next X cfg dbPool (.thread a) = some { s with threads } := by
    change (if s.waits a then none else _) = _
    rw [hwaits]
    exact Option.map_eq_some_iff.mpr ⟨threads, hnext, rfl⟩
  exact hquiet (.thread a) _ ⟨hinternal, hstep⟩

/-- Left to itself, the service does not call the destructor of its pool. -/
theorem dtor_eq_idle (hidle : s.threads.dtor = .idle)
    (hrun : (IdleService X cfg dbPool cap).Leads s s') : s'.threads.dtor = .idle := by
  induction hrun with
  | refl => exact hidle
  | tail _ hstep ih =>
      obtain ⟨a, hinternal, hstep⟩ := hstep
      change _ = some _ at hstep
      cases a with
      | thread a =>
          obtain ⟨-, threads, hnext, rfl⟩ := next_thread hstep
          have hone : (IdlePool Unit cfg.poolSize cap).Leads _ threads :=
            .single ⟨a, hinternal, hnext⟩
          exact ThreadPoolState.dtor_eq_idle ih hone
      | call i choice =>
          obtain ⟨server, -, rfl⟩ := next_call hstep
          exact ih
      | read w q => exact hinternal.elim
      | replicate b => exact hinternal.elim

end Service

/-- **The service drains.** Left to itself after any run, a service with at least one worker takes no
more steps than its threads have work and seven for each request, whatever the scheduler does and
whatever is thrown; and when nobody can move, every request that was read is answered, every
connection is idle again, no transaction is open, and every connection of a client that was accepted
has been served to its end.
Source: `app.cpp`, `App::http_start`, the handlers; `thread_pool.cpp`, `ThreadPool::run`; `app.h`,
`ThreadPoolAdaptor` -/
theorem service_drains (X : Externals) (cfg : DbConfig) (dbPool : Bool) (cap : Nat)
    (hcount : 1 ≤ cfg.poolSize) {s : Service} (hs : (ServiceSystem X cfg dbPool cap).Reachable s)
    (hidle : s.threads.dtor = .idle) :
    (∃ s', (IdleService X cfg dbPool cap).Leads s s' ∧ (IdleService X cfg dbPool cap).Quiet s') ∧
      ∀ n s', (IdleService X cfg dbPool cap).LeadsIn n s s' →
        n ≤ s.threads.work + 7 * s.server.procs.length ∧
          ((IdleService X cfg dbPool cap).Quiet s' → AllAnswered cfg s'.server ∧ Drained s'.threads) := by
  have hterm := Service.idle_terminating X cfg dbPool cap
  refine ⟨hterm.exists_quiet hs, fun n s' hrun => ⟨?_, fun hquiet => ?_⟩⟩
  · have hlength := hterm.length_add_rank_le hs hrun
    have hle := Service.work_le hs
    omega
  · obtain ⟨hthreads, hserver⟩ := Service.parts (hterm.leads hs hrun.leads)
    have hanswered := allAnswered_of_quiet hserver (Service.quiet_server hquiet)
    have hrest := ThreadPoolState.atRest_of_quiet hthreads
      (Service.quiet_threads hquiet hanswered.answered)
    exact ⟨hanswered, hrest.drained hthreads hcount (Service.dtor_eq_idle hidle hrun.leads)⟩

/-- In the middle of the registration. -/
theorem service_drains_sample :
    ∃ s s', System.runFrom (fun s a => s.next sampleExternals sampleDb true a)
        (Service.start sampleDb 1) sampleTurns = some s ∧
      (IdleService sampleExternals sampleDb true 1).Leads s s' ∧
      AllAnswered sampleDb s'.server ∧ Drained s'.threads := by
  obtain ⟨s, hs⟩ : ∃ s, System.runFrom (fun s a => s.next sampleExternals sampleDb true a)
      (Service.start sampleDb 1) sampleTurns = some s := ⟨_, rfl⟩
  have hidle : s.threads.dtor = .idle := by
    cases hs
    rfl
  obtain ⟨⟨s', hrun, hquiet⟩, hall⟩ := service_drains sampleExternals sampleDb true 1 le_rfl
    (.runFrom sampleTurns (.init rfl) hs) hidle
  obtain ⟨n, hlength⟩ := hrun.exists_leadsIn
  exact ⟨s, s', hs, hrun, (hall n s' hlength).2 hquiet⟩

end SocialNetwork.App
