import SocialNetwork.App.SearchSoundness
import SocialNetwork.App.Sessions

/-!
# What the server comes to

Two results about all runs of the whole server, from the sessions of its requests.

* `registrations_once`: no registration is entered twice, and none is lost once it is acknowledged.
  A commit may throw after it took effect, so that a registration that was answered 500 may have been
  entered; nothing else leaves a doubt.
* `server_settles`: no request takes more than seven calls, the requests that have arrived can always
  be brought to their answers, and then every connection is idle again and every transaction closed,
  whatever was thrown on the way.
-/

namespace SocialNetwork.App

open Foundation Helpers Pool

/-- Every request of a reachable state is in its session. -/
theorem inSession {X : Externals} {cfg : DbConfig} {dbPool : Bool} {c : SearchServer}
    (hc : (SearchSystem X cfg dbPool).Reachable c) :
    c.InSession databaseProtocol .start Shows (fun q => Linked .none q.Leaves) 7 :=
  inSession_reachable (tracks_sessions X cfg) (serveAny_keeps X dbPool) hc

/-! ## Registrations are entered once -/

/-- A registration that was answered 200. -/
def isAcknowledged (p : Proc SearchOp.Result Dispatch HttpResponse) : Bool :=
  match p.request, p.prog with
  | .userRegister _, .ret res => res.status = some 200
  | _, _ => false

/-- A registration without an answer, or with an answer that leaves it open: 500. -/
def isOpen (p : Proc SearchOp.Result Dispatch HttpResponse) : Bool :=
  match p.request, p.prog with
  | .userRegister _, .ret res => res.status = some 500
  | .userRegister _, .op _ _ => true
  | _, _ => false

/-- What has become of the registrations. -/
structure RegistrationsOnce (c : SearchServer) : Prop where
  /-- One that was answered 200 has entered exactly one user, with the id it was answered. -/
  acknowledged : ∀ (i : Nat) req before res,
    c.procs[i]? = some ⟨.userRegister req, before, .ret res⟩ → res.status = some 200 →
      ∃ row, c.world.rowsOf i = [row] ∧ res.content = some (.json (userIdJson row.id))
  /-- One that was answered neither 200 nor 500 has entered nobody. -/
  refused : ∀ (i : Nat) req before res,
    c.procs[i]? = some ⟨.userRegister req, before, .ret res⟩ → res.status ≠ some 200 →
      res.status ≠ some 500 → c.world.rowsOf i = []
  /-- No request enters two users. -/
  once : ∀ i, (c.world.rowsOf i).length ≤ 1
  /-- Only registrations enter users. -/
  owner : ∀ row ∈ c.world.log, ∃ req, c.requests[row.owner]? = some (.userRegister req)
  /-- There are as many users as acknowledged registrations, and perhaps some of the open ones. -/
  count : c.procs.countP isAcknowledged ≤ c.world.log.length ∧
    c.world.log.length ≤ c.procs.countP isAcknowledged + c.procs.countP isOpen

section registrations

variable {X : Externals} {cfg : DbConfig} {dbPool : Bool} {c : SearchServer}

/-- What a session at its end says of the rows of a registration. -/
theorem rows_of_leaves {i : Nat} {req : HttpRequest} {res : HttpResponse} {s : Session} {w : World}
    (hs : Shows i s w) (hl : Dispatch.Leaves res s.entry (.userRegister req)) :
    (res.status = some 200 ∧ ∃ row, w.rowsOf i = [row] ∧
      res.content = some (.json (userIdJson row.id))) ∨ res.status = some 500 ∨
      (res.status ≠ some 200 ∧ w.rowsOf i = []) := by
  obtain ⟨link, entry⟩ := s
  rcases hl with ⟨id, rest, hstatus, rfl, hcontent⟩ | ⟨hstatus, -⟩ | ⟨hstatus, rfl⟩
  · obtain ⟨-, hids, hlen⟩ := hs.entry
    obtain ⟨row, rows, hrows, rfl, rfl⟩ := List.map_eq_cons_iff.mp hids
    obtain rfl : rows = [] := by simpa using hlen
    exact .inl ⟨hstatus, row, hrows, hcontent⟩
  · exact .inr (.inl hstatus)
  · exact .inr (.inr ⟨hstatus, hs.entry.2⟩)

/-- **Registrations are entered at most once, and acknowledged ones exactly once**, in every
reachable state of the server, in which commits may throw after they took effect.
Source: `app.cpp`, `App::user_register_handler` -/
theorem registrations_once (X : Externals) (cfg : DbConfig) (dbPool : Bool) {c : SearchServer}
    (hc : (SearchSystem X cfg dbPool).Reachable c) : RegistrationsOnce c := by
  have hsession := inSession hc
  have hinv : Consistent X cfg (c.requests.map Dispatch.reader) c.world :=
    ((search_correct X cfg dbPool).reachable hc).inv
  have howner : ∀ row ∈ c.world.log, ∃ req, c.requests[row.owner]? = some (.userRegister req) := by
    intro row hrow
    obtain ⟨rq, -, hrq, -⟩ := registered_of_mem hinv hrow
    exact ⟨rq, hrq⟩
  have hended : ∀ (i : Nat) req before res,
      c.procs[i]? = some ⟨.userRegister req, before, .ret res⟩ →
        (res.status = some 200 ∧ ∃ row, c.world.rowsOf i = [row] ∧
          res.content = some (.json (userIdJson row.id))) ∨ res.status = some 500 ∨
          (res.status ≠ some 200 ∧ c.world.rowsOf i = []) := by
    intro i req before res hp
    obtain ⟨s, hs, -, hl⟩ := hsession.ended hp
    exact rows_of_leaves hs hl
  have honce : ∀ i, (c.world.rowsOf i).length ≤ 1 := by
    intro i
    cases hp : c.procs[i]? with
    | none => exact (hsession.absent i (List.getElem?_eq_none_iff.mp hp)).entry.length_le
    | some p =>
        obtain ⟨s, -, -, hs, -⟩ := hsession.procs i p hp
        exact hs.entry.length_le
  have hnone : ∀ i, (∀ req, c.requests[i]? ≠ some (.userRegister req)) → c.world.rowsOf i = [] := by
    refine fun i hi => List.filter_eq_nil_iff.mpr fun row hrow hrowi => ?_
    obtain ⟨req, hreq⟩ := howner row hrow
    rw [of_decide_eq_true hrowi] at hreq
    exact hi req hreq
  refine ⟨?_, ?_, honce, howner, ?_⟩
  · intro i req before res hp hstatus
    rcases hended i req before res hp with ⟨-, h⟩ | h500 | ⟨hne, -⟩
    · exact h
    · rw [hstatus] at h500
      cases h500
    · exact absurd hstatus hne
  · intro i req before res hp hne hne500
    rcases hended i req before res hp with ⟨h200, -⟩ | h500 | ⟨-, h⟩
    · exact absurd h200 hne
    · exact absurd h500 hne500
    · exact h
  · -- the rows, counted by the requests that own them
    have hsum : c.world.log.length =
        ((List.range c.procs.length).map fun i => (c.world.rowsOf i).length).sum := by
      refine length_eq_sum_owned fun row hrow => ?_
      obtain ⟨req, hreq⟩ := howner row hrow
      rw [Config.getElem?_requests, Option.map_eq_some_iff] at hreq
      obtain ⟨p, hp, -⟩ := hreq
      exact (List.getElem?_eq_some_iff.mp hp).1
    rw [hsum]
    refine ⟨countP_le_sum fun i p hp hack => ?_, sum_le_countP fun i p hp => ?_⟩
    · obtain ⟨q, before, prog⟩ := p
      cases q with
      | userRegister req =>
          cases prog with
          | op e k => cases hack
          | ret res =>
              have hstatus : res.status = some 200 := of_decide_eq_true hack
              rcases hended i req before res hp with ⟨-, row, hrow, -⟩ | h500 | ⟨hne, -⟩
              · rw [hrow]
                exact le_rfl
              · rw [hstatus] at h500
                cases h500
              · exact absurd hstatus hne
      | _ => cases hack
    · obtain ⟨q, before, prog⟩ := p
      have hreq : c.requests[i]? = some q := by
        rw [Config.getElem?_requests, hp]
        rfl
      cases q with
      | userRegister req =>
          have hle := honce i
          cases prog with
          | op e k => simpa [isAcknowledged, isOpen] using hle
          | ret res =>
              rcases hended i req before res hp with ⟨h200, -⟩ | h500 | ⟨-, hrows⟩
              · simpa [isAcknowledged, isOpen, h200] using hle
              · simpa [isAcknowledged, isOpen, h500] using hle
              · simp [hrows]
      | _ => simp [hnone i fun req h => by rw [hreq] at h; cases h]

theorem registrations_once_sample :
    ∃ c, System.runFrom ((searchDatabase sampleExternals sampleDb).next
        (serveAny sampleExternals true)) ⟨World.start sampleDb, []⟩ sampleSearchRun = some c ∧
      RegistrationsOnce c := by
  obtain ⟨c, hc⟩ : ∃ c, System.runFrom ((searchDatabase sampleExternals sampleDb).next
      (serveAny sampleExternals true)) ⟨World.start sampleDb, []⟩ sampleSearchRun = some c :=
    ⟨_, rfl⟩
  exact ⟨c, hc, registrations_once sampleExternals sampleDb true
    (.runFrom sampleSearchRun (.init rfl) hc)⟩

end registrations

/-! ## The server comes to rest -/

/-- Every request is answered, every connection idle again and every transaction closed. -/
structure AllAnswered (cfg : DbConfig) (c : SearchServer) : Prop where
  answered : ∀ p ∈ c.procs, ∃ res, p.prog = .ret res
  noneLive : c.world.pool.live = []
  /-- The idle queue of each node holds all the connections the constructor opened for it. -/
  idle : ∀ t num, (c.world.pool.pool.queue t num).Perm (cfg.pool.opened t num)
  closed : ∀ i, c.world.tx i = []

/-- A row is not left in a transaction. -/
theorem tx_of_leaves {i : Nat} {q : Dispatch} {res : HttpResponse} {s : Session} {w : World}
    (hs : Shows i s w) (hl : q.Leaves res s.entry) : w.tx i = [] := by
  obtain ⟨link, entry⟩ := s
  cases entry with
  | absent => exact hs.entry.1
  | committed ids => exact hs.entry.1
  | inDoubt => exact hs.entry.1
  | pending ids =>
      cases q with
      | userRegister req =>
          rcases hl with ⟨id, rest, -, h, -⟩ | ⟨-, h⟩ | ⟨-, h⟩
          · cases h
          · exact absurd rfl (h ids)
          · cases h
      | _ => cases hl

/-- A state in which no request can take a step is `AllAnswered`. -/
theorem allAnswered_of_quiet {X : Externals} {cfg : DbConfig} {dbPool : Bool} {c : SearchServer}
    (hc : (SearchSystem X cfg dbPool).Reachable c)
    (hquiet : ((searchDatabase X cfg).ownSteps (serveAny X dbPool)).Quiet c) : AllAnswered cfg c := by
  have hsession := inSession hc
  have hinv : Consistent X cfg (c.requests.map Dispatch.reader) c.world :=
    ((search_correct X cfg dbPool).reachable hc).inv
  have hanswered : ∀ p ∈ c.procs, ∃ res, p.prog = .ret res := fun p hp =>
    Config.answered_of_quiet (performSearch_enabled X) hquiet hp
  -- every session is over
  have hover : ∀ i, c.world.held i = [] ∧ c.world.tx i = [] := by
    intro i
    cases hp : c.procs[i]? with
    | none =>
        have hs := hsession.absent i (List.getElem?_eq_none_iff.mp hp)
        exact ⟨hs.held, hs.entry.1⟩
    | some p =>
        obtain ⟨q, before, prog⟩ := p
        obtain ⟨res, rfl⟩ := hanswered _ (List.mem_of_getElem? hp)
        obtain ⟨⟨link, entry⟩, hs, rfl, hl⟩ := hsession.ended hp
        exact ⟨hs.held, tx_of_leaves hs hl⟩
  have hlive : c.world.pool.live = [] := by
    refine List.eq_nil_iff_forall_not_mem.mpr fun e he => ?_
    have hmem : e ∈ c.world.held e.1 := List.mem_filter.mpr ⟨he, by simp⟩
    rw [(hover e.1).1] at hmem
    cases hmem
  refine ⟨hanswered, hlive, fun t num => ?_, fun i => (hover i).2⟩
  have hbalance := hinv.pool.balance t num
  rwa [show c.world.pool.held t num = [] by simp [PoolState.held, hlive],
    List.append_nil] at hbalance

/-- **The server settles.** In every run, whatever arrives and is thrown, the requests have taken at
most seven steps each; from every reachable state those that have arrived can be brought to a state
in which none of them can take a step, and every such state is `AllAnswered`.
Source: `app.cpp`, the handlers; `app_connection_pool.h`, `ScopedConnection` -/
theorem server_settles (X : Externals) (cfg : DbConfig) (dbPool : Bool) {c : SearchServer}
    (hc : (SearchSystem X cfg dbPool).Reachable c) :
    (∀ k, ((SearchSystem X cfg dbPool).withHistory 0 countOwn).Reachable (c, k) →
      k ≤ 7 * c.procs.length) ∧
    (∃ c', ((searchDatabase X cfg).ownSteps (serveAny X dbPool)).Leads c c' ∧
      ((searchDatabase X cfg).ownSteps (serveAny X dbPool)).Quiet c') ∧
    ∀ c', ((searchDatabase X cfg).ownSteps (serveAny X dbPool)).Leads c c' →
      ((searchDatabase X cfg).ownSteps (serveAny X dbPool)).Quiet c' → AllAnswered cfg c' := by
  have htracks := tracks_sessions X cfg
  have hkeeps := serveAny_keeps X dbPool
  refine ⟨fun k hk => ?_, ?_, fun c' hrun hquiet => ?_⟩
  · have hle := steps_le htracks hkeeps hk
    omega
  · exact (own_terminating htracks hkeeps).exists_quiet (inSession hc)
  · exact allAnswered_of_quiet (hrun.of_guarded.reachable hc) hquiet

/-- In the middle of a registration: a row is inserted and the connection is taken. -/
theorem server_settles_sample :
    ∃ c c', System.runFrom ((searchDatabase sampleExternals sampleDb).next
        (serveAny sampleExternals true)) ⟨World.start sampleDb, []⟩ (sampleSearchRun.take 5) =
          some c ∧ c.world.pool.live ≠ [] ∧
      ((searchDatabase sampleExternals sampleDb).ownSteps (serveAny sampleExternals true)).Leads
        c c' ∧ AllAnswered sampleDb c' := by
  obtain ⟨c, hc⟩ : ∃ c, System.runFrom ((searchDatabase sampleExternals sampleDb).next
      (serveAny sampleExternals true)) ⟨World.start sampleDb, []⟩ (sampleSearchRun.take 5) = some c :=
    ⟨_, rfl⟩
  have hlive : c.world.pool.live ≠ [] := by
    cases hc
    exact List.cons_ne_nil _ _
  obtain ⟨-, ⟨c', hrun, hquiet⟩, hsettled⟩ := server_settles sampleExternals sampleDb true
    (c := c) (.runFrom (sampleSearchRun.take 5) (.init rfl) hc)
  exact ⟨c, c', hc, hlive, hrun, hsettled c' hrun hquiet⟩

end SocialNetwork.App
