import SocialNetwork.Threads.Accounting

/-!
# What `add_task` tells its caller

A call of `add_task` has two answers to give: it reports to the callback, if there is one, and to
its caller. `CallOk` ties the locals of a call to the log. The result is the one the caller needs,
`std::nullopt` exactly when the task was not put into `tasks_`, except in one case: the queue was
full and the callback is null. Then the id of a refused task is returned, and
`ThreadPoolAdaptor::enqueue`, which always passes a null callback, reports a dropped connection as
enqueued.
-/

namespace SocialNetwork.Threads

open Foundation

variable {ρ : Type}

/-! ## The locals of a call and the log -/

/-- The log says about the call what its `refused` flag says. -/
def Call.Decided (log : List (Event ρ)) (call : Call) : Prop :=
  if call.refused then .refused call.id ∈ log else .accepted call.taskMeta ∈ log

/-- What `add_task` returns once the queue has been tested. -/
def Call.result (call : Call) : Option Nat :=
  if call.refused && call.cb then none else some call.id

/-- The locals of a call agree with the log. -/
def CallOk (log : List (Event ρ)) (call : Call) : Prop :=
  match call.pc with
  | .locking | .locked | .testing => call.refused = false
  | .leaving | .deciding => call.Decided log
  | .refusing => call.Decided log ∧ (call.refused && call.cb) = true
  | .returned result => call.Decided log ∧ result = call.result

/-- A decision stays in the log. -/
theorem Call.Decided.mono {log log' : List (Event ρ)} {call : Call} (h : call.Decided log)
    (hlog : log <+: log') : call.Decided log' := by
  unfold Call.Decided at h ⊢
  split
  · exact hlog.subset (by simpa [*] using h)
  · exact hlog.subset (by simpa [*] using h)

/-- What the log says of a call stays so. -/
theorem CallOk.mono {log log' : List (Event ρ)} {call : Call} (h : CallOk log call)
    (hlog : log <+: log') : CallOk log' call := by
  unfold CallOk at h ⊢
  cases hpc : call.pc <;> simp only [hpc] at h ⊢
  case locking | locked | testing => exact h
  case leaving | deciding => exact h.mono hlog
  case refusing | returned => exact ⟨h.1.mono hlog, h.2⟩

namespace ThreadPoolState

variable {s s' : ThreadPoolState ρ}

/-- Every call agrees with the log. -/
def CallsOk (s : ThreadPoolState ρ) : Prop := ∀ call ∈ s.calls, CallOk s.log call

/-- A step that moves no call. -/
theorem CallsOk.frame (h : s.CallsOk) (hcalls : s'.calls = s.calls) (hlog : s.log <+: s'.log) :
    s'.CallsOk := fun call hmem => (h call (hcalls ▸ hmem)).mono hlog

/-- A step that moves one call. -/
theorem CallsOk.move (h : s.CallsOk) {c : Nat} {call' : Call}
    (hcalls : s'.calls = s.calls.set c call') (hlog : s.log <+: s'.log)
    (hcall : CallOk s'.log call') : s'.CallsOk := by
  intro call hmem
  rw [hcalls] at hmem
  rcases List.mem_or_eq_of_mem_set hmem with hmem | rfl
  · exact (h call hmem).mono hlog
  · exact hcall

/-- Every step keeps the locals of the calls in agreement with the log. -/
theorem CallsOk.transition {a : Action ρ} (h : s.CallsOk) (hs : Transition s a s') :
    s'.CallsOk := by
  have hlog := log_transition hs
  cases hs with
  | addTask cb isVoid =>
      intro call hmem
      rcases List.mem_append.mp hmem with hmem | hmem
      · exact h call hmem
      · obtain rfl := List.mem_singleton.mp hmem
        rfl
  | callLock c choice call hc hpc hfree =>
      apply h.move rfl hlog
      simpa [CallOk, hpc] using h call (List.mem_of_getElem? hc)
  | callIssue c choice call hc hpc =>
      apply h.move rfl hlog
      simpa [CallOk, hpc] using h call (List.mem_of_getElem? hc)
  | callAccept c choice call hc hpc hlt =>
      have hok := h call (List.mem_of_getElem? hc)
      simp only [CallOk, hpc] at hok
      apply h.move (notifyOne_calls choice) hlog
      rw [notifyOne_log]
      simp [CallOk, Call.Decided, emit, hok, Call.taskMeta]
  | callRefuse c choice call hc hpc hfull =>
      apply h.move rfl hlog
      simp [CallOk, Call.Decided, emit]
  | callUnlock c choice call hc hpc =>
      apply h.move rfl hlog
      have hok := h call (List.mem_of_getElem? hc)
      simp only [CallOk, hpc] at hok
      exact hok
  | callReport c choice call hc hpc hreport =>
      apply h.move rfl hlog
      have hok := h call (List.mem_of_getElem? hc)
      simp only [CallOk, hpc] at hok
      exact ⟨hok, hreport⟩
  | callReturn c choice call hc hpc hreport =>
      apply h.move rfl hlog
      have hok := h call (List.mem_of_getElem? hc)
      simp only [CallOk, hpc] at hok
      exact ⟨hok, by simp [Call.result, hreport]⟩
  | callReturnNull c choice call hc hpc =>
      apply h.move rfl hlog
      have hok := h call (List.mem_of_getElem? hc)
      simp only [CallOk, hpc] at hok
      exact ⟨hok.1, by simp [Call.result, hok.2]⟩
  | _ => exact h.frame rfl hlog

/-- The log agrees with every call, in every run. -/
theorem callsOk_invariant (threadsCount cap : Nat) :
    (ThreadPool ρ threadsCount cap).Invariant CallsOk where
  init s hs call hmem := by
    rw [show s = new threadsCount cap from hs] at hmem
    cases hmem
  step s a s' _ h hstep := h.transition (transition_of_next hstep)

/-! ## From the test of the queue to the return -/

/-- A call is moved only by its own steps. -/
theorem calls_transition {a : Action ρ} (hs : Transition s a s') {c : Nat} {call : Call}
    (hc : s.calls[c]? = some call) (ha : ∀ choice, a ≠ .callStep c choice) :
    s'.calls[c]? = some call := by
  have hset : ∀ d call', d ≠ c → (s.calls.set d call')[c]? = some call := fun d call' hd => by
    rw [List.getElem?_set_ne hd, hc]
  cases hs with
  | addTask cb isVoid =>
      obtain ⟨hlt, -⟩ := List.getElem?_eq_some_iff.mp hc
      exact (List.getElem?_append_left hlt).trans hc
  | callLock d choice => exact hset d _ fun h => ha choice (by rw [h])
  | callIssue d choice => exact hset d _ fun h => ha choice (by rw [h])
  | callAccept d choice =>
      rw [notifyOne_calls]
      exact hset d _ fun h => ha choice (by rw [h])
  | callRefuse d choice => exact hset d _ fun h => ha choice (by rw [h])
  | callUnlock d choice => exact hset d _ fun h => ha choice (by rw [h])
  | callReport d choice => exact hset d _ fun h => ha choice (by rw [h])
  | callReturn d choice => exact hset d _ fun h => ha choice (by rw [h])
  | callReturnNull d choice => exact hset d _ fun h => ha choice (by rw [h])
  | _ => exact hc

/-- While a call holds `tasks_mutex_`, only that call changes the queue. -/
theorem Exclusive.tasks_transition (h : s.Exclusive) {c : Nat} (hc : s.holds (.call c) = true)
    {a : Action ρ} (hs : Transition s a s') (ha : ∀ choice, a ≠ .callStep c choice) :
    s'.tasks = s.tasks := by
  have hmutex := (h (.call c)).mp hc
  cases hs with
  | callAccept d choice call hd hpc hlt =>
      have hholder := (h (.call d)).mp (by rw [holds_call hd, hpc]; rfl)
      obtain rfl : d = c := by simpa using hholder.symm.trans hmutex
      exact absurd rfl (ha choice)
  | workerStart w outcome task taskMeta rest hw htasks hstop =>
      have hholder := (h (.worker w)).mp (by rw [holds_worker hw]; rfl)
      simp [hmutex] at hholder
  | _ => rfl

/-- The call `c` tests a queue of length `len`: until it does, the queue stays that long, and
afterwards the flag `refused` tells whether there was room. -/
def Tested (cap len c : Nat) (cb : Bool) (s : ThreadPoolState ρ) : Prop :=
  ∃ call, s.calls[c]? = some call ∧ call.cb = cb ∧
    ((call.pc = .testing ∧ call.refused = false ∧ s.tasks.length = len) ∨
      ((call.pc ≠ .locking ∧ call.pc ≠ .locked ∧ call.pc ≠ .testing) ∧
        (call.refused = true ↔ ¬len < cap)))

/-- Every step of the others keeps the queue as long as it is until it is tested, and the flag
afterwards. -/
theorem Tested.transition {cap len c : Nat} {cb : Bool} {a : Action ρ} (hok : s.Accounted cap)
    (h : s.Tested cap len c cb) (hs : Transition s a s') : s'.Tested cap len c cb := by
  obtain ⟨call, hc, hcb, hstate⟩ := h
  obtain ⟨hlt, -⟩ := List.getElem?_eq_some_iff.mp hc
  by_cases ha : ∃ choice, a = .callStep c choice
  · obtain ⟨choice, rfl⟩ := ha
    cases hs with
    | callLock _ _ call' hc' hpc =>
        obtain rfl : call = call' := Option.some.inj (hc.symm.trans hc')
        simp [hpc] at hstate
    | callIssue _ _ call' hc' hpc =>
        obtain rfl : call = call' := Option.some.inj (hc.symm.trans hc')
        simp [hpc] at hstate
    | callAccept _ _ call' hc' hpc hroom =>
        obtain rfl : call = call' := Option.some.inj (hc.symm.trans hc')
        obtain ⟨-, hrefused, hlen⟩ := hstate.resolve_right fun h => h.1.2.2 hpc
        refine ⟨{ call with pc := .leaving }, ?_, hcb, .inr ⟨by simp, ?_⟩⟩
        · rw [notifyOne_calls]
          simp [emit, setCall, hlt]
        · rw [hok.counted.capacity, hlen] at hroom
          simp [hrefused, hroom]
    | callRefuse _ _ call' hc' hpc hfull =>
        obtain rfl : call = call' := Option.some.inj (hc.symm.trans hc')
        obtain ⟨-, -, hlen⟩ := hstate.resolve_right fun h => h.1.2.2 hpc
        refine ⟨{ call with refused := true, pc := .leaving }, by simp [emit, setCall, hlt], hcb,
          .inr ⟨by simp, ?_⟩⟩
        rw [hok.counted.capacity, hlen] at hfull
        simp [hfull]
    | callUnlock _ _ call' hc' hpc =>
        obtain rfl : call = call' := Option.some.inj (hc.symm.trans hc')
        obtain ⟨-, hrefused⟩ := hstate.resolve_left fun h => by simp [hpc] at h
        exact ⟨{ call with pc := .deciding }, by simp [setCall, setMutex, hlt], hcb,
          .inr ⟨by simp, hrefused⟩⟩
    | callReport _ _ call' hc' hpc =>
        obtain rfl : call = call' := Option.some.inj (hc.symm.trans hc')
        obtain ⟨-, hrefused⟩ := hstate.resolve_left fun h => by simp [hpc] at h
        exact ⟨{ call with pc := .refusing }, by simp [setCall, hlt], hcb,
          .inr ⟨by simp, hrefused⟩⟩
    | callReturn _ _ call' hc' hpc =>
        obtain rfl : call = call' := Option.some.inj (hc.symm.trans hc')
        obtain ⟨-, hrefused⟩ := hstate.resolve_left fun h => by simp [hpc] at h
        exact ⟨{ call with pc := .returned (some call.id) }, by simp [setCall, hlt], hcb,
          .inr ⟨by simp, hrefused⟩⟩
    | callReturnNull _ _ call' hc' hpc =>
        obtain rfl : call = call' := Option.some.inj (hc.symm.trans hc')
        obtain ⟨-, hrefused⟩ := hstate.resolve_left fun h => by simp [hpc] at h
        exact ⟨{ call with pc := .returned none }, by simp [setCall, hlt], hcb,
          .inr ⟨by simp, hrefused⟩⟩
  · have hne : ∀ choice, a ≠ .callStep c choice := fun choice h => ha ⟨choice, h⟩
    refine ⟨call, calls_transition hs hc hne, hcb, hstate.imp ?_ id⟩
    rintro ⟨hpc, hrefused, hlen⟩
    have htasks := hok.exclusive.tasks_transition (by rw [holds_call hc, hpc]; rfl) hs hne
    exact ⟨hpc, hrefused, htasks ▸ hlen⟩

end ThreadPoolState

/-! ## What the result says -/

/-- `add_task` returns `std::nullopt` exactly when the task was not put into `tasks_`, and the id
exactly when it was. -/
def AdmissionReported (s : ThreadPoolState ρ) (call : Call) (result : Option Nat) : Prop :=
  (result = none ↔ .accepted call.taskMeta ∉ s.log) ∧
    (result = some call.id ↔ .accepted call.taskMeta ∈ s.log)

/-- The task of a call is in the queue, being run or completed. -/
def InPool (s : ThreadPoolState ρ) (call : Call) : Prop :=
  call.taskMeta ∈ s.tasks.map Prod.snd ∨ call.taskMeta ∈ s.runningTasks.map Prod.snd ∨
    .completed call.taskMeta ∈ s.log

/-- `ThreadPoolAdaptor::enqueue` returned `true` exactly when the task was enqueued, and a task it
did not report as dropped is in the pool. -/
def EnqueueHonest (s : ThreadPoolState ρ) (call : Call) (result : Option Nat) : Prop :=
  (enqueueResult result = true ↔ .accepted call.taskMeta ∈ s.log) ∧
    (enqueueResult result = true → InPool s call)

section reachable

variable {threadsCount cap : Nat} {s : ThreadPoolState ρ}

/-- An accepted task is in the queue, being run or completed. -/
theorem inPool_of_accepted (hs : (ThreadPool ρ threadsCount cap).Reachable s) {call : Call}
    (h : .accepted call.taskMeta ∈ s.log) : InPool s call := by
  have hok := ((ThreadPoolState.accounted_invariant threadsCount cap).reachable hs).ok
  have hmem : call.taskMeta ∈ (s.ledger.accepted : Multiset TaskMeta) :=
    List.mem_filterMap.mpr ⟨_, h, rfl⟩
  rw [hok.accepted_eq] at hmem
  rcases Multiset.mem_add.mp hmem with hmem | hcompleted
  · rcases Multiset.mem_add.mp hmem with hqueue | hrunning
    · exact .inl hqueue
    · exact .inr (.inl hrunning)
  · obtain ⟨e, he, hview⟩ := List.mem_filterMap.mp hcompleted
    refine .inr (.inr ?_)
    cases e <;> simp only [Event.completed?, Option.some.injEq, reduceCtorEq] at hview
    exact hview ▸ he

/-- A refused task was not accepted. -/
theorem not_accepted_of_refused (hs : (ThreadPool ρ threadsCount cap).Reachable s) {call : Call}
    (h : .refused call.id ∈ s.log) : .accepted call.taskMeta ∉ s.log := by
  intro hacc
  have hok := ((ThreadPoolState.accounted_invariant threadsCount cap).reachable hs).ok
  refine hok.accepted_not_refused (List.mem_filterMap.mpr ⟨_, hacc, rfl⟩) ?_
  exact List.mem_filterMap.mpr ⟨_, h, rfl⟩

/-- The result of a call that has returned is right exactly when the task was not refused or the
callback is there to be told. -/
theorem admissionReported_iff_of_returned (hs : (ThreadPool ρ threadsCount cap).Reachable s)
    {call : Call} (hmem : call ∈ s.calls) {result : Option Nat} (hpc : call.pc = .returned result) :
    AdmissionReported s call result ↔ call.refused = false ∨ call.cb = true := by
  have hok := (ThreadPoolState.callsOk_invariant threadsCount cap).reachable hs call hmem
  simp only [CallOk, hpc] at hok
  obtain ⟨hdecided, rfl⟩ := hok
  unfold AdmissionReported Call.result
  cases hrefused : call.refused
  · have hacc : .accepted call.taskMeta ∈ s.log := by
      simpa [Call.Decided, hrefused] using hdecided
    simp [hacc]
  · have hno := not_accepted_of_refused hs (by simpa [Call.Decided, hrefused] using hdecided)
    cases hcb : call.cb <;> simp [hno]

/-- A right result makes `enqueue` honest. -/
theorem AdmissionReported.enqueueHonest (hs : (ThreadPool ρ threadsCount cap).Reachable s)
    {call : Call} {result : Option Nat} (h : AdmissionReported s call result) :
    EnqueueHonest s call result := by
  have hiff : enqueueResult result = true ↔ .accepted call.taskMeta ∈ s.log := by
    rw [enqueueResult, Option.isSome_iff_ne_none, ne_eq, h.1, not_not]
  exact ⟨hiff, fun htrue => inPool_of_accepted hs (hiff.mp htrue)⟩

end reachable

/-- Where a call tests the queue, there is room or its callback is non-null. -/
def RoomOrCallback (s : ThreadPoolState ρ) : Action ρ → Prop
  | .callStep c _ => ∀ call ∈ s.calls[c]?, call.pc = .testing →
      s.tasks.length < s.tasksMaxCapacity ∨ call.cb = true
  | _ => True

/-- In a run whose tests all meet `RoomOrCallback`, only calls with a callback are refused. -/
theorem refused_cb_invariant (threadsCount cap : Nat) :
    ((ThreadPool ρ threadsCount cap).guarded RoomOrCallback).Invariant fun s =>
      ∀ call ∈ s.calls, call.refused = true → call.cb = true where
  init s hs call hmem := by
    rw [show s = .new threadsCount cap from hs] at hmem
    cases hmem
  step s a s' _ h hstep := by
    obtain ⟨hguard, hstep⟩ := hstep
    have hset : ∀ {c : Nat} {call call' : Call}, s.calls[c]? = some call →
        (call'.refused = true → call'.cb = true) → ∀ x ∈ s.calls.set c call',
        x.refused = true → x.cb = true := by
      intro c call call' _ hcall' x hx
      rcases List.mem_or_eq_of_mem_set hx with hx | rfl
      · exact h x hx
      · exact hcall'
    have ht := ThreadPoolState.transition_of_next hstep
    cases ht with
    | addTask cb isVoid =>
        intro call hmem hrefused
        rcases List.mem_append.mp hmem with hmem | hmem
        · exact h call hmem hrefused
        · obtain rfl := List.mem_singleton.mp hmem
          cases hrefused
    | callRefuse c choice call hc hpc hfull =>
        exact hset hc fun _ => (hguard call hc hpc).resolve_left hfull
    | callAccept c choice call hc hpc hroom =>
        rw [ThreadPoolState.notifyOne_calls]
        exact hset hc (h call (List.mem_of_getElem? hc))
    | callLock c choice call hc => exact hset hc (h call (List.mem_of_getElem? hc))
    | callIssue c choice call hc => exact hset hc (h call (List.mem_of_getElem? hc))
    | callUnlock c choice call hc => exact hset hc (h call (List.mem_of_getElem? hc))
    | callReport c choice call hc => exact hset hc (h call (List.mem_of_getElem? hc))
    | callReturn c choice call hc => exact hset hc (h call (List.mem_of_getElem? hc))
    | callReturnNull c choice call hc => exact hset hc (h call (List.mem_of_getElem? hc))
    | _ => exact h

/-- **When no request is lost by admission.** A call of `add_task` reports its admission if and only
if the queue had room when it was tested or the callback is non-null. In a run whose tests all meet
this condition every result is right, so that `ThreadPoolAdaptor::enqueue` is honest and every
connection it was given is in the pool or reported back.
Source: `ThreadPool::add_task`, `ThreadPoolAdaptor::enqueue`. -/
theorem admission_reported (threadsCount cap : Nat) :
    (∀ (s s' : ThreadPoolState ρ) (c : Nat) (call call' : Call) (result : Option Nat),
      (ThreadPool ρ threadsCount cap).Reachable s → s.calls[c]? = some call →
      call.pc = .testing → (ThreadPool ρ threadsCount cap).Leads s s' →
      s'.calls[c]? = some call' → call'.pc = .returned result →
      (AdmissionReported s' call' result ↔
        s.tasks.length < s.tasksMaxCapacity ∨ call.cb = true)) ∧
    ∀ s : ThreadPoolState ρ,
      ((ThreadPool ρ threadsCount cap).guarded RoomOrCallback).Reachable s →
      ∀ call ∈ s.calls, ∀ result, call.pc = .returned result →
        AdmissionReported s call result ∧ EnqueueHonest s call result := by
  refine ⟨?_, ?_⟩
  · intro s s' c call call' result hs hc hpc hrun hc' hpc'
    have hacc := ThreadPoolState.accounted_invariant (ρ := ρ) threadsCount cap
    have hstart : s.Tested cap s.tasks.length c call.cb := by
      have hok := (ThreadPoolState.callsOk_invariant threadsCount cap).reachable hs call
        (List.mem_of_getElem? hc)
      simp only [CallOk, hpc] at hok
      exact ⟨call, hc, rfl, .inl ⟨hpc, hok, rfl⟩⟩
    obtain ⟨call'', hc'', hcb, hstate⟩ := System.Leads.invariant
      (fun t a t' ht h hstep => h.transition (hacc.reachable ht)
        (ThreadPoolState.transition_of_next hstep)) hrun hs hstart
    obtain rfl : call' = call'' := Option.some.inj (hc'.symm.trans hc'')
    obtain ⟨-, hrefused⟩ := hstate.resolve_left fun h => by simp [hpc'] at h
    rw [admissionReported_iff_of_returned (hrun.reachable hs) (List.mem_of_getElem? hc') hpc',
      hcb, (hacc.reachable hs).counted.capacity, ← Bool.not_eq_true, hrefused, not_not]
  · intro s hs call hmem result hpc
    have hreach := hs.of_guarded
    have hcb := (refused_cb_invariant threadsCount cap).reachable hs call hmem
    have hreported : AdmissionReported s call result := by
      rw [admissionReported_iff_of_returned hreach hmem hpc]
      cases hrefused : call.refused
      · exact .inl rfl
      · exact .inr (hcb hrefused)
    exact ⟨hreported, hreported.enqueueHonest hreach⟩

/-! ## Two connections and room for one -/

/-- Two connections arrive, the worker has not moved yet: up to the second test of the queue. -/
def overloadRun : List (Action Nat) :=
  [.addTask false true, .callStep 0 0, .callStep 0 0, .callStep 0 0, .callStep 0 0, .callStep 0 0,
    .addTask false true, .callStep 1 0, .callStep 1 0]

/-- The second call is about to find the queue full. -/
def overloadTest : ThreadPoolState Nat :=
  (System.runFrom ThreadPoolState.next (.new 1 1) overloadRun).getD (.new 1 1)

/-- Both calls have returned. -/
def overloadState : ThreadPoolState Nat :=
  (System.runFrom ThreadPoolState.next overloadTest
    [.callStep 1 0, .callStep 1 0, .callStep 1 0]).getD (.new 1 1)

/-- The second call of `add_task`. -/
def overloadCall : Call := ⟨false, true, 1, true, .returned (some 1)⟩

/-- A run up to a call that finds the queue full. -/
theorem overloadTest_reachable : (ThreadPool Nat 1 1).Reachable overloadTest :=
  System.Reachable.runFrom overloadRun (.init rfl) rfl

/-- The rest of that run: the call is refused, and returns its id. -/
theorem overloadTest_leads : (ThreadPool Nat 1 1).Leads overloadTest overloadState :=
  System.Leads.runFrom [.callStep 1 0, .callStep 1 0, .callStep 1 0] rfl

/-- The condition of `admission_reported` fails for the second connection, and so does its
result. -/
theorem admission_reported_overload :
    ¬AdmissionReported overloadState overloadCall (some 1) :=
  mt ((admission_reported 1 1).1 overloadTest overloadState 1 ⟨false, true, 1, false, .testing⟩
    overloadCall (some 1) overloadTest_reachable rfl rfl overloadTest_leads rfl rfl).mp (by decide)

/-- A full queue and a null callback: `add_task` returns the id of a task that is nowhere in the
pool, and `enqueue` tells its caller to keep the connection. -/
theorem admission_lost :
    (ThreadPool Nat 1 1).Reachable overloadState ∧ overloadCall ∈ overloadState.calls ∧
      overloadCall.pc = .returned (some 1) ∧
      ¬AdmissionReported overloadState overloadCall (some 1) ∧
      enqueueResult (some 1) = true ∧ ¬InPool overloadState overloadCall := by
  refine ⟨overloadTest_leads.reachable overloadTest_reachable, by decide, rfl, ?_, rfl, ?_⟩
  · unfold AdmissionReported
    decide
  · unfold InPool
    decide

end SocialNetwork.Threads
