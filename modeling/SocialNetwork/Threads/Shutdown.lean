import SocialNetwork.Threads.Quiescence

/-!
# Shutdown

What `~ThreadPool()` does to the work of the pool. The flag it sets is read under `tasks_mutex_`
before a task is popped, so no task starts after it; the tasks that are being run are finished,
reported and counted, and those in the queue are dropped. The destructor returns when every worker
has left its loop. It can hang only in `join()` of a worker that fell asleep after the notification,
and in the runs where the notification finds no worker in the gap between its wait predicate and its
sleep, it returns. A program that calls `wait_all` after its last submission, as
`ThreadPoolAdaptor::shutdown` does, has nothing in the queue that could be dropped.
-/

namespace SocialNetwork.Threads

open Foundation

variable {ρ : Type}

/-- The destructor has joined all workers. What was accepted has either been completed or is still
in the queue, in the order of the submissions. -/
structure ShutDown (threadsCount : Nat) (s : ThreadPoolState ρ) : Prop where
  joined : s.dtor = .joining threadsCount
  workers : ∀ pc ∈ s.workers, pc = .exited
  calls : ∀ call ∈ s.calls, ∃ result, call.pc = .returned result
  accepted : s.ledger.accepted.map TaskMeta.id =
    s.ledger.started ++ s.tasks.map fun entry => entry.2.id
  completed : s.ledger.started.Perm s.ledger.completedIds
  callbacks : s.ledger.callbacks.Perm ((s.ledger.completed.filter (·.cb)).map TaskMeta.id)

namespace ThreadPoolState

variable {s s' : ThreadPoolState ρ} {threadsCount cap : Nat}

/-! ## No task starts any more -/

/-- The started tasks are those before an event, and the one it starts. -/
theorem started_emit (e : Event ρ) :
    (s.emit e).ledger.started = s.ledger.started ++ e.started?.toList :=
  Ledger.filterMap_log Event.started? s.log e

/-- A step of a pool that is being stopped starts no task. -/
theorem started_transition {a : Action ρ} (hstop : s.threadsStop = true) (hs : Transition s a s') :
    s'.threadsStop = true ∧ s'.ledger.started = s.ledger.started := by
  cases hs with
  | callIssue => exact ⟨hstop, (started_emit _).trans (List.append_nil _)⟩
  | callAccept c choice call =>
      have hemit := (started_emit (s := { s with
        tasks := s.tasks ++ [(call.task, call.taskMeta)] }.setCall c { call with pc := .leaving })
        (.accepted call.taskMeta)).trans (List.append_nil _)
      rcases notifyOne_cases (s := _) choice with ⟨heq, -⟩ | ⟨w, -, heq⟩ <;> rw [heq] <;>
        exact ⟨hstop, hemit⟩
  | callRefuse => exact ⟨hstop, (started_emit _).trans (List.append_nil _)⟩
  | workerStart w outcome task taskMeta rest hw htasks hrun =>
      rw [hstop] at hrun
      cases hrun
  | workerRun => exact ⟨hstop, (started_emit _).trans (List.append_nil _)⟩
  | workerCallback => exact ⟨hstop, (started_emit _).trans (List.append_nil _)⟩
  | workerCount => exact ⟨hstop, (started_emit _).trans (List.append_nil _)⟩
  | stop => exact ⟨rfl, rfl⟩
  | _ => exact ⟨hstop, rfl⟩

/-- **No task starts once the stop flag is set.** -/
theorem started_eq_of_stop (hstop : s.threadsStop = true)
    (hrun : (ThreadPool ρ threadsCount cap).Leads s s') :
    s'.threadsStop = true ∧ s'.ledger.started = s.ledger.started := by
  induction hrun with
  | refl => exact ⟨hstop, rfl⟩
  | tail _ hstep ih =>
      obtain ⟨a, hstep⟩ := hstep
      obtain ⟨hstop', hstarted⟩ := started_transition ih.1 (transition_of_next hstep)
      exact ⟨hstop', hstarted.trans ih.2⟩

/-! ## The destructor has returned or hangs -/

/-- A destructor that waits at rest has either joined everybody or waits for a sleeper. -/
theorem AtRest.joining (h : s.AtRest) (hs : (ThreadPool ρ threadsCount cap).Reachable s)
    (hdtor : s.dtor ≠ .idle) : s.dtor = .joining threadsCount ∨ JoinsSleeper s := by
  have hexits := (exitsOk_invariant threadsCount cap).reachable hs
  have hlength := (workers_length_invariant threadsCount cap).reachable hs
  rcases h.dtor with hidle | ⟨serial, hjoin, hnot⟩
  · exact absurd hidle hdtor
  · rcases lt_trichotomy serial threadsCount with hlt | rfl | hlt
    · have hserial : serial < s.workers.length := by omega
      have hw := List.getElem?_eq_getElem hserial
      rcases h.workers _ (List.getElem_mem hserial) with hpc | hpc
      · rw [hpc] at hw
        exact .inr ⟨serial, hjoin, hw, hexits.flag.mpr hdtor⟩
      · rw [hpc] at hw
        exact absurd hw hnot
    · exact .inl hjoin
    · have hw := hexits.joined serial hjoin threadsCount hlt
      rw [List.getElem?_eq_none (by omega)] at hw
      cases hw

/-- What a destructor that has joined everybody leaves behind. -/
theorem AtRest.shutDown (h : s.AtRest) (hs : (ThreadPool ρ threadsCount cap).Reachable s)
    (hjoin : s.dtor = .joining threadsCount) : ShutDown threadsCount s := by
  have hexits := (exitsOk_invariant threadsCount cap).reachable hs
  have hlength := (workers_length_invariant threadsCount cap).reachable hs
  have hok := ((accounted_invariant threadsCount cap).reachable hs).ok
  have hexited : ∀ pc ∈ s.workers, pc = .exited := by
    intro pc hmem
    obtain ⟨w, hw⟩ := List.getElem?_of_mem hmem
    obtain ⟨hlt, -⟩ := List.getElem?_eq_some_iff.mp hw
    exact Option.some.inj (hw.symm.trans (hexits.joined threadsCount hjoin w (hlength ▸ hlt)))
  have hrunning : s.ledger.running = 0 := by
    have hnil : s.runningTasks = [] := by
      refine List.filterMap_eq_nil_iff.mpr fun pc hmem => ?_
      rw [hexited pc hmem]
      rfl
    show (s.runningTasks : Multiset (Stage × TaskMeta)) = 0
    rw [hnil]
    rfl
  have hfifo : s.ledger.accepted.map TaskMeta.id =
      s.ledger.started ++ s.tasks.map fun entry => entry.2.id := by
    rw [hok.fifo]
    simp [Ledger.queuedIds, ledger]
  have hcompleted : s.ledger.started.Perm s.ledger.completedIds := by
    have haccepted := congrArg (Multiset.map TaskMeta.id) hok.accepted_eq
    rw [hrunning, Multiset.map_zero, add_zero, Multiset.map_add, Multiset.map_coe,
      Multiset.map_coe, Multiset.map_coe, hok.fifo, ← Multiset.coe_add, add_comm] at haccepted
    exact Multiset.coe_eq_coe.mp (add_left_cancel haccepted)
  have hcallbacks := hok.callbacks_eq
  rw [Ledger.owedCallbacks, hrunning, Multiset.filter_zero, Multiset.map_zero, zero_add,
    Multiset.coe_eq_coe] at hcallbacks
  exact ⟨hjoin, hexited, h.calls, hfifo, hcompleted, hcallbacks⟩

/-- Left to itself, a pool that is being destroyed goes on being destroyed. -/
theorem dtor_ne_idle (hs : (ThreadPool ρ threadsCount cap).Reachable s) (hdtor : s.dtor ≠ .idle)
    (hrun : (ThreadPool ρ threadsCount cap).Leads s s') : s'.dtor ≠ .idle := by
  have hflag := ((exitsOk_invariant threadsCount cap).reachable hs).flag
  have hflag' := ((exitsOk_invariant threadsCount cap).reachable (hrun.reachable hs)).flag
  exact hflag'.mp (started_eq_of_stop (hflag.mpr hdtor) hrun).1

end ThreadPoolState

/-- Two tasks are accepted, the worker pops the first one, and the destructor sets the flag. -/
def droppedRun : List (Action Nat) :=
  [.addTask true true] ++ List.replicate 4 (.callStep 0 0) ++ [.addTask true true] ++
    List.replicate 4 (.callStep 1 0) ++ List.replicate 4 (.workerStep 0 .threw) ++ [.dtorStep]

/-- The first task is being run, the second one is queued. -/
def droppedState : ThreadPoolState Nat :=
  (System.runFrom ThreadPoolState.next (.new 1 2) droppedRun).getD (.new 1 2)

/-- The pool left to itself, with no notification of the destructor in the gap. -/
def CarefulPool (ρ : Type) (threadsCount tasksCapacity : Nat) :
    System (ThreadPoolState ρ) (Action ρ) :=
  ((ThreadPool ρ threadsCount tasksCapacity).guarded NoWorkerInGap).guarded
    ThreadPoolState.Internal

namespace ThreadPoolState

variable {s s' : ThreadPoolState ρ} {threadsCount cap : Nat}

/-- Every careful run ends: each step uses up some of the work. -/
theorem careful_terminating (threadsCount cap : Nat) :
    (CarefulPool ρ threadsCount cap).Terminating
      ((ThreadPool ρ threadsCount cap).guarded NoWorkerInGap).Reachable work where
  keeps _ _ _ hs hstep := .step hs hstep.2
  lowers _ _ _ hs hstep :=
    (internal_terminating threadsCount cap).lowers _ _ _ hs.of_guarded ⟨hstep.1, hstep.2.2⟩

/-- If the destructor has to wait before it notifies, the worker in the gap can move. -/
theorem quiet_of_careful (hquiet : (CarefulPool ρ threadsCount cap).Quiet s) :
    (IdlePool ρ threadsCount cap).Quiet s := by
  intro a s' hstep
  obtain ⟨hinternal, hnext⟩ := hstep
  by_cases hguard : NoWorkerInGap s a
  · exact hquiet a s' ⟨hinternal, hguard, hnext⟩
  · unfold NoWorkerInGap at hguard
    push Not at hguard
    obtain ⟨-, -, pc, hmem, rfl⟩ := hguard
    obtain ⟨w, hw⟩ := List.getElem?_of_mem hmem
    have hsleep : s.next (.workerStep w .threw) = some ((s.setMutex none).setWorker w .asleep) := by
      simp [next, workerStep, hw]
    exact hquiet (.workerStep w .threw) _ ⟨trivial, fun heq => (by cases heq), hsleep⟩

/-- The destructor does not wait for a sleeper. -/
theorem not_joinsSleeper (hs : ((ThreadPool ρ threadsCount cap).guarded NoWorkerInGap).Reachable s) :
    ¬JoinsSleeper s := by
  rintro ⟨serial, hjoin, hasleep, -⟩
  have hstopping := (stopping_invariant threadsCount cap).reachable hs
  exact (hstopping.awake serial hjoin _ (List.mem_of_getElem? hasleep)).1 rfl

/-- A careful pool in which nobody can move has been shut down. -/
theorem shutDown_of_quiet
    (hs : ((ThreadPool ρ threadsCount cap).guarded NoWorkerInGap).Reachable s)
    (hdtor : s.dtor ≠ .idle) (hquiet : (CarefulPool ρ threadsCount cap).Quiet s) :
    ShutDown threadsCount s := by
  have hrest := atRest_of_quiet hs.of_guarded (quiet_of_careful hquiet)
  rcases hrest.joining hs.of_guarded hdtor with hjoin | hsleeper
  · exact hrest.shutDown hs.of_guarded hjoin
  · exact absurd hsleeper (not_joinsSleeper hs)

end ThreadPoolState

/-- **The destructor returns.** In the runs in which it does not notify while a worker is in the gap,
the destructor joins all workers, whatever the scheduler does: every run of the pool by itself ends
after at most its work, and where it ends the pool has been shut down.
Source: `ThreadPool::~ThreadPool`, `ThreadPool::run` -/
theorem destructor_returns (threadsCount cap : Nat) (s : ThreadPoolState ρ)
    (hs : ((ThreadPool ρ threadsCount cap).guarded NoWorkerInGap).Reachable s)
    (hdtor : s.dtor ≠ .idle) :
    (∃ s', (CarefulPool ρ threadsCount cap).Leads s s' ∧ ShutDown threadsCount s') ∧
      ∀ n s', (CarefulPool ρ threadsCount cap).LeadsIn n s s' → n ≤ s.work ∧
        ((CarefulPool ρ threadsCount cap).Quiet s' → ShutDown threadsCount s') := by
  have hterm := ThreadPoolState.careful_terminating (ρ := ρ) threadsCount cap
  have hend : ∀ s', (CarefulPool ρ threadsCount cap).Leads s s' →
      (CarefulPool ρ threadsCount cap).Quiet s' → ShutDown threadsCount s' := by
    intro s' hrun hquiet
    have hdtor' := ThreadPoolState.dtor_ne_idle hs.of_guarded hdtor hrun.of_guarded.of_guarded
    exact ThreadPoolState.shutDown_of_quiet (hterm.leads hs hrun) hdtor' hquiet
  refine ⟨?_, fun n s' hrun => ⟨?_, fun hquiet => hend s' hrun.leads hquiet⟩⟩
  · obtain ⟨s', hrun, hquiet⟩ := hterm.exists_quiet hs
    exact ⟨s', hrun, hend s' hrun hquiet⟩
  · have := hterm.length_add_rank_le hs hrun
    omega

/-- The destructor of the sample can return. -/
theorem destructor_returns_droppedState :
    droppedState.dtor = .stopped ∧
      ∃ s', (CarefulPool Nat 1 2).Leads droppedState s' ∧ ShutDown 1 s' :=
  ⟨by decide, (destructor_returns 1 2 droppedState
    (System.Reachable.runFrom_guarded droppedRun (.init rfl) rfl) (by decide)).1⟩

/-! ## Waiting before the shutdown -/

/-- The call has taken an id. -/
def CallPc.isIssued : CallPc → Bool
  | .locking | .locked => false
  | _ => true

/-- No new call of `add_task`. -/
def NoSubmission (_ : ThreadPoolState ρ) : Action ρ → Prop
  | .addTask _ _ => False
  | _ => True

namespace ThreadPoolState

variable {s s' : ThreadPoolState ρ} {threadsCount cap : Nat}

/-- Every id was given to a call. -/
def IssuedOk (s : ThreadPoolState ρ) : Prop :=
  ∀ id < s.tasksLastId, ∃ call ∈ s.calls, call.pc.isIssued = true ∧ call.id = id

/-- A step of a call that keeps its id. -/
theorem IssuedOk.move (h : s.IssuedOk) {c : Nat} {call call' : Call}
    (hc : s.calls[c]? = some call) (hcalls : s'.calls = s.calls.set c call')
    (hid : s'.tasksLastId = s.tasksLastId)
    (hcall : call.pc.isIssued = true → call'.pc.isIssued = true ∧ call'.id = call.id) :
    s'.IssuedOk := by
  intro id hlt
  rw [hid] at hlt
  obtain ⟨other, hmem, hissued, rfl⟩ := h id hlt
  obtain ⟨d, hd⟩ := List.getElem?_of_mem hmem
  rw [hcalls]
  by_cases hdc : d = c
  · subst d
    obtain rfl := Option.some.inj (hc.symm.trans hd)
    obtain ⟨hlt, -⟩ := List.getElem?_eq_some_iff.mp hc
    exact ⟨call', List.mem_set hlt call', hcall hissued⟩
  · refine ⟨other, ?_, hissued, rfl⟩
    apply List.mem_of_getElem? (i := d)
    rwa [List.getElem?_set_ne (Ne.symm hdc)]

/-- Every step keeps that each id was given to a call. -/
theorem IssuedOk.transition {a : Action ρ} (h : s.IssuedOk) (hs : Transition s a s') :
    s'.IssuedOk := by
  cases hs with
  | addTask cb isVoid =>
      intro id hlt
      obtain ⟨call, hmem, hcall⟩ := h id hlt
      exact ⟨call, List.mem_append_left _ hmem, hcall⟩
  | callLock c choice call hc hpc => exact h.move hc rfl rfl (by simp [hpc, CallPc.isIssued])
  | callIssue c choice call hc hpc =>
      intro id hlt
      obtain ⟨hc', -⟩ := List.getElem?_eq_some_iff.mp hc
      have hset : ({ call with id := s.tasksLastId, pc := .testing } : Call) ∈
          s.calls.set c { call with id := s.tasksLastId, pc := .testing } := List.mem_set hc' _
      rcases Nat.lt_succ_iff_lt_or_eq.mp hlt with hold | rfl
      · obtain ⟨other, hmem, hissued, rfl⟩ := h id hold
        obtain ⟨d, hd⟩ := List.getElem?_of_mem hmem
        by_cases hdc : d = c
        · subst d
          obtain rfl := Option.some.inj (hc.symm.trans hd)
          simp [hpc, CallPc.isIssued] at hissued
        · refine ⟨other, List.mem_of_getElem? (i := d) ?_, hissued, rfl⟩
          simpa [emit, setCall, List.getElem?_set_ne (Ne.symm hdc)] using hd
      · exact ⟨_, hset, rfl, rfl⟩
  | callAccept c choice call hc hpc =>
      have hqueued : (({ s with tasks := s.tasks ++ [(call.task, call.taskMeta)] }.setCall c
          { call with pc := .leaving }).emit (.accepted call.taskMeta)).IssuedOk :=
        h.move hc rfl rfl fun _ => ⟨rfl, rfl⟩
      rcases notifyOne_cases (s := _) choice with ⟨heq, -⟩ | ⟨w, hw, heq⟩ <;> rw [heq] <;>
        exact hqueued
  | callRefuse c choice call hc => exact h.move hc rfl rfl fun _ => ⟨rfl, rfl⟩
  | callUnlock c choice call hc => exact h.move hc rfl rfl fun _ => ⟨rfl, rfl⟩
  | callReport c choice call hc => exact h.move hc rfl rfl fun _ => ⟨rfl, rfl⟩
  | callReturn c choice call hc => exact h.move hc rfl rfl fun _ => ⟨rfl, rfl⟩
  | callReturnNull c choice call hc => exact h.move hc rfl rfl fun _ => ⟨rfl, rfl⟩
  | _ => exact h

/-- Every id was given to a call, in every run. -/
theorem issuedOk_invariant (threadsCount cap : Nat) :
    (ThreadPool ρ threadsCount cap).Invariant IssuedOk where
  init s hs := by
    rw [show s = new threadsCount cap from hs]
    exact fun id hid => by cases hid
  step _ _ _ _ h hstep := h.transition (transition_of_next hstep)

/-- There is nothing to do with any task. -/
structure Cleared (s : ThreadPoolState ρ) (log : List (Event ρ)) : Prop where
  calls : ∀ call ∈ s.calls, ∃ result, call.pc = .returned result
  queue : s.tasks = []
  running : s.runningTasks = []
  log_eq : s.log = log

/-- A worker in a cleared pool has no task. -/
theorem Cleared.stage {log : List (Event ρ)} (h : s.Cleared log) {w : Nat} {pc : WorkerPc ρ}
    (hw : s.workers[w]? = some pc) : pc.stage? = none :=
  List.filterMap_eq_nil_iff.mp h.running pc (List.mem_of_getElem? hw)

/-- A call in a cleared pool makes no step. -/
theorem Cleared.call {log : List (Event ρ)} (h : s.Cleared log) {c : Nat} {call : Call} {pc : CallPc}
    (hc : s.calls[c]? = some call) (hpc : call.pc = pc) : ∃ result, pc = .returned result :=
  hpc ▸ h.calls call (List.mem_of_getElem? hc)

/-- A worker moves in a cleared pool. -/
theorem Cleared.move {log : List (Event ρ)} (h : s.Cleared log) {w : Nat} {pc pc' : WorkerPc ρ}
    (hw : s.workers[w]? = some pc) (hworkers : s'.workers = s.workers.set w pc')
    (hcalls : s'.calls = s.calls) (htasks : s'.tasks = s.tasks) (hlog : s'.log = s.log)
    (hpc : pc'.stage? = pc.stage?) : s'.Cleared log where
  calls := hcalls ▸ h.calls
  queue := htasks ▸ h.queue
  running := by
    rw [runningTasks, hworkers, filterMap_set_of_eq hw hpc]
    exact h.running
  log_eq := hlog.trans h.log_eq

/-- Without new submissions a cleared pool stays cleared. -/
theorem Cleared.transition {log : List (Event ρ)} {a : Action ρ} (h : s.Cleared log)
    (ha : NoSubmission s a) (hs : Transition s a s') : s'.Cleared log := by
  cases hs with
  | addTask => exact absurd ha id
  | callLock c choice call hc hpc | callIssue c choice call hc hpc
  | callAccept c choice call hc hpc | callRefuse c choice call hc hpc
  | callUnlock c choice call hc hpc | callReport c choice call hc hpc
  | callReturn c choice call hc hpc | callReturnNull c choice call hc hpc =>
      obtain ⟨result, hreturned⟩ := h.call hc hpc
      cases hreturned
  | workerLoop w outcome hw =>
      refine h.move hw rfl rfl rfl rfl ?_
      split <;> rfl
  | workerLock w outcome pc hw hpc =>
      refine h.move hw rfl rfl rfl rfl ?_
      rcases hpc with rfl | rfl <;> rfl
  | workerCheck w outcome hw =>
      refine h.move hw rfl rfl rfl rfl ?_
      split <;> rfl
  | workerStart w outcome task taskMeta rest hw htasks =>
      rw [h.queue] at htasks
      cases htasks
  | workerRun w outcome task taskMeta hw => cases h.stage hw
  | workerCallback w outcome task taskMeta hw => cases h.stage hw
  | workerNoCallback w outcome task taskMeta hw => cases h.stage hw
  | workerCount w outcome taskMeta hw => cases h.stage hw
  | workerNotify w outcome locked hw =>
      refine h.move (s := s) hw rfl rfl rfl rfl ?_
      cases locked <;> rfl
  | workerSleep w outcome hw => exact h.move hw rfl rfl rfl rfl rfl
  | workerSkip w outcome hw => exact h.move hw rfl rfl rfl rfl rfl
  | workerUnlock w outcome hw => exact h.move hw rfl rfl rfl rfl rfl
  | spuriousWorker w hw => exact h.move hw rfl rfl rfl rfl rfl
  | stopNotify =>
      refine ⟨h.calls, h.queue, ?_, h.log_eq⟩
      have hsame : s.notifyAllWorkers.runningTasks = s.runningTasks :=
        filterMap_map_of_eq fun pc => by cases pc <;> rfl
      exact hsame.trans h.running
  | _ => exact ⟨h.calls, h.queue, h.running, h.log_eq⟩

/-- When a waiter that knew all calls has returned, the pool is cleared. -/
theorem cleared_of_returned (hs : (ThreadPool ρ threadsCount cap).Reachable s) {waiter : Waiter}
    (hmem : waiter ∈ s.waiters) (hreturned : waiter.pc = .returned)
    (hcalls : ∀ call ∈ s.calls, (∃ result, call.pc = .returned result) ∧
      call.id ∈ waiter.before) : s.Cleared s.log := by
  have hacc := (accounted_invariant threadsCount cap).reachable hs
  have hissued := (issuedOk_invariant threadsCount cap).reachable hs
  have hfinished : ∀ id < s.tasksLastId, Finished s id := fun id hid => by
    obtain ⟨call, hcall, -, rfl⟩ := hissued id hid
    exact hacc.finished (((waitersOk_invariant threadsCount cap).reachable hs waiter hmem).done
      (.inr hreturned) _ (hcalls call hcall).2)
  -- what is queued or run has an id, and every id is finished
  have hplaced : ∀ id ∈ (s.ledger.queuedIds + s.ledger.runningIds : Multiset Nat),
      id < s.tasksLastId := fun id hid => by
    refine Multiset.mem_range.mp (show id ∈ Multiset.range s.ledger.issued from ?_)
    rw [← hacc.ok.partition]
    simp only [Multiset.mem_add] at hid ⊢
    tauto
  refine ⟨fun call hcall => (hcalls call hcall).1, ?_, ?_, rfl⟩
  · refine List.eq_nil_iff_forall_not_mem.mpr fun entry hentry => ?_
    have hid : entry.2.id ∈ s.tasks.map fun entry => entry.2.id := List.mem_map.mpr ⟨_, hentry, rfl⟩
    refine (hfinished entry.2.id (hplaced _ (Multiset.mem_add.mpr (.inl ?_)))).not_queued hid
    simpa [Ledger.queuedIds, ledger] using hid
  · refine List.eq_nil_iff_forall_not_mem.mpr fun entry hentry => ?_
    have hid : entry.2.id ∈ s.runningTasks.map fun entry => entry.2.id :=
      List.mem_map.mpr ⟨_, hentry, rfl⟩
    refine (hfinished entry.2.id (hplaced _ (Multiset.mem_add.mpr (.inr ?_)))).not_running hid
    simpa [Ledger.runningIds, ledger] using hid

end ThreadPoolState

/-- **A pool that was waited for loses nothing.** If a call of `wait_all` has returned that was made
when all calls of `add_task` had returned, then without new submissions nothing happens to tasks any
more: whatever the threads and the destructor do, the queue stays empty, the log stays as it is,
and every accepted task has been completed.
Source: `ThreadPoolAdaptor::shutdown`, `ThreadPool::wait_all`, `ThreadPool::~ThreadPool` -/
theorem graceful_shutdown (threadsCount cap : Nat) (s : ThreadPoolState ρ)
    (hs : (ThreadPool ρ threadsCount cap).Reachable s) (waiter : Waiter)
    (hmem : waiter ∈ s.waiters) (hreturned : waiter.pc = .returned)
    (hcalls : ∀ call ∈ s.calls, (∃ result, call.pc = .returned result) ∧
      call.id ∈ waiter.before) :
    ∀ s', ((ThreadPool ρ threadsCount cap).guarded NoSubmission).Leads s s' →
      s'.tasks = [] ∧ s'.log = s.log ∧
        (s'.ledger.accepted.map TaskMeta.id).Perm s'.ledger.completedIds := by
  intro s' hrun
  have hclear : s'.Cleared s.log := by
    induction hrun with
    | refl => exact ThreadPoolState.cleared_of_returned hs hmem hreturned hcalls
    | tail _ hstep ih =>
        obtain ⟨a, ha, hstep⟩ := hstep
        exact ih.transition ha (ThreadPoolState.transition_of_next hstep)
  have hok := ((ThreadPoolState.accounted_invariant threadsCount cap).reachable
    (hrun.of_guarded.reachable hs)).ok
  refine ⟨hclear.queue, hclear.log_eq, Multiset.coe_eq_coe.mp ?_⟩
  have hqueue : s'.ledger.queue = [] := by
    show s'.tasks.map Prod.snd = []
    rw [hclear.queue]
    rfl
  have hrunning : s'.ledger.running = 0 := congrArg Multiset.ofList hclear.running
  have haccepted := congrArg (Multiset.map TaskMeta.id) hok.accepted_eq
  rwa [hqueue, hrunning, Multiset.map_zero, add_zero, Multiset.coe_nil, zero_add,
    Multiset.map_coe, Multiset.map_coe] at haccepted

/-- The only task is completed, and the waiter that was called after its submission has returned. -/
theorem graceful_shutdown_wokenState :
    wokenState.ledger.completedIds = [0] ∧
      ∀ s', ((ThreadPool Nat 1 1).guarded NoSubmission).Leads wokenState s' →
        s'.tasks = [] ∧ s'.log = wokenState.log := by
  refine ⟨by decide, fun s' hrun => ?_⟩
  obtain ⟨hqueue, hlog, -⟩ := graceful_shutdown 1 1 wokenState
    (System.Reachable.runFrom wokenRun (.init rfl) rfl) ⟨.returned, [0]⟩ (by decide) rfl
    (fun call hmem => by
      obtain rfl : call = ⟨false, true, 0, false, .returned (some 0)⟩ := by
        simpa using show call ∈ [(⟨false, true, 0, false, .returned (some 0)⟩ : Call)] from hmem
      exact ⟨⟨_, rfl⟩, by simp⟩) s' hrun
  exact ⟨hqueue, hlog⟩

end SocialNetwork.Threads
