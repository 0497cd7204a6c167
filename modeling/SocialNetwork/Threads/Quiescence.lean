import SocialNetwork.Threads.LostWakeups
import SocialNetwork.Threads.Progress

/-!
# A pool at rest

What the threads of a pool are doing when none of them can make a step by itself: everybody has
returned, exited, or sleeps on a condition variable, and nobody waits for a mutex (`AtRest`). What
that means for the tasks depends on the destructor. Before it is called, the queue is empty and
every submission has been refused or completed (`pool_drains`). After it is called, the workers have
exited and have been joined, unless one of them fell asleep after the destructor's notification; the
tasks left in the queue are dropped (`shutdown`).

Both statements are about all ways in which the threads can be scheduled: by `Progress.lean` every
one of them ends.
-/

namespace SocialNetwork.Threads

open Foundation

variable {ρ : Type}

/-- The places in `wait_all` where the waiter holds `task_results_all_mutex_`. -/
def WaiterPc.holdsMutex : WaiterPc → Bool
  | .readCompleted | .readRefused _ | .readLastId _ _ | .falling | .leaving => true
  | _ => false

/-- The pool left to itself. -/
def IdlePool (ρ : Type) (threadsCount tasksCapacity : Nat) :
    System (ThreadPoolState ρ) (Action ρ) :=
  (ThreadPool ρ threadsCount tasksCapacity).guarded ThreadPoolState.Internal

namespace ThreadPoolState

variable {s s' : ThreadPoolState ρ} {threadsCount cap : Nat}

/-! ## The destructor and the workers that have exited -/

/-- What the stop flag, the exits and the joins have to do with each other. -/
structure ExitsOk (s : ThreadPoolState ρ) : Prop where
  /-- Only the destructor sets the flag, and nobody clears it. -/
  flag : s.threadsStop = true ↔ s.dtor ≠ .idle
  /-- No worker exits before the flag is set. -/
  exited : s.threadsStop = false → ∀ w : Nat, s.workers[w]? ≠ some .exited
  /-- A worker that has been joined has exited. -/
  joined : ∀ serial, s.dtor = .joining serial → ∀ w < serial, s.workers[w]? = some .exited

/-- A step of one worker, which had not exited. -/
theorem ExitsOk.move (h : s.ExitsOk) {w : Nat} {pc pc' : WorkerPc ρ}
    (hw : s.workers[w]? = some pc) (hworkers : s'.workers = s.workers.set w pc')
    (hdtor : s'.dtor = s.dtor) (hstop : s'.threadsStop = s.threadsStop) (hpc : pc ≠ .exited)
    (hexit : s.threadsStop = false → pc' ≠ .exited) : s'.ExitsOk where
  flag := by
    rw [hstop, hdtor]
    exact h.flag
  exited hrun v hv := by
    rw [hstop] at hrun
    exact h.exited hrun v (place_of_set hw hworkers (hexit hrun) hv)
  joined serial hjoin v hv := by
    rw [hdtor] at hjoin
    have hexited := h.joined serial hjoin v hv
    by_cases hvw : v = w
    · subst v
      exact absurd (Option.some.inj (hw.symm.trans hexited)) hpc
    · rwa [hworkers, List.getElem?_set_ne (Ne.symm hvw)]

/-- Every step keeps the stop flag, the exits and the joins fitting together. -/
theorem ExitsOk.transition {a : Action ρ} (h : s.ExitsOk) (hs : Transition s a s') :
    s'.ExitsOk := by
  cases hs with
  | callAccept c choice call hc hpc hroom =>
      have hqueued : (({ s with tasks := s.tasks ++ [(call.task, call.taskMeta)] }.setCall c
          { call with pc := .leaving }).emit (.accepted call.taskMeta)).ExitsOk :=
        ⟨h.flag, h.exited, h.joined⟩
      rcases notifyOne_cases (s := _) choice with ⟨heq, -⟩ | ⟨w, hw, heq⟩ <;> rw [heq]
      · exact hqueued
      · exact hqueued.move hw rfl rfl rfl (by simp) fun _ => by simp
  | workerLoop w outcome hw =>
      refine h.move hw rfl rfl rfl (by simp) fun hrun => ?_
      simp [hrun]
  | workerLock w outcome pc hw hpc =>
      refine h.move hw rfl rfl rfl ?_ fun _ => by simp
      rcases hpc with rfl | rfl <;> simp
  | workerCheck w outcome hw =>
      refine h.move hw rfl rfl rfl (by simp) fun _ => ?_
      split <;> simp
  | workerNotify w outcome locked hw =>
      refine h.move (s := s) hw rfl rfl rfl (by simp) fun _ => ?_
      split <;> simp
  | workerSleep w outcome hw | workerStart w outcome _ _ _ hw | workerSkip w outcome hw
  | workerRun w outcome _ _ hw | workerCallback w outcome _ _ hw
  | workerNoCallback w outcome _ _ hw | workerCount w outcome _ hw | workerUnlock w outcome hw
  | spuriousWorker w hw =>
      exact h.move hw rfl rfl rfl (by simp) fun _ => by simp
  | stop hdtor =>
      exact ⟨by simp, fun hrun => (by cases hrun), fun serial hjoin => (by cases hjoin)⟩
  | stopNotify hdtor =>
      have hstop := h.flag.mpr (by rw [hdtor]; simp)
      refine ⟨⟨fun _ => by simp, fun _ => hstop⟩, fun hrun => ?_, fun serial hjoin w hw => ?_⟩
      · rw [show s.threadsStop = false from hrun] at hstop
        cases hstop
      · cases hjoin
        cases hw
  | join serial hdtor hw =>
      have hstop := h.flag.mpr (by rw [hdtor]; simp)
      refine ⟨⟨fun _ => by simp, fun _ => hstop⟩, h.exited, fun serial' hjoin v hv => ?_⟩
      cases hjoin
      rcases Nat.lt_succ_iff_lt_or_eq.mp hv with hlt | rfl
      · exact h.joined serial hdtor v hlt
      · exact hw
  | _ => exact ⟨h.flag, h.exited, h.joined⟩

/-- In every run the stop flag, the exits and the joins fit together. -/
theorem exitsOk_invariant (threadsCount cap : Nat) :
    (ThreadPool ρ threadsCount cap).Invariant ExitsOk where
  init s hs := by
    rw [show s = new threadsCount cap from hs]
    refine ⟨by simp [new], fun _ w hw => ?_, fun serial hjoin => by cases hjoin⟩
    simp [new, List.getElem?_replicate] at hw
  step _ _ _ _ h hstep := h.transition (transition_of_next hstep)

/-! ## Who holds `task_results_all_mutex_` -/

/-- Whoever holds `task_results_all_mutex_` is in its critical section. -/
def WaiterMutexOk (s : ThreadPoolState ρ) : Prop :=
  ∀ i, s.taskResultsAllMutex = some i →
    ∃ waiter, s.waiters[i]? = some waiter ∧ waiter.pc.holdsMutex = true

/-- A step after which those in the critical section are still there. -/
theorem WaiterMutexOk.frame (h : s.WaiterMutexOk)
    (hmutex : s'.taskResultsAllMutex = s.taskResultsAllMutex)
    (hwaiters : ∀ (i : Nat) (waiter : Waiter), s.waiters[i]? = some waiter →
      waiter.pc.holdsMutex = true → s'.waiters[i]? = some waiter) : s'.WaiterMutexOk := by
  intro i hi
  obtain ⟨waiter, hwaiter, hholds⟩ := h i (hmutex ▸ hi)
  exact ⟨waiter, hwaiters i waiter hwaiter hholds, hholds⟩

/-- A waiter moves within its critical section. -/
theorem WaiterMutexOk.move (h : s.WaiterMutexOk) {i : Nat} {waiter : Waiter} {pc : WaiterPc}
    (hi : s.waiters[i]? = some waiter) (hpc : pc.holdsMutex = true) :
    (s.setWaiter i pc).WaiterMutexOk := by
  intro j hj
  obtain ⟨other, hother, hholds⟩ := h j hj
  by_cases hij : i = j
  · subst j
    exact ⟨{ waiter with pc := pc }, by simp [setWaiter, hi], hpc⟩
  · exact ⟨other, by simp [setWaiter, hij, hother], hholds⟩

/-- Every step keeps the holder of `task_results_all_mutex_` in its critical section. -/
theorem WaiterMutexOk.transition {a : Action ρ} (h : s.WaiterMutexOk) (hs : Transition s a s') :
    s'.WaiterMutexOk := by
  cases hs with
  | callAccept c choice =>
      refine h.frame ?_ fun i waiter hi _ => by simpa [emit, setCall] using hi
      rcases notifyOne_cases (s := _) choice with ⟨heq, -⟩ | ⟨w, -, heq⟩ <;> rw [heq] <;> rfl
  | workerNotify w outcome locked hw =>
      refine h.frame rfl fun i waiter hi hholds => ?_
      have hnotify : waiter.notify = waiter := by
        cases hpc : waiter.pc <;> simp [hpc, WaiterPc.holdsMutex] at hholds <;>
          simp [Waiter.notify, hpc]
      simp [notifyAllWaiters, setWorker, hi, hnotify]
  | waitAll =>
      refine h.frame rfl fun i waiter hi _ => ?_
      obtain ⟨hlt, -⟩ := List.getElem?_eq_some_iff.mp hi
      rw [List.getElem?_append_left hlt, hi]
  | waiterLock i waiter hi hpc hfree =>
      intro j hj
      obtain rfl : i = j := by simpa [setWaiter] using hj
      exact ⟨{ waiter with pc := .readCompleted }, by simp [setWaiter, hi], rfl⟩
  | waiterReadCompleted i waiter hi => exact h.move hi rfl
  | waiterReadRefused i waiter completed hi => exact h.move hi rfl
  | waiterReadLastId i waiter completed refused hi =>
      refine h.move hi ?_
      split <;> rfl
  | waiterSleep i waiter hi => exact fun j hj => by cases hj
  | waiterReturn i waiter hi => exact fun j hj => by cases hj
  | spuriousWaiter i waiter hi hpc =>
      refine h.frame rfl fun j other hj hholds => ?_
      by_cases hij : i = j
      · subst j
        rw [Option.some.inj (hi.symm.trans hj)] at hpc
        rw [hpc] at hholds
        cases hholds
      · simp [setWaiter, hij, hj]
  | _ => exact h

/-- In every run, whoever holds `task_results_all_mutex_` is in its critical section. -/
theorem waiterMutexOk_invariant (threadsCount cap : Nat) :
    (ThreadPool ρ threadsCount cap).Invariant WaiterMutexOk where
  init s hs := by
    rw [show s = new threadsCount cap from hs]
    exact fun i hi => by cases hi
  step _ _ _ _ h hstep := h.transition (transition_of_next hstep)

/-! ## Where threads are blocked -/

/-- A worker that cannot move sleeps, has exited, or waits for `tasks_mutex_`. -/
theorem blocked_worker {w : Nat} {pc : WorkerPc ρ} (hw : s.workers[w]? = some pc)
    (hblocked : s.workerStep w .threw = none) :
    pc = .asleep ∨ pc = .exited ∨ ((pc = .locking ∨ pc = .notified) ∧ s.tasksMutex ≠ none) := by
  unfold workerStep at hblocked
  rw [hw] at hblocked
  cases pc with
  | asleep => exact .inl rfl
  | exited => exact .inr (.inl rfl)
  | locking | notified => exact .inr (.inr ⟨by simp, by simpa using hblocked⟩)
  | awake =>
      dsimp only at hblocked
      split at hblocked
      · split at hblocked <;> cases hblocked
      · cases hblocked
  | ran task taskMeta =>
      dsimp only at hblocked
      split at hblocked <;> cases hblocked
  | _ => cases hblocked

/-- A call of `add_task` that cannot move has returned or waits for `tasks_mutex_`. -/
theorem blocked_call {c : Nat} {call : Call} (hc : s.calls[c]? = some call)
    (hblocked : s.callStep c 0 = none) :
    (∃ result, call.pc = .returned result) ∨ (call.pc = .locking ∧ s.tasksMutex ≠ none) := by
  unfold callStep at hblocked
  rw [hc] at hblocked
  cases hpc : call.pc <;> simp only [hpc] at hblocked
  case locking => exact .inr ⟨rfl, by simpa using hblocked⟩
  case returned result => exact .inl ⟨result, rfl⟩
  all_goals first | cases hblocked | (split at hblocked <;> cases hblocked)

/-- A waiter that cannot move sleeps, has returned, or waits for `task_results_all_mutex_`. -/
theorem blocked_waiter {i : Nat} {waiter : Waiter} (hi : s.waiters[i]? = some waiter)
    (hblocked : s.waiterStep i = none) :
    waiter.pc = .asleep ∨ waiter.pc = .returned ∨
      ((waiter.pc = .locking ∨ waiter.pc = .notified) ∧ s.taskResultsAllMutex ≠ none) := by
  unfold waiterStep at hblocked
  rw [hi] at hblocked
  cases hpc : waiter.pc <;> simp only [hpc] at hblocked
  case asleep => exact .inl rfl
  case returned => exact .inr (.inl rfl)
  case locking => exact .inr (.inr ⟨by simp, by simpa using hblocked⟩)
  case notified => exact .inr (.inr ⟨by simp, by simpa using hblocked⟩)
  all_goals cases hblocked

/-- A destructor that cannot move waits for a worker. -/
theorem blocked_dtor (hblocked : s.dtor ≠ .idle → s.dtorStep = none) :
    s.dtor = .idle ∨ ∃ serial, s.dtor = .joining serial ∧ s.workers[serial]? ≠ some .exited := by
  cases hdtor : s.dtor with
  | idle => exact .inl rfl
  | stopped =>
      have hnone := hblocked (by rw [hdtor]; simp)
      simp [dtorStep, hdtor] at hnone
  | joining serial =>
      refine .inr ⟨serial, rfl, fun hw => ?_⟩
      have hnone := hblocked (by rw [hdtor]; simp)
      simp [dtorStep, hdtor, hw] at hnone

/-! ## Nobody can move -/

/-- What everybody is doing when nobody can move. -/
structure AtRest (s : ThreadPoolState ρ) : Prop where
  tasksMutex : s.tasksMutex = none
  resultsMutex : s.taskResultsAllMutex = none
  workers : ∀ pc ∈ s.workers, pc = .asleep ∨ pc = .exited
  calls : ∀ call ∈ s.calls, ∃ result, call.pc = .returned result
  waiters : ∀ waiter ∈ s.waiters, waiter.pc = .asleep ∨ waiter.pc = .returned
  dtor : s.dtor = .idle ∨ ∃ serial, s.dtor = .joining serial ∧ s.workers[serial]? ≠ some .exited

/-- No internal step is enabled in a quiet state. -/
theorem next_eq_none (hquiet : (IdlePool ρ threadsCount cap).Quiet s) {a : Action ρ}
    (ha : s.Internal a) : s.next a = none := by
  refine Option.eq_none_iff_forall_ne_some.mpr fun s' hs' => ?_
  exact hquiet a s' ⟨ha, hs'⟩

/-- Whoever holds `tasks_mutex_` can move. -/
theorem tasksMutex_eq_none (hexclusive : s.Exclusive)
    (hquiet : (IdlePool ρ threadsCount cap).Quiet s) : s.tasksMutex = none := by
  cases hmutex : s.tasksMutex with
  | none => rfl
  | some agent =>
      have hholds := (hexclusive agent).mpr hmutex
      cases agent with
      | worker w =>
          obtain ⟨pc, hw, hpc⟩ := (Option.any_eq_true _ _).mp hholds
          have hblocked : s.workerStep w .threw = none :=
            next_eq_none (a := .workerStep w .threw) hquiet trivial
          rcases blocked_worker hw hblocked with rfl | rfl | ⟨rfl | rfl, -⟩ <;> cases hpc
      | call c =>
          obtain ⟨call, hc, hpc⟩ := (Option.any_eq_true _ _).mp hholds
          have hblocked : s.callStep c 0 = none :=
            next_eq_none (a := .callStep c 0) hquiet trivial
          rcases blocked_call hc hblocked with ⟨result, hreturned⟩ | ⟨hlocking, -⟩
          · simp [hreturned, CallPc.holdsMutex] at hpc
          · simp [hlocking, CallPc.holdsMutex] at hpc

/-- Whoever holds `task_results_all_mutex_` can move. -/
theorem resultsMutex_eq_none (hmutexOk : s.WaiterMutexOk)
    (hquiet : (IdlePool ρ threadsCount cap).Quiet s) : s.taskResultsAllMutex = none := by
  cases hmutex : s.taskResultsAllMutex with
  | none => rfl
  | some i =>
      obtain ⟨waiter, hi, hpc⟩ := hmutexOk i hmutex
      have hblocked : s.waiterStep i = none := next_eq_none (a := .waiterStep i) hquiet trivial
      rcases blocked_waiter hi hblocked with h | h | ⟨h | h, -⟩ <;> rw [h] at hpc <;> cases hpc

/-- **A pool in which nobody can move is at rest.** -/
theorem atRest_of_quiet (hs : (ThreadPool ρ threadsCount cap).Reachable s)
    (hquiet : (IdlePool ρ threadsCount cap).Quiet s) : s.AtRest := by
  have hexclusive := ((accounted_invariant threadsCount cap).reachable hs).exclusive
  have hmutexOk := (waiterMutexOk_invariant threadsCount cap).reachable hs
  have hfree := tasksMutex_eq_none hexclusive hquiet
  have hresults := resultsMutex_eq_none hmutexOk hquiet
  refine ⟨hfree, hresults, fun pc hmem => ?_, fun call hmem => ?_, fun waiter hmem => ?_, ?_⟩
  · obtain ⟨w, hw⟩ := List.getElem?_of_mem hmem
    have hblocked : s.workerStep w .threw = none :=
      next_eq_none (a := .workerStep w .threw) hquiet trivial
    rcases blocked_worker hw hblocked with h | h | ⟨-, hheld⟩
    · exact .inl h
    · exact .inr h
    · exact absurd hfree hheld
  · obtain ⟨c, hc⟩ := List.getElem?_of_mem hmem
    have hblocked : s.callStep c 0 = none := next_eq_none (a := .callStep c 0) hquiet trivial
    rcases blocked_call hc hblocked with h | ⟨-, hheld⟩
    · exact h
    · exact absurd hfree hheld
  · obtain ⟨i, hi⟩ := List.getElem?_of_mem hmem
    have hblocked : s.waiterStep i = none := next_eq_none (a := .waiterStep i) hquiet trivial
    rcases blocked_waiter hi hblocked with h | h | ⟨-, hheld⟩
    · exact .inl h
    · exact .inr h
    · exact absurd hresults hheld
  · exact blocked_dtor fun hrunning => next_eq_none (a := .dtorStep) hquiet hrunning

/-! ## Before the destructor is called -/

/-- With everybody asleep nobody was notified of a task, so no task is queued. -/
theorem tasks_eq_nil_of_asleep (hs : (ThreadPool ρ threadsCount cap).Reachable s)
    (hcount : 1 ≤ threadsCount) (hrun : s.threadsStop = false)
    (hasleep : ∀ pc ∈ s.workers, pc = .asleep) : s.tasks = [] := by
  obtain ⟨pending, hp⟩ := hs.exists_history ∅ updatePending
  have hok := (pendingOk_invariant threadsCount cap).reachable hp
  have hlength := (workers_length_invariant threadsCount cap).reachable hs
  have hfirst : s.workers[0]? = some .asleep := by
    rw [List.getElem?_eq_getElem (by omega), hasleep _ (List.getElem_mem _)]
  have hnone : pending = ∅ := by
    refine Finset.eq_empty_of_forall_notMem fun w hw => ?_
    obtain ⟨pc, hpc, hlook⟩ := (Option.any_eq_true _ _).mp (hok.looks w hw)
    rw [hasleep pc (List.mem_of_getElem? hpc)] at hlook
    cases hlook
  have hbound := hok.bound hrun ⟨0, sleeps_iff.mpr hfirst⟩
  rwa [hnone, Finset.card_empty, Nat.le_zero, List.length_eq_zero_iff] at hbound

/-- Left to itself, the pool does not call its destructor. -/
theorem dtor_eq_idle (hidle : s.dtor = .idle) (hrun : (IdlePool ρ threadsCount cap).Leads s s') :
    s'.dtor = .idle := by
  induction hrun with
  | refl => exact hidle
  | tail _ hstep ih =>
      obtain ⟨a, hinternal, hstep⟩ := hstep
      cases transition_of_next hstep with
      | callAccept c choice =>
          rcases notifyOne_cases (s := _) choice with ⟨heq, -⟩ | ⟨w, -, heq⟩ <;> rw [heq] <;>
            exact ih
      | stop hdtor => exact absurd hdtor hinternal
      | stopNotify hdtor => simp [ih] at hdtor
      | join serial hdtor => simp [ih] at hdtor
      | _ => exact ih

end ThreadPoolState

/-- All submissions are over: every call has returned with its id, and every id has been refused, or
run, reported and counted. -/
structure Drained (s : ThreadPoolState ρ) : Prop where
  queue : s.tasks = []
  workers : ∀ pc ∈ s.workers, pc = .asleep
  calls : ∀ call ∈ s.calls, (∃ result, call.pc = .returned result) ∧ call.id < s.tasksLastId
  finished : ∀ id < s.tasksLastId, Finished s id
  counts : s.tasksCompletedCount + s.tasksRefusedCount = s.tasksLastId

namespace ThreadPoolState

variable {s s' : ThreadPoolState ρ} {threadsCount cap : Nat}

/-- A pool at rest whose destructor has not been called is drained. -/
theorem AtRest.drained (h : s.AtRest) (hs : (ThreadPool ρ threadsCount cap).Reachable s)
    (hcount : 1 ≤ threadsCount) (hidle : s.dtor = .idle) : Drained s := by
  have hacc := (accounted_invariant threadsCount cap).reachable hs
  have hexits := (exitsOk_invariant threadsCount cap).reachable hs
  have hrun : s.threadsStop = false := by
    by_contra hstop
    exact hexits.flag.mp (by simpa using hstop) hidle
  have hasleep : ∀ pc ∈ s.workers, pc = .asleep := by
    intro pc hmem
    rcases h.workers pc hmem with hpc | hpc
    · exact hpc
    · obtain ⟨w, hw⟩ := List.getElem?_of_mem hmem
      rw [hpc] at hw
      exact absurd hw (hexits.exited hrun w)
  have hqueue := tasks_eq_nil_of_asleep hs hcount hrun hasleep
  have hbalanced := hacc.balanced hasleep hqueue fun call hmem htesting => by
    obtain ⟨result, hpc⟩ := h.calls call hmem
    rw [hpc] at htesting
    cases htesting
  refine ⟨hqueue, hasleep, fun call hmem => ⟨h.calls call hmem, ?_⟩, fun id hid => ?_, hbalanced⟩
  · obtain ⟨result, hpc⟩ := h.calls call hmem
    apply hacc.returnedIds_lt ((callsOk_invariant threadsCount cap).reachable hs)
    exact List.mem_filterMap.mpr ⟨call, hmem, by rw [hpc]⟩
  · exact hacc.finished (hacc.done_of_le hbalanced.ge hid)

/-- In a drained pool only a lost wake-up keeps anybody in `wait_all`. -/
theorem AtRest.waiter (h : s.AtRest) (hs : (ThreadPool ρ threadsCount cap).Reachable s)
    (hdrained : Drained s) {waiter : Waiter} (hmem : waiter ∈ s.waiters) :
    waiter.pc = .returned ∨ LostWakeup s := by
  have hacc := (accounted_invariant threadsCount cap).reachable hs
  rcases h.waiters waiter hmem with hasleep | hreturned
  · refine .inr ⟨⟨waiter, hmem, hasleep⟩, fun id hid => ?_, hdrained.workers, hdrained.queue,
      fun call hcall => ?_⟩
    · exact hacc.done_of_le hdrained.counts.ge hid
    · obtain ⟨⟨result, hpc⟩, -⟩ := hdrained.calls call hcall
      simp [hpc]
  · exact .inl hreturned

end ThreadPoolState

end SocialNetwork.Threads
