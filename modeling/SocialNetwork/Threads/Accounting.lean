import SocialNetwork.Foundation.Focus
import SocialNetwork.Threads.Transitions
import SocialNetwork.Threads.Ledger

/-!
# Task accounting of the thread pool

Every step of the pool is a move of its `ledger` or leaves the ledger alone (`ledger_transition`);
the one thing the ledger needs from the threads is that `tasks_mutex_` is held by whom it says
(`Exclusive`), so that two submissions are never in flight together. The counters are then read off
the log, and `task_accounting` collects what holds in every reachable state.
-/

namespace SocialNetwork.Threads

open Foundation

variable {ρ : Type}

/-! ## Who holds `tasks_mutex_` -/

/-- The places in `ThreadPool::run` where the worker holds `tasks_mutex_`. -/
def WorkerPc.holdsMutex : WorkerPc ρ → Bool
  | .checking | .falling | .awake | .notifying true | .releasing => true
  | _ => false

/-- The places in `add_task` where the caller holds `tasks_mutex_`. -/
def CallPc.holdsMutex : CallPc → Bool
  | .locked | .testing | .leaving => true
  | _ => false

namespace ThreadPoolState

variable (s : ThreadPoolState ρ)

/-- The thread is where it holds `tasks_mutex_`. -/
def holds : Agent → Bool
  | .call c => (s.calls[c]?).any fun call => call.pc.holdsMutex
  | .worker w => (s.workers[w]?).any WorkerPc.holdsMutex

/-- `tasks_mutex_` is held by the one thread that is in its critical section. -/
def Exclusive : Prop := ∀ agent, s.holds agent = true ↔ s.tasksMutex = some agent

variable {s} {s' : ThreadPoolState ρ}

/-- Moving one call changes what that call holds. -/
theorem holds_setCall {c : Nat} {call : Call} (h : s.calls[c]? = some call) (call' : Call)
    (agent : Agent) :
    (s.setCall c call').holds agent =
      if agent = .call c then call'.pc.holdsMutex else s.holds agent := by
  cases agent with
  | worker w => rfl
  | call d =>
      obtain ⟨hc, -⟩ := List.getElem?_eq_some_iff.mp h
      by_cases hd : d = c
      · subst hd
        simp [holds, setCall, hc]
      · simp [holds, setCall, hd, List.getElem?_set_ne (Ne.symm hd)]

/-- Moving one worker changes what that worker holds. -/
theorem holds_setWorker {w : Nat} {pc : WorkerPc ρ} (h : s.workers[w]? = some pc)
    (pc' : WorkerPc ρ) (agent : Agent) :
    (s.setWorker w pc').holds agent =
      if agent = .worker w then pc'.holdsMutex else s.holds agent := by
  cases agent with
  | call c => rfl
  | worker v =>
      obtain ⟨hw, -⟩ := List.getElem?_eq_some_iff.mp h
      by_cases hv : v = w
      · subst hv
        simp [holds, setWorker, hw]
      · simp [holds, setWorker, hv, List.getElem?_set_ne (Ne.symm hv)]

/-- A call holds the mutex where its program counter says so. -/
theorem holds_call {c : Nat} {call : Call} (h : s.calls[c]? = some call) :
    s.holds (.call c) = call.pc.holdsMutex := by
  simp [holds, h]

/-- A worker holds the mutex where its program counter says so. -/
theorem holds_worker {w : Nat} {pc : WorkerPc ρ} (h : s.workers[w]? = some pc) :
    s.holds (.worker w) = pc.holdsMutex := by
  simp [holds, h]

/-- There is one place to sleep. -/
theorem WorkerPc.eq_asleep {pc : WorkerPc ρ} (h : pc.isAsleep = true) : pc = .asleep := by
  cases pc <;> first | rfl | cases h

/-- `notify_one` wakes one sleeper, or does nothing if there is none. -/
theorem notifyOne_cases (choice : Nat) :
    (s.notifyOne choice = s ∧ ∀ pc ∈ s.workers, pc.isAsleep = false) ∨
      ∃ w, s.workers[w]? = some .asleep ∧ s.notifyOne choice = s.setWorker w .notified := by
  unfold notifyOne
  split
  · rename_i h
    obtain ⟨pc, hpc, hasleep⟩ := (Option.any_eq_true _ _).mp h
    exact .inr ⟨choice, by rw [hpc, WorkerPc.eq_asleep hasleep], rfl⟩
  · split
    · rename_i w hw
      obtain ⟨h, hasleep, -⟩ := List.findIdx?_eq_some_iff_getElem.mp hw
      exact .inr ⟨w, by rw [List.getElem?_eq_getElem h, WorkerPc.eq_asleep hasleep], rfl⟩
    · rename_i hnone
      exact .inl ⟨rfl, fun pc hpc => by simpa using List.findIdx?_eq_none_iff.mp hnone pc hpc⟩

/-- A notification writes nothing into the log. -/
@[simp] theorem notifyOne_log (choice : Nat) : (s.notifyOne choice).log = s.log := by
  rcases s.notifyOne_cases choice with ⟨h, -⟩ | ⟨w, -, h⟩ <;> simp [h, setWorker]

/-- A notification moves no call. -/
@[simp] theorem notifyOne_calls (choice : Nat) : (s.notifyOne choice).calls = s.calls := by
  rcases s.notifyOne_cases choice with ⟨h, -⟩ | ⟨w, -, h⟩ <;> simp [h, setWorker]

/-- A notification to the workers wakes no waiter of `wait_all`. -/
@[simp] theorem notifyOne_waiters (choice : Nat) : (s.notifyOne choice).waiters = s.waiters := by
  rcases s.notifyOne_cases choice with ⟨h, -⟩ | ⟨w, -, h⟩ <;> simp [h, setWorker]

/-- Nobody gets or loses the mutex by a notification. -/
theorem holds_notifyOne (choice : Nat) (agent : Agent) :
    (s.notifyOne choice).holds agent = s.holds agent := by
  rcases s.notifyOne_cases choice with ⟨h, -⟩ | ⟨w, hw, h⟩
  · rw [h]
  · rw [h, holds_setWorker hw]
    split
    · subst agent
      rw [holds_worker hw]
      rfl
    · rfl

/-- Nobody gets or loses the mutex when all workers are notified. -/
theorem holds_notifyAllWorkers (agent : Agent) :
    s.notifyAllWorkers.holds agent = s.holds agent := by
  cases agent with
  | call c => rfl
  | worker w =>
      simp only [holds, notifyAllWorkers, List.getElem?_map, Option.any_map]
      congr 1
      funext pc
      cases pc <;> rfl

/-- A step that takes the free mutex. -/
theorem Exclusive.lock (h : s.Exclusive) (agent : Agent) (hfree : s.tasksMutex = none)
    (hholds : ∀ b, s'.holds b = if b = agent then true else s.holds b)
    (hmutex : s'.tasksMutex = some agent) : s'.Exclusive := by
  intro b
  rw [hholds, hmutex]
  by_cases hb : b = agent
  · simp [hb]
  · simp [hb, Ne.symm hb, h b, hfree]

/-- A step that neither takes nor releases the mutex. -/
theorem Exclusive.keep (h : s.Exclusive) (hholds : ∀ b, s'.holds b = s.holds b)
    (hmutex : s'.tasksMutex = s.tasksMutex) : s'.Exclusive := by
  intro b
  rw [hholds, hmutex]
  exact h b

/-- A step of the holder that releases the mutex. -/
theorem Exclusive.unlock (h : s.Exclusive) (agent : Agent) (hold : s.holds agent = true)
    (hholds : ∀ b, s'.holds b = if b = agent then false else s.holds b)
    (hmutex : s'.tasksMutex = none) : s'.Exclusive := by
  intro b
  rw [hholds, hmutex]
  by_cases hb : b = agent
  · simp [hb]
  · have hne : s.tasksMutex ≠ some b := by
      rw [(h agent).mp hold]
      simpa using Ne.symm hb
    simp [hb, h b, hne]

/-- A call that moves inside or outside its critical section. -/
theorem Exclusive.keep_call (h : s.Exclusive) {c : Nat} {call : Call}
    (call' : Call) (hc : s.calls[c]? = some call)
    (hpc : call'.pc.holdsMutex = call.pc.holdsMutex) :
    (s.setCall c call').Exclusive := by
  refine h.keep (fun b => ?_) rfl
  rw [holds_setCall hc]
  split
  · subst b
    rw [holds_call hc, hpc]
  · rfl

/-- A worker that moves inside or outside its critical section. -/
theorem Exclusive.keep_worker (h : s.Exclusive) {w : Nat} {pc : WorkerPc ρ} (pc' : WorkerPc ρ)
    (hw : s.workers[w]? = some pc) (hpc : pc'.holdsMutex = pc.holdsMutex) :
    (s.setWorker w pc').Exclusive := by
  refine h.keep (fun b => ?_) rfl
  rw [holds_setWorker hw]
  split
  · subst b
    rw [holds_worker hw, hpc]
  · rfl

/-- The mutex is exclusive after every step. -/
theorem Exclusive.transition {a : Action ρ} (h : s.Exclusive) (hs : Transition s a s') :
    s'.Exclusive := by
  cases hs with
  | addTask cb isVoid =>
      refine h.keep (fun b => ?_) rfl
      cases b with
      | worker w => rfl
      | call c =>
          simp only [holds]
          rcases lt_trichotomy c s.calls.length with hc | rfl | hc
          · rw [List.getElem?_append_left hc]
          · simp [CallPc.holdsMutex]
          · rw [List.getElem?_eq_none hc.le, List.getElem?_eq_none (by simp; omega)]
  | callLock c choice call hc hpc hfree =>
      exact h.lock (.call c) hfree (fun b => holds_setCall (s := s.setMutex _) hc _ b) rfl
  | callIssue c choice call hc hpc =>
      exact (h.keep_call { call with id := s.tasksLastId, pc := .testing } hc
        (by rw [hpc]; rfl))
  | callAccept c choice call hc hpc hroom =>
      have hmoved := h.keep_call { call with pc := .leaving } hc (by rw [hpc]; rfl)
      refine Exclusive.keep (s := s.setCall c { call with pc := .leaving }) hmoved
        (fun b => holds_notifyOne _ _) ?_
      rcases notifyOne_cases (s := _) choice with ⟨h, -⟩ | ⟨w, -, h⟩ <;> rw [h] <;> rfl
  | callRefuse c choice call hc hpc hfull =>
      exact h.keep_call { call with refused := true, pc := .leaving } hc
        (by rw [hpc]; rfl)
  | callUnlock c choice call hc hpc =>
      exact h.unlock (.call c) (by rw [holds_call hc, hpc]; rfl)
        (fun b => holds_setCall (s := s.setMutex _) hc _ b) rfl
  | callReport c choice call hc hpc => exact h.keep_call _ hc (by rw [hpc]; rfl)
  | callReturn c choice call hc hpc => exact h.keep_call _ hc (by rw [hpc]; rfl)
  | callReturnNull c choice call hc hpc => exact h.keep_call _ hc (by rw [hpc]; rfl)
  | workerLoop w outcome hw => exact h.keep_worker _ hw (by split <;> rfl)
  | workerLock w outcome pc hw hpc hfree =>
      exact h.lock (.worker w) hfree (fun b => holds_setWorker (s := s.setMutex _) hw _ b) rfl
  | workerCheck w outcome hw => exact h.keep_worker _ hw (by split <;> rfl)
  | workerSleep w outcome hw =>
      exact h.unlock (.worker w) (by rw [holds_worker hw]; rfl)
        (fun b => holds_setWorker (s := s.setMutex _) hw _ b) rfl
  | workerStart w outcome task taskMeta rest hw htasks hstop =>
      exact h.unlock (.worker w) (by rw [holds_worker hw]; rfl)
        (fun b => holds_setWorker hw (.running task taskMeta) b) rfl
  | workerSkip w outcome hw => exact h.keep_worker _ hw rfl
  | workerRun w outcome task taskMeta hw => exact h.keep_worker _ hw rfl
  | workerCallback w outcome task taskMeta hw => exact h.keep_worker _ hw rfl
  | workerNoCallback w outcome task taskMeta hw => exact h.keep_worker _ hw rfl
  | workerCount w outcome taskMeta hw => exact h.keep_worker (.notifying false) hw rfl
  | workerNotify w outcome locked hw => exact h.keep_worker _ hw (by cases locked <;> rfl)
  | workerUnlock w outcome hw =>
      exact h.unlock (.worker w) (by rw [holds_worker hw]; rfl)
        (fun b => holds_setWorker (s := s.setMutex _) hw _ b) rfl
  | stopNotify => exact h.keep (s := s) (fun b => holds_notifyAllWorkers (s := s) b) rfl
  | spuriousWorker w hw => exact h.keep_worker _ hw rfl
  | _ => exact h

end ThreadPoolState

/-! ## The ledger of a pool -/

/-- The popped task of a worker and how far it has come. -/
def WorkerPc.stage? : WorkerPc ρ → Option (Stage × TaskMeta)
  | .running _ taskMeta => some (.body, taskMeta)
  | .ran _ taskMeta => some (.ended, taskMeta)
  | .counting taskMeta => some (.counting, taskMeta)
  | _ => none

/-- The id of a call that has taken one and not yet queued or refused it. -/
def Call.inFlight? (call : Call) : Option Nat :=
  match call.pc with
  | .testing => some call.id
  | _ => none

namespace ThreadPoolState

variable (s : ThreadPoolState ρ)

/-- The tasks popped by workers and not yet counted. -/
def runningTasks : List (Stage × TaskMeta) := s.workers.filterMap WorkerPc.stage?

/-- The ids taken by `add_task` calls that have neither queued nor refused them. -/
def inFlightIds : List Nat := s.calls.filterMap Call.inFlight?

/-- Where every id is, and what happened. -/
def ledger : Ledger ρ where
  issued := s.tasksLastId
  inFlight := s.inFlightIds
  queue := s.tasks.map Prod.snd
  running := s.runningTasks
  log := s.log

variable {s} {s' : ThreadPoolState ρ}

/-- What the ledger is read from. -/
theorem ledger_congr (hid : s'.tasksLastId = s.tasksLastId)
    (hcalls : s'.inFlightIds = s.inFlightIds) (htasks : s'.tasks = s.tasks)
    (hworkers : s'.runningTasks = s.runningTasks) (hlog : s'.log = s.log) :
    s'.ledger = s.ledger := by
  simp only [ledger, hid, hcalls, htasks, hworkers, hlog]

/-- A worker that stays at its stage leaves the ledger as it is. -/
theorem ledger_setWorker {w : Nat} {pc pc' : WorkerPc ρ} (hw : s.workers[w]? = some pc)
    (hpc : pc'.stage? = pc.stage?) : (s.setWorker w pc').ledger = s.ledger :=
  ledger_congr rfl rfl rfl (filterMap_set_of_eq hw hpc) rfl

/-- A call that keeps its task leaves the ledger as it is. -/
theorem ledger_setCall {c : Nat} {call call' : Call} (hc : s.calls[c]? = some call)
    (hpc : call'.inFlight? = call.inFlight?) : (s.setCall c call').ledger = s.ledger :=
  ledger_congr rfl (filterMap_set_of_eq hc hpc) rfl rfl rfl

/-- A notification leaves the ledger as it is. -/
theorem ledger_notifyOne (choice : Nat) : (s.notifyOne choice).ledger = s.ledger := by
  rcases s.notifyOne_cases choice with ⟨h, -⟩ | ⟨w, hw, h⟩
  · rw [h]
  · rw [h]
    exact ledger_setWorker hw rfl

/-- Notifying all workers leaves the ledger as it is. -/
theorem ledger_notifyAllWorkers : s.notifyAllWorkers.ledger = s.ledger := by
  refine ledger_congr rfl rfl rfl (filterMap_map_of_eq fun pc => ?_) rfl
  cases pc <;> rfl

/-- A multiset of at most one element determines the list. -/
theorem eq_toList_of_coe_eq {α : Type*} {l : List α} {o : Option α}
    (h : (l : Multiset α) = o.toList) : l = o.toList := by
  rw [Multiset.coe_eq_coe] at h
  cases o with
  | none => exact h.eq_nil
  | some a => exact List.perm_singleton.mp h

/-- While a call holds `tasks_mutex_`, no other call has an id in flight. -/
theorem Exclusive.inFlightIds_eq (h : s.Exclusive) {c : Nat} {call : Call}
    (hc : s.calls[c]? = some call) (hold : call.pc.holdsMutex = true) :
    s.inFlightIds = call.inFlight?.toList ∧
      ∀ call' : Call, (s.calls.set c call').filterMap Call.inFlight? = call'.inFlight?.toList := by
  have hothers : (s.calls.set c ⟨false, false, 0, false, .locking⟩).filterMap Call.inFlight? =
      [] := by
    rw [List.filterMap_eq_nil_iff]
    intro call' hmem
    obtain ⟨d, hd⟩ := List.getElem?_of_mem hmem
    by_cases hdc : d = c
    · subst hdc
      obtain ⟨hlt, -⟩ := List.getElem?_eq_some_iff.mp hc
      obtain rfl := (by simpa [hlt] using hd : (⟨_, _, _, _, _⟩ : Call) = call')
      rfl
    · rw [List.getElem?_set_ne (Ne.symm hdc)] at hd
      have hcm := (h (.call c)).mp ((holds_call hc).trans hold)
      have hfree : call'.pc ≠ .testing := fun hpc => by
        have hdm := (h (.call d)).mp (by rw [holds_call hd, hpc]; rfl)
        exact hdc (by simpa using hdm.symm.trans hcm)
      unfold Call.inFlight?
      split
      · exact absurd ‹_› hfree
      · rfl
  obtain ⟨rest, heq, hset⟩ := exists_focus Call.inFlight? hc
  have hrest := hset ⟨false, false, 0, false, .locking⟩
  rw [hothers] at hrest
  obtain rfl : rest = 0 := by simpa [Call.inFlight?] using hrest.symm
  simp only [add_zero] at heq hset
  exact ⟨eq_toList_of_coe_eq heq, fun call' => eq_toList_of_coe_eq (hset call')⟩

/-- **Every step of the pool is a move of its ledger or leaves the ledger alone.** -/
theorem ledger_transition {a : Action ρ} (h : s.Exclusive) (hs : Transition s a s') :
    s'.ledger = s.ledger ∨ Ledger.Step s.ledger s'.ledger := by
  cases hs with
  | addTask cb isVoid =>
      exact .inl (ledger_congr rfl (by simp [inFlightIds, Call.inFlight?]) rfl rfl rfl)
  | callLock c choice call hc hpc hfree =>
      exact .inl (ledger_setCall (s := s.setMutex _) hc (by simp [Call.inFlight?, hpc]))
  | callIssue c choice call hc hpc =>
      obtain ⟨heq, hset⟩ := h.inFlightIds_eq hc (by rw [hpc]; rfl)
      have hfree : s.ledger.inFlight = 0 := by simp [ledger, heq, Call.inFlight?, hpc]
      have hfly := hset { call with id := s.tasksLastId, pc := .testing }
      refine .inr (cast (congrArg _ ?_) (Ledger.Step.issue s.ledger hfree))
      simp [ledger, emit, setCall, runningTasks, inFlightIds, hfly, Call.inFlight?]
  | callAccept c choice call hc hpc hroom =>
      obtain ⟨heq, hset⟩ := h.inFlightIds_eq hc (by rw [hpc]; rfl)
      have hfly : s.ledger.inFlight = {call.taskMeta.id} := by
        simp [ledger, heq, Call.inFlight?, hpc, Call.taskMeta]
      have hdone := hset { call with pc := .leaving }
      rw [ledger_notifyOne]
      refine .inr (cast (congrArg _ ?_) (Ledger.Step.accept s.ledger call.taskMeta hfly))
      simp [ledger, emit, setCall, runningTasks, inFlightIds, hdone, Call.inFlight?]
  | callRefuse c choice call hc hpc hfull =>
      obtain ⟨heq, hset⟩ := h.inFlightIds_eq hc (by rw [hpc]; rfl)
      have hfly : s.ledger.inFlight = {call.id} := by
        simp [ledger, heq, Call.inFlight?, hpc]
      have hdone := hset { call with refused := true, pc := .leaving }
      refine .inr (cast (congrArg _ ?_) (Ledger.Step.refuse s.ledger call.id hfly))
      simp [ledger, emit, setCall, runningTasks, inFlightIds, hdone, Call.inFlight?]
  | callUnlock c choice call hc hpc =>
      exact .inl (ledger_setCall (s := s.setMutex _) hc (by simp [Call.inFlight?, hpc]))
  | callReport c choice call hc hpc =>
      exact .inl (ledger_setCall hc (by simp [Call.inFlight?, hpc]))
  | callReturn c choice call hc hpc =>
      exact .inl (ledger_setCall hc (by simp [Call.inFlight?, hpc]))
  | callReturnNull c choice call hc hpc =>
      exact .inl (ledger_setCall hc (by simp [Call.inFlight?, hpc]))
  | workerLoop w outcome hw => exact .inl (ledger_setWorker hw (by split <;> rfl))
  | workerLock w outcome pc hw hpc hfree =>
      exact .inl (ledger_setWorker (s := s.setMutex _) hw (by rcases hpc with rfl | rfl <;> rfl))
  | workerCheck w outcome hw => exact .inl (ledger_setWorker hw (by split <;> rfl))
  | workerSleep w outcome hw => exact .inl (ledger_setWorker (s := s.setMutex _) hw rfl)
  | workerStart w outcome task taskMeta rest hw htasks hstop =>
      obtain ⟨others, heq, hset⟩ := exists_focus WorkerPc.stage? hw
      have hq : s.ledger.queue = taskMeta :: rest.map Prod.snd := by simp [ledger, htasks]
      have hold : (s.runningTasks : Multiset (Stage × TaskMeta)) = others := by
        rw [runningTasks, heq]
        exact zero_add others
      have hnew := hset (.running task taskMeta)
      refine .inr (cast (congrArg _ ?_) (Ledger.Step.start s.ledger taskMeta _ hq))
      simp only [ledger, emit, setWorker, setMutex, runningTasks, inFlightIds, hnew] at hold ⊢
      simp [hold, WorkerPc.stage?]
  | workerSkip w outcome hw => exact .inl (ledger_setWorker hw rfl)
  | workerRun w outcome task taskMeta hw =>
      obtain ⟨others, heq, hset⟩ := exists_focus WorkerPc.stage? hw
      have hnew := hset (.ran (task.run outcome) taskMeta)
      refine .inr (cast (congrArg _ ?_)
        (Ledger.Step.finish s.ledger taskMeta outcome.hasThrown others heq))
      simp only [ledger, emit, setWorker, runningTasks, inFlightIds, hnew]
      rfl
  | workerCallback w outcome task taskMeta hw hcb =>
      obtain ⟨others, heq, hset⟩ := exists_focus WorkerPc.stage? hw
      have hnew := hset (.counting taskMeta)
      refine .inr (cast (congrArg _ ?_)
        (Ledger.Step.callback s.ledger taskMeta task.getResult others heq hcb))
      simp only [ledger, emit, setWorker, runningTasks, inFlightIds, hnew]
      rfl
  | workerNoCallback w outcome task taskMeta hw hcb =>
      obtain ⟨others, heq, hset⟩ := exists_focus WorkerPc.stage? hw
      have hnew := hset (.counting taskMeta)
      refine .inr (cast (congrArg _ ?_)
        (Ledger.Step.noCallback s.ledger taskMeta others heq hcb))
      simp only [ledger, setWorker, runningTasks, inFlightIds, hnew]
      rfl
  | workerCount w outcome taskMeta hw =>
      obtain ⟨others, heq, hset⟩ := exists_focus WorkerPc.stage? hw
      have hnew := hset (.notifying false)
      refine .inr (cast (congrArg _ ?_) (Ledger.Step.complete s.ledger taskMeta others heq))
      simp only [ledger, emit, setWorker, runningTasks, inFlightIds, hnew]
      simp [WorkerPc.stage?]
  | workerNotify w outcome locked hw =>
      exact .inl (ledger_setWorker (s := s.notifyAllWaiters) hw (by cases locked <;> rfl))
  | workerUnlock w outcome hw => exact .inl (ledger_setWorker (s := s.setMutex _) hw rfl)
  | stopNotify => exact .inl (ledger_notifyAllWorkers (s := s))
  | spuriousWorker w hw => exact .inl (ledger_setWorker hw rfl)
  | _ => exact .inl rfl

/-- The log only grows. -/
theorem log_transition {a : Action ρ} (hs : Transition s a s') : s.log <+: s'.log := by
  cases hs with
  | callAccept c choice call hc hpc hlt =>
      rw [notifyOne_log]
      exact List.prefix_append _ _
  | callIssue | callRefuse | workerStart | workerRun | workerCallback | workerCount =>
      exact List.prefix_append _ _
  | _ => exact List.prefix_refl _

/-! ## The counters -/

/-- The counters are the lengths of the log's views, and the queue has room for its tasks. -/
structure Counted (cap : Nat) (s : ThreadPoolState ρ) : Prop where
  completed_eq : s.tasksCompletedCount = s.ledger.completed.length
  refused_eq : s.tasksRefusedCount = s.ledger.refused.length
  issued_eq : s.log.filterMap Event.issued? = List.range s.tasksLastId
  capacity : s.tasksMaxCapacity = cap
  room : s.tasks.length ≤ cap

/-- The counters and the ledger still agree after a notification. -/
theorem Counted.notifyOne {cap : Nat} (h : s.Counted cap) (choice : Nat) :
    (s.notifyOne choice).Counted cap := by
  rcases s.notifyOne_cases choice with ⟨heq, -⟩ | ⟨w, -, heq⟩ <;> rw [heq]
  · exact h
  · exact ⟨h.completed_eq, h.refused_eq, h.issued_eq, h.capacity, h.room⟩

/-- An event that no counter counts. -/
theorem Counted.emit {cap : Nat} (h : s.Counted cap) (e : Event ρ) (hc : e.completed? = none)
    (hr : e.refused? = none) (hi : e.issued? = none) : (s.emit e).Counted cap := by
  obtain ⟨hcomp, href, hiss, hcap, hroom⟩ := h
  simp only [ledger, Ledger.completed, Ledger.refused] at hcomp href
  refine ⟨?_, ?_, ?_, hcap, hroom⟩ <;>
    simp [ThreadPoolState.emit, ledger, Ledger.completed, Ledger.refused, hc, hr, hi, hcomp, href,
      hiss]

/-- Every step keeps the counters. -/
theorem Counted.transition {cap : Nat} {a : Action ρ} (h : s.Counted cap)
    (hs : Transition s a s') : s'.Counted cap := by
  obtain ⟨hcomp, href, hiss, hcap, hroom⟩ := h
  simp only [ledger, Ledger.completed, Ledger.refused] at hcomp href
  cases hs with
  | callIssue c choice call hc hpc =>
      refine ⟨?_, ?_, ?_, hcap, hroom⟩ <;>
        simp [ledger, Ledger.completed, Ledger.refused, ThreadPoolState.emit, setCall,
          List.filterMap_cons, Event.completed?, Event.refused?, Event.issued?, hcomp, href, hiss,
          List.range_succ]
  | callAccept c choice call hc hpc hlt =>
      have hmoved : ({ s with tasks := s.tasks ++ [(call.task, call.taskMeta)] }.setCall c
          { call with pc := .leaving }).Counted cap := by
        refine ⟨hcomp, href, hiss, hcap, ?_⟩
        simp only [setCall, List.length_append, List.length_singleton]
        omega
      exact (hmoved.emit (.accepted call.taskMeta) rfl rfl rfl).notifyOne choice
  | callRefuse c choice call hc hpc hfull =>
      refine ⟨?_, ?_, ?_, hcap, hroom⟩ <;>
        simp [ledger, Ledger.completed, Ledger.refused, ThreadPoolState.emit, setCall,
          List.filterMap_cons, Event.completed?, Event.refused?, Event.issued?, hcomp, href, hiss]
  | workerStart w outcome task taskMeta rest hw htasks hstop =>
      rw [htasks, List.length_cons] at hroom
      have hpopped : (({ s with tasks := rest }.setMutex none).setWorker w
          (.running task taskMeta)).Counted cap :=
        ⟨hcomp, href, hiss, hcap, (Nat.le_succ rest.length).trans hroom⟩
      exact hpopped.emit (.started taskMeta) rfl rfl rfl
  | workerRun w outcome task taskMeta hw =>
      have hmoved : (s.setWorker w (.ran (task.run outcome) taskMeta)).Counted cap :=
        ⟨hcomp, href, hiss, hcap, hroom⟩
      exact hmoved.emit (.ended taskMeta outcome.hasThrown) rfl rfl rfl
  | workerCallback w outcome task taskMeta hw hcb =>
      have hmoved : (s.setWorker w (.counting taskMeta)).Counted cap :=
        ⟨hcomp, href, hiss, hcap, hroom⟩
      exact hmoved.emit (.callback taskMeta.id task.getResult) rfl rfl rfl
  | workerCount w outcome taskMeta hw =>
      refine ⟨?_, ?_, ?_, hcap, hroom⟩ <;>
        simp [ledger, Ledger.completed, Ledger.refused, ThreadPoolState.emit, setWorker,
          List.filterMap_cons, Event.completed?, Event.refused?, Event.issued?, hcomp, href, hiss]
  | _ => exact ⟨hcomp, href, hiss, hcap, hroom⟩

/-! ## Every reachable state -/

/-- The run invariant of the pool. -/
structure Accounted (cap : Nat) (s : ThreadPoolState ρ) : Prop where
  exclusive : s.Exclusive
  ok : s.ledger.Ok
  counted : s.Counted cap

/-- A new pool has accounted for everything: there is nothing. -/
theorem accounted_new (threadsCount cap : Nat) :
    (new threadsCount cap : ThreadPoolState ρ).Accounted cap where
  exclusive agent := by
    cases agent with
    | call c => simp [holds, new]
    | worker w =>
        simp only [holds, new, List.getElem?_replicate]
        split <;> simp [WorkerPc.holdsMutex]
  ok := by
    convert Ledger.Ok.empty (ρ := ρ)
    simp only [ledger, new, inFlightIds, runningTasks, List.filterMap_nil, List.map_nil,
      Ledger.empty, Ledger.mk.injEq, true_and, and_true]
    refine ⟨rfl, ?_⟩
    rw [List.filterMap_eq_nil_iff.mpr]
    · rfl
    · intro pc hpc
      rw [List.eq_of_mem_replicate hpc]
      rfl
  counted := ⟨rfl, rfl, rfl, rfl, Nat.zero_le _⟩

/-- The books are kept along every run. -/
theorem accounted_invariant (threadsCount cap : Nat) :
    (ThreadPool ρ threadsCount cap).Invariant (Accounted cap) where
  init s hs := hs ▸ accounted_new threadsCount cap
  step s a s' _ h hstep := by
    have ht := transition_of_next hstep
    refine ⟨h.exclusive.transition ht, ?_, h.counted.transition ht⟩
    rcases ledger_transition h.exclusive ht with heq | hmove
    · exact heq ▸ h.ok
    · exact h.ok.step hmove

end ThreadPoolState

/-- One worker and room for one task: the first task is accepted, the second is refused, and the
body of the first throws. -/
def sampleRun : List (Action Nat) :=
  [.addTask true false, .callStep 0 0, .callStep 0 0, .callStep 0 0, .callStep 0 0, .callStep 0 0,
    .addTask false false, .callStep 1 0, .callStep 1 0, .callStep 1 0, .callStep 1 0,
    .workerStep 0 .threw, .workerStep 0 .threw, .workerStep 0 .threw, .workerStep 0 .threw,
    .workerStep 0 .threw, .workerStep 0 .threw, .workerStep 0 .threw, .callStep 1 0]

/-- The state `sampleRun` leads to. -/
def sampleState : ThreadPoolState Nat :=
  (System.runFrom ThreadPoolState.next (.new 1 1) sampleRun).getD (.new 1 1)

/-- A run with two tasks, of which the second is refused. -/
theorem sampleState_reachable : (ThreadPool Nat 1 1).Reachable sampleState :=
  System.Reachable.runFrom sampleRun (.init rfl) rfl

end SocialNetwork.Threads
