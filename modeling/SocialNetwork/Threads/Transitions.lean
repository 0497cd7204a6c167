import SocialNetwork.Threads.ThreadPool

/-!
# What one step of a thread pool can do

`Transition` lists the steps of the pool, one constructor for each, with the guard it needs and the
state it leads to. `transition_of_next` is the inversion lemma of `ThreadPoolState.next`: every
invariant is derived from the constructors and none unfolds the step functions. The second part of
the file is about the lists of workers and calls under the updates that occur there.
-/

namespace SocialNetwork.Threads

open Foundation

variable {ρ : Type}

namespace ThreadPoolState

/-- The steps of the pool. -/
inductive Transition (s : ThreadPoolState ρ) : Action ρ → ThreadPoolState ρ → Prop
  | addTask (cb isVoid : Bool) :
      Transition s (.addTask cb isVoid)
        { s with calls := s.calls ++ [⟨cb, isVoid, 0, false, .locking⟩] }
  | callLock (c choice : Nat) (call : Call) : s.calls[c]? = some call → call.pc = .locking →
      s.tasksMutex = none →
      Transition s (.callStep c choice)
        ((s.setMutex (some (.call c))).setCall c { call with pc := .locked })
  | callIssue (c choice : Nat) (call : Call) : s.calls[c]? = some call → call.pc = .locked →
      Transition s (.callStep c choice)
        (({ s with tasksLastId := s.tasksLastId + 1 }.setCall c
          { call with id := s.tasksLastId, pc := .testing }).emit (.issued s.tasksLastId))
  | callAccept (c choice : Nat) (call : Call) : s.calls[c]? = some call → call.pc = .testing →
      s.tasks.length < s.tasksMaxCapacity →
      Transition s (.callStep c choice)
        ((({ s with tasks := s.tasks ++ [(call.task, call.taskMeta)] }.setCall c
          { call with pc := .leaving }).emit (.accepted call.taskMeta)).notifyOne choice)
  | callRefuse (c choice : Nat) (call : Call) : s.calls[c]? = some call → call.pc = .testing →
      ¬s.tasks.length < s.tasksMaxCapacity →
      Transition s (.callStep c choice)
        (({ s with tasksRefusedCount := s.tasksRefusedCount + 1 }.setCall c
          { call with refused := true, pc := .leaving }).emit (.refused call.id))
  | callUnlock (c choice : Nat) (call : Call) : s.calls[c]? = some call → call.pc = .leaving →
      Transition s (.callStep c choice) ((s.setMutex none).setCall c { call with pc := .deciding })
  | callReport (c choice : Nat) (call : Call) : s.calls[c]? = some call → call.pc = .deciding →
      (call.refused && call.cb) = true →
      Transition s (.callStep c choice) (s.setCall c { call with pc := .refusing })
  | callReturn (c choice : Nat) (call : Call) : s.calls[c]? = some call → call.pc = .deciding →
      (call.refused && call.cb) = false →
      Transition s (.callStep c choice) (s.setCall c { call with pc := .returned (some call.id) })
  | callReturnNull (c choice : Nat) (call : Call) : s.calls[c]? = some call →
      call.pc = .refusing →
      Transition s (.callStep c choice) (s.setCall c { call with pc := .returned none })
  | workerLoop (w : Nat) (outcome : Outcome ρ) : s.workers[w]? = some .loop →
      Transition s (.workerStep w outcome)
        (s.setWorker w (if s.threadsStop then .exited else .locking))
  | workerLock (w : Nat) (outcome : Outcome ρ) (pc : WorkerPc ρ) : s.workers[w]? = some pc →
      pc = .locking ∨ pc = .notified → s.tasksMutex = none →
      Transition s (.workerStep w outcome)
        ((s.setMutex (some (.worker w))).setWorker w .checking)
  | workerCheck (w : Nat) (outcome : Outcome ρ) : s.workers[w]? = some .checking →
      Transition s (.workerStep w outcome)
        (s.setWorker w (if !s.tasks.isEmpty || s.threadsStop then .awake else .falling))
  | workerSleep (w : Nat) (outcome : Outcome ρ) : s.workers[w]? = some .falling →
      Transition s (.workerStep w outcome) ((s.setMutex none).setWorker w .asleep)
  | workerStart (w : Nat) (outcome : Outcome ρ) (task : PooledTask ρ) (taskMeta : TaskMeta)
      (rest : List (PooledTask ρ × TaskMeta)) : s.workers[w]? = some .awake →
      s.tasks = (task, taskMeta) :: rest → s.threadsStop = false →
      Transition s (.workerStep w outcome)
        ((({ s with tasks := rest }.setMutex none).setWorker w
          (.running task taskMeta)).emit (.started taskMeta))
  | workerSkip (w : Nat) (outcome : Outcome ρ) : s.workers[w]? = some .awake →
      s.tasks = [] ∨ s.threadsStop = true →
      Transition s (.workerStep w outcome) (s.setWorker w (.notifying true))
  | workerRun (w : Nat) (outcome : Outcome ρ) (task : PooledTask ρ) (taskMeta : TaskMeta) :
      s.workers[w]? = some (.running task taskMeta) →
      Transition s (.workerStep w outcome)
        ((s.setWorker w (.ran (task.run outcome) taskMeta)).emit
          (.ended taskMeta outcome.hasThrown))
  | workerCallback (w : Nat) (outcome : Outcome ρ) (task : PooledTask ρ) (taskMeta : TaskMeta) :
      s.workers[w]? = some (.ran task taskMeta) → taskMeta.cb = true →
      Transition s (.workerStep w outcome)
        ((s.setWorker w (.counting taskMeta)).emit (.callback taskMeta.id task.getResult))
  | workerNoCallback (w : Nat) (outcome : Outcome ρ) (task : PooledTask ρ) (taskMeta : TaskMeta) :
      s.workers[w]? = some (.ran task taskMeta) → taskMeta.cb = false →
      Transition s (.workerStep w outcome) (s.setWorker w (.counting taskMeta))
  | workerCount (w : Nat) (outcome : Outcome ρ) (taskMeta : TaskMeta) :
      s.workers[w]? = some (.counting taskMeta) →
      Transition s (.workerStep w outcome)
        (({ s with tasksCompletedCount := s.tasksCompletedCount + 1 }.setWorker w
          (.notifying false)).emit (.completed taskMeta))
  | workerNotify (w : Nat) (outcome : Outcome ρ) (locked : Bool) :
      s.workers[w]? = some (.notifying locked) →
      Transition s (.workerStep w outcome)
        (s.notifyAllWaiters.setWorker w (if locked then .releasing else .loop))
  | workerUnlock (w : Nat) (outcome : Outcome ρ) : s.workers[w]? = some .releasing →
      Transition s (.workerStep w outcome) ((s.setMutex none).setWorker w .loop)
  | waitAll : Transition s .waitAll { s with waiters := s.waiters ++ [⟨.locking, s.returnedIds⟩] }
  | waiterLock (i : Nat) (waiter : Waiter) : s.waiters[i]? = some waiter →
      waiter.pc = .locking ∨ waiter.pc = .notified → s.taskResultsAllMutex = none →
      Transition s (.waiterStep i)
        ({ s with taskResultsAllMutex := some i }.setWaiter i .readCompleted)
  | waiterReadCompleted (i : Nat) (waiter : Waiter) : s.waiters[i]? = some waiter →
      waiter.pc = .readCompleted →
      Transition s (.waiterStep i) (s.setWaiter i (.readRefused s.tasksCompletedCount))
  | waiterReadRefused (i : Nat) (waiter : Waiter) (completed : Nat) :
      s.waiters[i]? = some waiter → waiter.pc = .readRefused completed →
      Transition s (.waiterStep i) (s.setWaiter i (.readLastId completed s.tasksRefusedCount))
  | waiterReadLastId (i : Nat) (waiter : Waiter) (completed refused : Nat) :
      s.waiters[i]? = some waiter → waiter.pc = .readLastId completed refused →
      Transition s (.waiterStep i)
        (s.setWaiter i (if completed + refused = s.tasksLastId then .leaving else .falling))
  | waiterSleep (i : Nat) (waiter : Waiter) : s.waiters[i]? = some waiter →
      waiter.pc = .falling →
      Transition s (.waiterStep i) ({ s with taskResultsAllMutex := none }.setWaiter i .asleep)
  | waiterReturn (i : Nat) (waiter : Waiter) : s.waiters[i]? = some waiter →
      waiter.pc = .leaving →
      Transition s (.waiterStep i) ({ s with taskResultsAllMutex := none }.setWaiter i .returned)
  | stop : s.dtor = .idle → Transition s .dtorStep { s with threadsStop := true, dtor := .stopped }
  | stopNotify : s.dtor = .stopped →
      Transition s .dtorStep { s.notifyAllWorkers with dtor := .joining 0 }
  | join (serial : Nat) : s.dtor = .joining serial → s.workers[serial]? = some .exited →
      Transition s .dtorStep { s with dtor := .joining (serial + 1) }
  | spuriousWorker (w : Nat) : s.workers[w]? = some .asleep →
      Transition s (.spuriousWorker w) (s.setWorker w .notified)
  | spuriousWaiter (i : Nat) (waiter : Waiter) : s.waiters[i]? = some waiter →
      waiter.pc = .asleep → Transition s (.spuriousWaiter i) (s.setWaiter i .notified)

variable {s s' : ThreadPoolState ρ}

/-- A step of a call is a transition. -/
theorem callStep_transition {c choice : Nat} (h : s.callStep c choice = some s') :
    Transition s (.callStep c choice) s' := by
  unfold callStep at h
  cases hc : s.calls[c]? with
  | none => simp [hc] at h
  | some call =>
      cases hpc : call.pc <;> simp only [hc, hpc] at h
      case locking =>
        split at h
        · cases h; exact .callLock c choice call hc hpc ‹_›
        · cases h
      case locked => cases h; exact .callIssue c choice call hc hpc
      case testing =>
        split at h
        · cases h; exact .callAccept c choice call hc hpc ‹_›
        · cases h; exact .callRefuse c choice call hc hpc ‹_›
      case leaving => cases h; exact .callUnlock c choice call hc hpc
      case deciding =>
        split at h <;> rename_i hreport <;> cases h
        · exact .callReport c choice call hc hpc hreport
        · exact .callReturn c choice call hc hpc (by simpa using hreport)
      case refusing => cases h; exact .callReturnNull c choice call hc hpc
      case returned => cases h

/-- A step of a worker is a transition. -/
theorem workerStep_transition {w : Nat} {outcome : Outcome ρ}
    (h : s.workerStep w outcome = some s') : Transition s (.workerStep w outcome) s' := by
  unfold workerStep at h
  cases hw : s.workers[w]? with
  | none => simp [hw] at h
  | some pc =>
      cases pc <;> simp only [hw] at h
      case loop => cases h; exact .workerLoop w outcome hw
      case locking =>
        split at h
        · cases h; exact .workerLock w outcome _ hw (.inl rfl) ‹_›
        · cases h
      case checking => cases h; exact .workerCheck w outcome hw
      case falling => cases h; exact .workerSleep w outcome hw
      case asleep => cases h
      case notified =>
        split at h
        · cases h; exact .workerLock w outcome _ hw (.inr rfl) ‹_›
        · cases h
      case awake =>
        split at h <;> rename_i htasks
        · split at h <;> rename_i hstop <;> cases h
          · exact .workerStart w outcome _ _ _ hw htasks (by simpa using hstop)
          · exact .workerSkip w outcome hw (.inr (by simpa using hstop))
        · cases h; exact .workerSkip w outcome hw (.inl htasks)
      case running => cases h; exact .workerRun w outcome _ _ hw
      case ran =>
        split at h <;> rename_i hcb <;> cases h
        · exact .workerCallback w outcome _ _ hw hcb
        · exact .workerNoCallback w outcome _ _ hw (by simpa using hcb)
      case counting => cases h; exact .workerCount w outcome _ hw
      case notifying => cases h; exact .workerNotify w outcome _ hw
      case releasing => cases h; exact .workerUnlock w outcome hw
      case exited => cases h

/-- A step of a waiter is a transition. -/
theorem waiterStep_transition {i : Nat} (h : s.waiterStep i = some s') :
    Transition s (.waiterStep i) s' := by
  unfold waiterStep at h
  cases hi : s.waiters[i]? with
  | none => simp [hi] at h
  | some waiter =>
      cases hpc : waiter.pc <;> simp only [hi, hpc] at h
      case locking =>
        split at h
        · cases h; exact .waiterLock i waiter hi (.inl hpc) ‹_›
        · cases h
      case readCompleted => cases h; exact .waiterReadCompleted i waiter hi hpc
      case readRefused => cases h; exact .waiterReadRefused i waiter _ hi hpc
      case readLastId => cases h; exact .waiterReadLastId i waiter _ _ hi hpc
      case falling => cases h; exact .waiterSleep i waiter hi hpc
      case asleep => cases h
      case notified =>
        split at h
        · cases h; exact .waiterLock i waiter hi (.inr hpc) ‹_›
        · cases h
      case leaving => cases h; exact .waiterReturn i waiter hi hpc
      case returned => cases h

/-- A step of the destructor is a transition. -/
theorem dtorStep_transition (h : s.dtorStep = some s') : Transition s .dtorStep s' := by
  unfold dtorStep at h
  cases hd : s.dtor with
  | idle =>
      simp only [hd] at h
      cases h; exact .stop hd
  | stopped =>
      simp only [hd] at h
      cases h; exact .stopNotify hd
  | joining serial =>
      simp only [hd] at h
      split at h
      · cases h; exact .join serial hd ‹_›
      · cases h

/-- **Every step is one of the listed ones.** -/
theorem transition_of_next {a : Action ρ} (h : s.next a = some s') : Transition s a s' := by
  cases a with
  | addTask cb isVoid => cases h; exact .addTask cb isVoid
  | callStep c choice => exact callStep_transition h
  | workerStep w outcome => exact workerStep_transition h
  | waitAll => cases h; exact .waitAll
  | waiterStep i => exact waiterStep_transition h
  | dtorStep => exact dtorStep_transition h
  | spuriousWorker w =>
      simp only [next] at h
      split at h
      · cases h; exact .spuriousWorker w ‹_›
      · cases h
  | spuriousWaiter i =>
      simp only [next] at h
      split at h
      · split at h
        · cases h; exact .spuriousWaiter i _ ‹_› ‹_›
        · cases h
      · cases h

end ThreadPoolState

end SocialNetwork.Threads
