import SocialNetwork.Foundation.Runs
import Mathlib.Data.List.Basic

/-!
# `ThreadPool`

The model of `thread_pool.h` and `thread_pool.cpp` as an interleaving of atomic steps of four kinds
of threads: workers (`ThreadPool::run`), submitters (`add_task`), waiters (`wait_all`) and the
destructor. A step is one access to a mutex, one access to an atomic, one evaluation of a wait
predicate under its mutex, one wait or wake-up on a condition variable, or one run of a task body
or a callback. Both mutexes are explicit, so nothing is assumed to be atomic because it sits in a
critical section, with one exception: `tasks_.emplace` and the `notify_one` that follows it under
`tasks_mutex_` are one step, since no other thread can touch `tasks_` or go to sleep in between.

* Going to sleep on a condition variable is the separate step that releases the mutex, so a
  notification can fall between the evaluation of the predicate and the sleep.
* Spurious wake-ups are steps of their own.
* A task body returns a value or throws a `std::exception`; callbacks return.
* Counters and ids are natural numbers: they are 64-bit in the code and would wrap after `2^64`
  submissions.

`ThreadPoolState.log` and `Waiter.before` are ghosts: no step reads them.
-/

namespace SocialNetwork.Threads

open Foundation

variable {ρ : Type}

/-! ## Tasks -/

/-- How a task body ends: it returns a value or throws a `std::exception`. -/
inductive Outcome (ρ : Type)
  | returned (value : ρ)
  | threw
  deriving DecidableEq, Repr

/-- Whether the body threw. -/
def Outcome.hasThrown : Outcome ρ → Bool
  | .threw => true
  | .returned _ => false

/-- `PooledTask`: whether the bound function returns `void`, and the `std::any` that
`operator()` has stored (`none` is the empty one). -/
structure PooledTask (ρ : Type) where
  isVoid : Bool
  result : Option ρ
  deriving DecidableEq, Repr

/-- `PooledTask::operator()`. An exception leaves `result` as it was; the dummy `any_func` of a
`void` task stores a value that `get_result` never shows. -/
def PooledTask.run (task : PooledTask ρ) : Outcome ρ → PooledTask ρ
  | .returned value => if task.isVoid then task else { task with result := some value }
  | .threw => task

/-- `PooledTask::get_result`. -/
def PooledTask.getResult (task : PooledTask ρ) : Option ρ :=
  if task.isVoid then none else task.result

/-- `ThreadPool::TaskMeta`: the id, and whether the completion callback is non-null. -/
structure TaskMeta where
  id : Nat
  cb : Bool
  deriving DecidableEq, Repr

/-- What happened to tasks, in order. -/
inductive Event (ρ : Type)
  /-- A call of `add_task` took the id. -/
  | issued (id : Nat)
  /-- The task was put into `tasks_`. -/
  | accepted (task : TaskMeta)
  /-- The submission was counted in `tasks_refused_count`. -/
  | refused (id : Nat)
  /-- A worker popped the task. -/
  | started (task : TaskMeta)
  /-- Its body ended, with or without an exception. -/
  | ended (task : TaskMeta) (threw : Bool)
  /-- Its worker invoked its completion callback. -/
  | callback (id : Nat) (result : Option ρ)
  /-- Its completion was counted in `tasks_completed_count`. -/
  | completed (task : TaskMeta)
  deriving DecidableEq, Repr

/-! ## Threads -/

/-- Where a worker is in `ThreadPool::run`. -/
inductive WorkerPc (ρ : Type)
  /-- At `while (!threads_stop_)`. -/
  | loop
  /-- At the constructor of `lock`. -/
  | locking
  /-- With `tasks_mutex_`, about to evaluate the wait predicate. -/
  | checking
  /-- The predicate was false; with `tasks_mutex_`, about to block. -/
  | falling
  /-- Blocked on `tasks_condition_`. -/
  | asleep
  /-- Woken, about to take `tasks_mutex_` again. -/
  | notified
  /-- The predicate was true; with `tasks_mutex_`, at the `if`. -/
  | awake
  /-- Popped a task, about to run its body. -/
  | running (task : PooledTask ρ) (taskMeta : TaskMeta)
  /-- The body has ended, about to invoke the callback. -/
  | ran (task : PooledTask ρ) (taskMeta : TaskMeta)
  /-- About to count the completion. -/
  | counting (taskMeta : TaskMeta)
  /-- At `task_results_all_condition_.notify_all()`, with or without `tasks_mutex_`. -/
  | notifying (locked : Bool)
  /-- At the destructor of `lock`. -/
  | releasing
  /-- Left the loop. -/
  | exited
  deriving DecidableEq, Repr

/-- Blocked on `tasks_condition_` and not notified. -/
def WorkerPc.isAsleep : WorkerPc ρ → Bool
  | .asleep => true
  | _ => false

/-- What `notify_all` does to a worker. -/
def WorkerPc.notify : WorkerPc ρ → WorkerPc ρ
  | .asleep => .notified
  | pc => pc

/-- Where a call of `add_task` is. -/
inductive CallPc
  /-- At the constructor of `lock`. -/
  | locking
  /-- With `tasks_mutex_`, about to take an id. -/
  | locked
  /-- With `tasks_mutex_` and an id, at the test of the queue's size. -/
  | testing
  /-- With `tasks_mutex_`, at the destructor of `lock`. -/
  | leaving
  /-- At `if (refused && cb)`. -/
  | deciding
  /-- About to invoke `cb({})`. -/
  | refusing
  /-- Returned `std::nullopt` or an id. -/
  | returned (result : Option Nat)
  deriving DecidableEq, Repr

/-- A call of `add_task`: what its caller passed and its locals. -/
structure Call where
  cb : Bool
  isVoid : Bool
  id : Nat
  refused : Bool
  pc : CallPc
  deriving DecidableEq, Repr

/-- The `TaskMeta` that the call puts into `tasks_`. -/
def Call.taskMeta (call : Call) : TaskMeta := ⟨call.id, call.cb⟩

/-- The `PooledTask` that the call puts into `tasks_`. -/
def Call.task (call : Call) : PooledTask ρ := ⟨call.isVoid, none⟩

/-- Where a call of `wait_all` is. The wait predicate reads the three counters in source order. -/
inductive WaiterPc
  /-- About to take `task_results_all_mutex_`. -/
  | locking
  /-- About to read `tasks_completed_count`. -/
  | readCompleted
  /-- About to read `tasks_refused_count`. -/
  | readRefused (completed : Nat)
  /-- About to read `tasks_last_id`. -/
  | readLastId (completed refused : Nat)
  /-- The predicate was false; about to block. -/
  | falling
  /-- Blocked on `task_results_all_condition_`. -/
  | asleep
  /-- Woken, about to take the mutex again. -/
  | notified
  /-- The predicate was true; about to release the mutex. -/
  | leaving
  /-- Returned. -/
  | returned
  deriving DecidableEq, Repr

/-- A call of `wait_all`; `before` are the ids of the `add_task` calls that had returned when it
was made. -/
structure Waiter where
  pc : WaiterPc
  before : List Nat
  deriving DecidableEq, Repr

/-- What `notify_all` does to a waiter. -/
def Waiter.notify (waiter : Waiter) : Waiter :=
  match waiter.pc with
  | .asleep => { waiter with pc := .notified }
  | _ => waiter

/-- Where `~ThreadPool()` is. -/
inductive DtorPc
  | idle
  /-- `threads_stop_` is set, about to notify. -/
  | stopped
  /-- In `join()` of the worker `serial`. -/
  | joining (serial : Nat)
  deriving DecidableEq, Repr

/-- A thread that may hold `tasks_mutex_`. -/
inductive Agent
  | worker (serial : Nat)
  | call (index : Nat)
  deriving DecidableEq, Repr

/-- The state of a `ThreadPool` and of the threads that use it. -/
structure ThreadPoolState (ρ : Type) where
  tasksMaxCapacity : Nat
  tasksLastId : Nat
  tasksCompletedCount : Nat
  tasksRefusedCount : Nat
  threadsStop : Bool
  tasksMutex : Option Agent
  tasks : List (PooledTask ρ × TaskMeta)
  taskResultsAllMutex : Option Nat
  workers : List (WorkerPc ρ)
  calls : List Call
  waiters : List Waiter
  dtor : DtorPc
  log : List (Event ρ)
  deriving DecidableEq, Repr

/-- `ThreadPool::ThreadPool`: the workers have started and none has made a step. -/
def ThreadPoolState.new (threadsCount tasksCapacity : Nat) : ThreadPoolState ρ where
  tasksMaxCapacity := tasksCapacity
  tasksLastId := 0
  tasksCompletedCount := 0
  tasksRefusedCount := 0
  threadsStop := false
  tasksMutex := none
  tasks := []
  taskResultsAllMutex := none
  workers := List.replicate threadsCount .loop
  calls := []
  waiters := []
  dtor := .idle
  log := []

namespace ThreadPoolState

variable (s : ThreadPoolState ρ)

/-! ## Updates -/

/-- Move the worker `w`. -/
def setWorker (w : Nat) (pc : WorkerPc ρ) : ThreadPoolState ρ :=
  { s with workers := s.workers.set w pc }

/-- Replace the locals of the call `c`. -/
def setCall (c : Nat) (call : Call) : ThreadPoolState ρ := { s with calls := s.calls.set c call }

/-- Move the waiter `i`. -/
def setWaiter (i : Nat) (pc : WaiterPc) : ThreadPoolState ρ :=
  { s with waiters := s.waiters.modify i fun waiter => { waiter with pc := pc } }

/-- Take or release `tasks_mutex_`. -/
def setMutex (holder : Option Agent) : ThreadPoolState ρ := { s with tasksMutex := holder }

/-- Record an event. -/
def emit (e : Event ρ) : ThreadPoolState ρ := { s with log := s.log ++ [e] }

/-- `tasks_condition_.notify_one()`: wakes one blocked worker, if there is any; `choice` says which
one (when it does not name a blocked worker, the first blocked one). -/
def notifyOne (choice : Nat) : ThreadPoolState ρ :=
  if (s.workers[choice]?).any WorkerPc.isAsleep then
    s.setWorker choice .notified
  else
    match s.workers.findIdx? WorkerPc.isAsleep with
    | some w => s.setWorker w .notified
    | none => s

/-- `tasks_condition_.notify_all()`. -/
def notifyAllWorkers : ThreadPoolState ρ :=
  { s with workers := s.workers.map WorkerPc.notify }

/-- `task_results_all_condition_.notify_all()`. -/
def notifyAllWaiters : ThreadPoolState ρ :=
  { s with waiters := s.waiters.map Waiter.notify }

/-- The ids of the `add_task` calls that have returned. -/
def returnedIds : List Nat :=
  s.calls.filterMap fun call => match call.pc with | .returned _ => some call.id | _ => none

/-! ## Steps -/

/-- One step of a worker in `ThreadPool::run`; `outcome` is read where the body runs. -/
def workerStep (w : Nat) (outcome : Outcome ρ) : Option (ThreadPoolState ρ) :=
  match s.workers[w]? with
  | none => none
  | some .loop => some (s.setWorker w (if s.threadsStop then .exited else .locking))
  | some .locking | some .notified =>
      if s.tasksMutex = none then
        some ((s.setMutex (some (.worker w))).setWorker w .checking)
      else none
  | some .checking =>
      some (s.setWorker w (if !s.tasks.isEmpty || s.threadsStop then .awake else .falling))
  | some .falling => some ((s.setMutex none).setWorker w .asleep)
  | some .asleep => none
  | some .awake =>
      match s.tasks with
      | (task, taskMeta) :: rest =>
          if !s.threadsStop then
            some ((({ s with tasks := rest }.setMutex none).setWorker w
              (.running task taskMeta)).emit (.started taskMeta))
          else
            some (s.setWorker w (.notifying true))
      | [] => some (s.setWorker w (.notifying true))
  | some (.running task taskMeta) =>
      some ((s.setWorker w (.ran (task.run outcome) taskMeta)).emit
        (.ended taskMeta outcome.hasThrown))
  | some (.ran task taskMeta) =>
      if taskMeta.cb then
        some ((s.setWorker w (.counting taskMeta)).emit (.callback taskMeta.id task.getResult))
      else
        some (s.setWorker w (.counting taskMeta))
  | some (.counting taskMeta) =>
      some (({ s with tasksCompletedCount := s.tasksCompletedCount + 1 }.setWorker w
        (.notifying false)).emit (.completed taskMeta))
  | some (.notifying locked) =>
      some (s.notifyAllWaiters.setWorker w (if locked then .releasing else .loop))
  | some .releasing => some ((s.setMutex none).setWorker w .loop)
  | some .exited => none

/-- One step of a call of `add_task`; `choice` is read by `notify_one`. -/
def callStep (c : Nat) (choice : Nat) : Option (ThreadPoolState ρ) :=
  match s.calls[c]? with
  | none => none
  | some call =>
      match call.pc with
      | .locking =>
          if s.tasksMutex = none then
            some ((s.setMutex (some (.call c))).setCall c { call with pc := .locked })
          else none
      | .locked =>
          some (({ s with tasksLastId := s.tasksLastId + 1 }.setCall c
            { call with id := s.tasksLastId, pc := .testing }).emit (.issued s.tasksLastId))
      | .testing =>
          if s.tasks.length < s.tasksMaxCapacity then
            some ((({ s with tasks := s.tasks ++ [(call.task, call.taskMeta)] }.setCall c
              { call with pc := .leaving }).emit (.accepted call.taskMeta)).notifyOne choice)
          else
            some (({ s with tasksRefusedCount := s.tasksRefusedCount + 1 }.setCall c
              { call with refused := true, pc := .leaving }).emit (.refused call.id))
      | .leaving => some ((s.setMutex none).setCall c { call with pc := .deciding })
      | .deciding =>
          if call.refused && call.cb then some (s.setCall c { call with pc := .refusing })
          else some (s.setCall c { call with pc := .returned (some call.id) })
      | .refusing => some (s.setCall c { call with pc := .returned none })
      | .returned _ => none

/-- One step of a call of `wait_all`. -/
def waiterStep (i : Nat) : Option (ThreadPoolState ρ) :=
  match s.waiters[i]? with
  | none => none
  | some waiter =>
      match waiter.pc with
      | .locking | .notified =>
          if s.taskResultsAllMutex = none then
            some ({ s with taskResultsAllMutex := some i }.setWaiter i .readCompleted)
          else none
      | .readCompleted => some (s.setWaiter i (.readRefused s.tasksCompletedCount))
      | .readRefused completed => some (s.setWaiter i (.readLastId completed s.tasksRefusedCount))
      | .readLastId completed refused =>
          some (s.setWaiter i (if completed + refused = s.tasksLastId then .leaving else .falling))
      | .falling => some ({ s with taskResultsAllMutex := none }.setWaiter i .asleep)
      | .asleep => none
      | .leaving => some ({ s with taskResultsAllMutex := none }.setWaiter i .returned)
      | .returned => none

/-- One step of `~ThreadPool()`. -/
def dtorStep : Option (ThreadPoolState ρ) :=
  match s.dtor with
  | .idle => some { s with threadsStop := true, dtor := .stopped }
  | .stopped => some { s.notifyAllWorkers with dtor := .joining 0 }
  | .joining serial =>
      match s.workers[serial]? with
      | some .exited => some { s with dtor := .joining (serial + 1) }
      | _ => none

end ThreadPoolState

/-- The steps of the threads, the calls they make, and spurious wake-ups. -/
inductive Action (ρ : Type)
  /-- Somebody calls `add_task` with a null or non-null callback. -/
  | addTask (cb isVoid : Bool)
  | callStep (c choice : Nat)
  | workerStep (w : Nat) (outcome : Outcome ρ)
  /-- Somebody calls `wait_all`. -/
  | waitAll
  | waiterStep (i : Nat)
  | dtorStep
  /-- A blocked worker wakes up unasked. -/
  | spuriousWorker (w : Nat)
  /-- A blocked waiter wakes up unasked. -/
  | spuriousWaiter (i : Nat)
  deriving DecidableEq, Repr

/-- One step of the pool. -/
def ThreadPoolState.next (s : ThreadPoolState ρ) : Action ρ → Option (ThreadPoolState ρ)
  | .addTask cb isVoid => some { s with calls := s.calls ++ [⟨cb, isVoid, 0, false, .locking⟩] }
  | .callStep c choice => s.callStep c choice
  | .workerStep w outcome => s.workerStep w outcome
  | .waitAll => some { s with waiters := s.waiters ++ [⟨.locking, s.returnedIds⟩] }
  | .waiterStep i => s.waiterStep i
  | .dtorStep => s.dtorStep
  | .spuriousWorker w =>
      match s.workers[w]? with
      | some .asleep => some (s.setWorker w .notified)
      | _ => none
  | .spuriousWaiter i =>
      match s.waiters[i]? with
      | some waiter =>
          match waiter.pc with
          | .asleep => some (s.setWaiter i .notified)
          | _ => none
      | none => none

/-- A pool with `threadsCount` workers and room for `tasksCapacity` tasks, under every
interleaving. -/
def ThreadPool (ρ : Type) (threadsCount tasksCapacity : Nat) :
    System (ThreadPoolState ρ) (Action ρ) :=
  System.ofNext (· = .new threadsCount tasksCapacity) ThreadPoolState.next

/-! ## `ThreadPoolAdaptor` -/

/-- `ThreadPoolAdaptor::enqueue` calls `add_task` with a null callback and reports
`has_value()` of its result. -/
def enqueueResult (result : Option Nat) : Bool := result.isSome

end SocialNetwork.Threads
