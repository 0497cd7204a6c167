import SocialNetwork.Foundation.Termination
import SocialNetwork.Threads.Wakeups

/-!
# The work that a pool has left

Left to itself, with no new calls and no spurious wake-ups, a pool does not run for ever, whatever
the scheduler does. Every step lowers `ThreadPoolState.work`, a number read off the state: what the
queued tasks, the workers, the calls of `add_task` and the destructor still have to do, and, under
that, what the waiters have to do. A waiter can be woken again and again, but only by a worker that
makes a step of its own, so the first part is weighed with the number of waiters.

Nothing is assumed about fairness. A thread that waits for a mutex or a condition variable makes no
steps, and every loop of the code passes through a sleep or through the exit of its thread.
-/

namespace SocialNetwork.Threads

open Foundation

variable {ρ : Type}

/-! ## Ranks -/

/-- How many steps a worker makes before it sleeps or exits, as long as it pops no task. The way
from `loop` leads to the queue while the pool runs and out of it once the pool is being stopped. -/
def WorkerPc.rank (stop : Bool) : WorkerPc ρ → Nat
  | .running _ _ => 8
  | .ran _ _ => 7
  | .counting _ => 6
  | .notifying false => 5
  | .locking | .notified => if stop then 6 else 3
  | .checking => if stop then 5 else 2
  | .awake => if stop then 4 else 1
  | .notifying true => if stop then 3 else 6
  | .releasing => if stop then 2 else 5
  | .loop => if stop then 1 else 4
  | .falling => 1
  | .asleep | .exited => 0

/-- What a queued task costs: its worker comes back to the queue after it. -/
def queuedRank : Nat := 8

/-- How many steps a call of `add_task` makes, and what the task costs that it may put into the
queue and the worker that it may wake. -/
def CallPc.rank : CallPc → Nat
  | .locking => 20
  | .locked => 19
  | .testing => 18
  | .leaving => 3
  | .deciding => 2
  | .refusing => 1
  | .returned _ => 0

/-- How many steps a waiter makes before it sleeps or returns. -/
def WaiterPc.rank : WaiterPc → Nat
  | .locking | .notified => 5
  | .readCompleted => 4
  | .readRefused _ => 3
  | .readLastId _ _ => 2
  | .falling | .leaving => 1
  | .asleep | .returned => 0

/-- How many steps the destructor makes with so many workers, and what the workers cost that it
wakes. A destructor that nobody has called makes none. -/
def DtorPc.rank (threadsCount : Nat) : DtorPc → Nat
  | .idle => 0
  | .stopped => 7 * threadsCount + 1
  | .joining serial => threadsCount - serial

namespace ThreadPoolState

variable (s : ThreadPoolState ρ)

/-- What is left to the workers, the calls and the destructor. -/
def chores : Nat :=
  queuedRank * s.tasks.length + (s.workers.map (WorkerPc.rank s.threadsStop)).sum +
    (s.calls.map fun call => call.pc.rank).sum + s.dtor.rank s.workers.length

/-- What is left to the waiters, as long as no worker wakes them. -/
def waiting : Nat := (s.waiters.map fun waiter => waiter.pc.rank).sum

/-- **How many steps the pool makes at most** before somebody calls it again. -/
def work : Nat := s.chores * (5 * s.waiters.length + 1) + s.waiting

/-- The steps that the threads make by themselves: no new call, no spurious wake-up, and no
destructor that nobody has called. -/
def Internal (s : ThreadPoolState ρ) : Action ρ → Prop
  | .callStep _ _ | .workerStep _ _ | .waiterStep _ => True
  | .dtorStep => s.dtor ≠ .idle
  | .addTask _ _ | .waitAll | .spuriousWorker _ | .spuriousWaiter _ => False

variable {s} {s' : ThreadPoolState ρ}

/-! ## A worker that has seen a task finds it -/

/-- A worker that has come out of its wait finds a task, unless the pool is being stopped. -/
def AwakeOk (s : ThreadPoolState ρ) : Prop :=
  s.threadsStop = false → ∀ w : Nat, s.workers[w]? = some .awake → s.tasks ≠ []

/-- A step after which the workers that have come out of their waits are among those before it. -/
theorem AwakeOk.frame (h : s.AwakeOk) (hstop : s'.threadsStop = false → s.threadsStop = false)
    (hworkers : ∀ w : Nat, s'.workers[w]? = some .awake → s.workers[w]? = some .awake)
    (htasks : s.tasks ≠ [] → s'.tasks ≠ []) : s'.AwakeOk :=
  fun hrun w hw => htasks (h (hstop hrun) w (hworkers w hw))

/-- After one worker has moved elsewhere, whoever is at a place was there before. -/
theorem place_of_set {w v : Nat} {pc pc' place : WorkerPc ρ} (hw : s.workers[w]? = some pc)
    (hworkers : s'.workers = s.workers.set w pc') (hpc : pc' ≠ place)
    (hv : s'.workers[v]? = some place) : s.workers[v]? = some place := by
  by_cases hvw : v = w
  · obtain ⟨hlt, -⟩ := List.getElem?_eq_some_iff.mp hw
    subst v
    rw [hworkers, List.getElem?_set_self hlt] at hv
    exact absurd (Option.some.inj hv) hpc
  · rwa [hworkers, List.getElem?_set_ne (Ne.symm hvw)] at hv

theorem AwakeOk.move (h : s.AwakeOk) {w : Nat} {pc pc' : WorkerPc ρ}
    (hw : s.workers[w]? = some pc) (hworkers : s'.workers = s.workers.set w pc')
    (hpc : pc' ≠ .awake) (hstop : s'.threadsStop = s.threadsStop) (htasks : s'.tasks = s.tasks) :
    s'.AwakeOk :=
  h.frame (fun hrun => hstop ▸ hrun) (fun _ hv => place_of_set hw hworkers hpc hv)
    fun hne => htasks ▸ hne

theorem AwakeOk.transition {a : Action ρ} (h : s.AwakeOk) (hexclusive : s.Exclusive)
    (hs : Transition s a s') : s'.AwakeOk := by
  cases hs with
  | callAccept c choice call hc hpc hroom =>
      have hqueued : (({ s with tasks := s.tasks ++ [(call.task, call.taskMeta)] }.setCall c
          { call with pc := .leaving }).emit (.accepted call.taskMeta)).AwakeOk :=
        fun hrun v hv => by simp [emit, setCall]
      rcases notifyOne_cases (s := _) choice with ⟨heq, -⟩ | ⟨w, hw, heq⟩ <;> rw [heq]
      · exact hqueued
      · exact hqueued.move hw rfl (by simp) rfl rfl
  | workerLoop w outcome hw =>
      refine h.move hw rfl ?_ rfl rfl
      split <;> simp
  | workerLock w outcome pc hw => exact h.move hw rfl (by simp) rfl rfl
  | workerCheck w outcome hw =>
      cases hsees : (!s.tasks.isEmpty || s.threadsStop) with
      | false =>
          simp only [Bool.false_eq_true, if_false]
          exact h.move hw rfl (by simp) rfl rfl
      | true =>
          intro hrun _ _
          have hstop : s.threadsStop = false := hrun
          have hsome : s.tasks.isEmpty = false := by simpa [hstop] using hsees
          exact fun hnil => by simp [show s.tasks = [] from hnil] at hsome
  | workerSleep w outcome hw => exact h.move hw rfl (by simp) rfl rfl
  | workerStart w outcome task taskMeta rest hw htasks hstop =>
      -- the one that pops holds the mutex, so nobody else is at the `if`
      intro _ v hv
      have hother : s.workers[v]? = some .awake := by
        have hmoved : s.workers.set w (.running task taskMeta) = s.workers.set w _ := rfl
        exact place_of_set hw hmoved (by simp) hv
      have hholds := (hexclusive (.worker w)).mp (by rw [holds_worker hw]; rfl)
      have hholds' := (hexclusive (.worker v)).mp (by rw [holds_worker hother]; rfl)
      obtain rfl : w = v := by simpa using hholds.symm.trans hholds'
      obtain ⟨hlt, -⟩ := List.getElem?_eq_some_iff.mp hw
      simp [emit, setWorker, setMutex, hlt] at hv
  | workerSkip w outcome hw => exact h.move hw rfl (by simp) rfl rfl
  | workerRun w outcome task taskMeta hw => exact h.move hw rfl (by simp) rfl rfl
  | workerCallback w outcome task taskMeta hw => exact h.move hw rfl (by simp) rfl rfl
  | workerNoCallback w outcome task taskMeta hw => exact h.move hw rfl (by simp) rfl rfl
  | workerCount w outcome taskMeta hw => exact h.move hw rfl (by simp) rfl rfl
  | workerNotify w outcome locked hw =>
      refine h.move (s := s) hw rfl ?_ rfl rfl
      split <;> simp
  | workerUnlock w outcome hw => exact h.move hw rfl (by simp) rfl rfl
  | stop => exact fun hrun => by cases hrun
  | stopNotify =>
      refine h.frame id (fun v hv => ?_) id
      have hv : (s.workers.map WorkerPc.notify)[v]? = some .awake := hv
      rw [List.getElem?_map, Option.map_eq_some_iff] at hv
      obtain ⟨pc, hpc, hnotify⟩ := hv
      cases pc <;> first | exact hpc | cases hnotify
  | spuriousWorker w hw => exact h.move hw rfl (by simp) rfl rfl
  | _ => exact h

theorem awakeOk_invariant (threadsCount cap : Nat) :
    (ThreadPool ρ threadsCount cap).Invariant AwakeOk where
  init s hs := by
    rw [show s = new threadsCount cap from hs]
    intro _ w hw
    simp [new, List.getElem?_replicate] at hw
  step s a s' hs h hstep :=
    h.transition ((accounted_invariant threadsCount cap).reachable hs).exclusive
      (transition_of_next hstep)

/-! ## Every internal step lowers the work -/

/-- The pool gets something done, and wakes the waiters at most once each. -/
theorem work_lt_of_chores (hchores : s'.chores < s.chores)
    (hlength : s'.waiters.length = s.waiters.length)
    (hwaiting : s'.waiting ≤ s.waiting + 5 * s.waiters.length) : s'.work < s.work := by
  unfold work
  rw [hlength]
  have hmul : (s'.chores + 1) * (5 * s.waiters.length + 1) ≤
      s.chores * (5 * s.waiters.length + 1) := Nat.mul_le_mul_right _ hchores
  rw [Nat.add_mul] at hmul
  omega

/-- The pool gets something done while the waiters stay where they are. -/
theorem work_lt_of_frame (hchores : s'.chores < s.chores) (hwaiters : s'.waiters = s.waiters) :
    s'.work < s.work := by
  apply work_lt_of_chores hchores
  · rw [hwaiters]
  · unfold waiting
    rw [hwaiters]
    omega

/-- A worker gets closer to its sleep or its exit. -/
theorem chores_lt_of_worker {w : Nat} {pc pc' : WorkerPc ρ} (hw : s.workers[w]? = some pc)
    (hworkers : s'.workers = s.workers.set w pc') (htasks : s'.tasks = s.tasks)
    (hcalls : s'.calls = s.calls) (hdtor : s'.dtor = s.dtor)
    (hstop : s'.threadsStop = s.threadsStop)
    (hrank : pc'.rank s.threadsStop < pc.rank s.threadsStop) : s'.chores < s.chores := by
  have hsum := sum_map_set (WorkerPc.rank s.threadsStop) hw pc'
  unfold chores
  rw [hworkers, htasks, hcalls, hdtor, hstop, List.length_set]
  omega

/-- A worker makes a step that concerns nobody else. -/
theorem work_lt_of_worker {w : Nat} {pc pc' : WorkerPc ρ} (hw : s.workers[w]? = some pc)
    (hworkers : s'.workers = s.workers.set w pc') (htasks : s'.tasks = s.tasks)
    (hcalls : s'.calls = s.calls) (hdtor : s'.dtor = s.dtor)
    (hstop : s'.threadsStop = s.threadsStop) (hwaiters : s'.waiters = s.waiters)
    (hrank : pc'.rank s.threadsStop < pc.rank s.threadsStop) : s'.work < s.work :=
  work_lt_of_frame (chores_lt_of_worker hw hworkers htasks hcalls hdtor hstop hrank) hwaiters

/-- A call of `add_task` gets closer to its return. -/
theorem work_lt_of_call {c : Nat} {call call' : Call} (hc : s.calls[c]? = some call)
    (hcalls : s'.calls = s.calls.set c call') (htasks : s'.tasks = s.tasks)
    (hworkers : s'.workers = s.workers) (hdtor : s'.dtor = s.dtor)
    (hstop : s'.threadsStop = s.threadsStop) (hwaiters : s'.waiters = s.waiters)
    (hrank : call'.pc.rank < call.pc.rank) : s'.work < s.work := by
  apply work_lt_of_frame _ hwaiters
  have hsum := sum_map_set (fun call : Call => call.pc.rank) hc call'
  unfold chores
  rw [hworkers, htasks, hcalls, hdtor, hstop]
  omega

/-- A task is queued, and a worker may be woken for it: the call has the work for both. -/
theorem work_lt_of_accept {c choice : Nat} {call call' : Call} {entry : PooledTask ρ × TaskMeta}
    {e : Event ρ} (hc : s.calls[c]? = some call) (hpc : call.pc = .testing)
    (hpc' : call'.pc = .leaving) :
    ((({ s with tasks := s.tasks ++ [entry] }.setCall c call').emit e).notifyOne choice).work <
      s.work := by
  have hsum := sum_map_set (fun call : Call => call.pc.rank) hc call'
  have hold : call.pc.rank = 18 := congrArg CallPc.rank hpc
  have hnew : call'.pc.rank = 3 := congrArg CallPc.rank hpc'
  rcases notifyOne_cases (s := _) choice with ⟨heq, -⟩ | ⟨w, hw, heq⟩ <;> rw [heq]
  · refine work_lt_of_frame ?_ rfl
    simp only [chores, emit, setCall, List.length_append, List.length_singleton, queuedRank]
    omega
  · refine work_lt_of_frame ?_ rfl
    have hw : s.workers[w]? = some .asleep := hw
    have hwake := sum_map_set (WorkerPc.rank s.threadsStop) hw .notified
    have hbound : (WorkerPc.notified : WorkerPc ρ).rank s.threadsStop ≤ 6 := by
      cases s.threadsStop <;> simp [WorkerPc.rank]
    have hasleep : (WorkerPc.asleep : WorkerPc ρ).rank s.threadsStop = 0 := rfl
    simp only [chores, emit, setCall, setWorker, List.length_append, List.length_singleton,
      List.length_set, queuedRank]
    omega

/-- A worker pops a task. -/
theorem work_lt_of_start {w : Nat} {task : PooledTask ρ} {taskMeta : TaskMeta}
    {rest : List (PooledTask ρ × TaskMeta)} (hw : s.workers[w]? = some .awake)
    (htasks : s.tasks = (task, taskMeta) :: rest) :
    ((({ s with tasks := rest }.setMutex none).setWorker w
      (.running task taskMeta)).emit (.started taskMeta)).work < s.work := by
  refine work_lt_of_frame ?_ rfl
  have hsum := sum_map_set (WorkerPc.rank s.threadsStop) hw (.running task taskMeta)
  have hawake : 1 ≤ (WorkerPc.awake : WorkerPc ρ).rank s.threadsStop := by
    cases s.threadsStop <;> simp [WorkerPc.rank]
  have hrunning : (WorkerPc.running task taskMeta).rank s.threadsStop = 8 := rfl
  simp only [chores, emit, setWorker, setMutex, htasks, List.length_cons, List.length_set,
    queuedRank]
  omega

/-- A worker notifies the waiters. -/
theorem work_lt_of_notify {w : Nat} {locked : Bool}
    (hw : s.workers[w]? = some (.notifying locked)) :
    (s.notifyAllWaiters.setWorker w (if locked then .releasing else .loop)).work < s.work := by
  apply work_lt_of_chores
  · refine chores_lt_of_worker hw rfl rfl rfl rfl rfl ?_
    cases locked <;> cases s.threadsStop <;> simp [WorkerPc.rank]
  · simp [notifyAllWaiters, setWorker]
  · apply sum_map_map_le fun waiter => ?_
    cases hpc : waiter.pc <;> simp [Waiter.notify, hpc, WaiterPc.rank]

/-- The destructor notifies all workers. -/
theorem work_lt_of_stopNotify (hdtor : s.dtor = .stopped) :
    ({ s.notifyAllWorkers with dtor := .joining 0 } : ThreadPoolState ρ).work < s.work := by
  refine work_lt_of_frame ?_ rfl
  have hsum : ((s.workers.map WorkerPc.notify).map (WorkerPc.rank s.threadsStop)).sum ≤
      (s.workers.map (WorkerPc.rank s.threadsStop)).sum + 6 * s.workers.length := by
    apply sum_map_map_le fun pc => ?_
    cases pc <;> cases s.threadsStop <;> simp [WorkerPc.notify, WorkerPc.rank]
  simp only [chores, notifyAllWorkers, hdtor, DtorPc.rank, List.length_map]
  omega

/-- A waiter makes a step that wakes nobody. -/
theorem work_lt_of_waiter (mutex : Option Nat) {i : Nat} {waiter : Waiter} {pc : WaiterPc}
    (hi : s.waiters[i]? = some waiter) (hrank : pc.rank < waiter.pc.rank) :
    ({ s with taskResultsAllMutex := mutex }.setWaiter i pc).work < s.work := by
  have hset : s.waiters.modify i (fun waiter => { waiter with pc := pc }) =
      s.waiters.set i { waiter with pc := pc } := by
    rw [List.modify_eq_set_getElem?, hi]
    rfl
  have hsum : ((s.waiters.set i { waiter with pc := pc }).map fun waiter => waiter.pc.rank).sum +
      waiter.pc.rank = (s.waiters.map fun waiter => waiter.pc.rank).sum + pc.rank :=
    sum_map_set (fun waiter : Waiter => waiter.pc.rank) hi _
  have hchores : ({ s with taskResultsAllMutex := mutex }.setWaiter i pc).chores = s.chores := rfl
  unfold work
  rw [hchores]
  simp only [waiting, setWaiter, hset, List.length_set]
  omega

/-- **Every internal step lowers the work.** -/
theorem work_lt_of_transition {a : Action ρ} (hinternal : s.Internal a) (hawake : s.AwakeOk)
    (hs : Transition s a s') : s'.work < s.work := by
  cases hs with
  | addTask | waitAll | spuriousWorker | spuriousWaiter => exact absurd hinternal id
  | callLock c choice call hc hpc =>
      exact work_lt_of_call hc rfl rfl rfl rfl rfl rfl (by simp [hpc, CallPc.rank])
  | callIssue c choice call hc hpc =>
      exact work_lt_of_call hc rfl rfl rfl rfl rfl rfl (by simp [hpc, CallPc.rank])
  | callAccept c choice call hc hpc => exact work_lt_of_accept hc hpc rfl
  | callRefuse c choice call hc hpc =>
      exact work_lt_of_call hc rfl rfl rfl rfl rfl rfl (by simp [hpc, CallPc.rank])
  | callUnlock c choice call hc hpc =>
      exact work_lt_of_call hc rfl rfl rfl rfl rfl rfl (by simp [hpc, CallPc.rank])
  | callReport c choice call hc hpc =>
      exact work_lt_of_call hc rfl rfl rfl rfl rfl rfl (by simp [hpc, CallPc.rank])
  | callReturn c choice call hc hpc =>
      exact work_lt_of_call hc rfl rfl rfl rfl rfl rfl (by simp [hpc, CallPc.rank])
  | callReturnNull c choice call hc hpc =>
      exact work_lt_of_call hc rfl rfl rfl rfl rfl rfl (by simp [hpc, CallPc.rank])
  | workerLoop w outcome hw =>
      refine work_lt_of_worker hw rfl rfl rfl rfl rfl rfl ?_
      cases s.threadsStop <;> simp [WorkerPc.rank]
  | workerLock w outcome pc hw hpc =>
      refine work_lt_of_worker hw rfl rfl rfl rfl rfl rfl ?_
      rcases hpc with rfl | rfl <;> cases s.threadsStop <;> simp [WorkerPc.rank]
  | workerCheck w outcome hw =>
      refine work_lt_of_worker hw rfl rfl rfl rfl rfl rfl ?_
      cases s.tasks.isEmpty <;> cases s.threadsStop <;> simp [WorkerPc.rank]
  | workerSleep w outcome hw =>
      refine work_lt_of_worker hw rfl rfl rfl rfl rfl rfl ?_
      simp [WorkerPc.rank]
  | workerStart w outcome task taskMeta rest hw htasks => exact work_lt_of_start hw htasks
  | workerSkip w outcome hw hskip =>
      -- only the end of the pool lets a worker out of its wait without a task
      have hstop : s.threadsStop = true := by
        rcases hskip with hnil | hstop
        · by_contra hrun
          exact hawake (Bool.not_eq_true _ ▸ hrun) w hw hnil
        · exact hstop
      refine work_lt_of_worker hw rfl rfl rfl rfl rfl rfl ?_
      simp [hstop, WorkerPc.rank]
  | workerRun w outcome task taskMeta hw =>
      refine work_lt_of_worker hw rfl rfl rfl rfl rfl rfl ?_
      simp [WorkerPc.rank]
  | workerCallback w outcome task taskMeta hw =>
      refine work_lt_of_worker hw rfl rfl rfl rfl rfl rfl ?_
      simp [WorkerPc.rank]
  | workerNoCallback w outcome task taskMeta hw =>
      refine work_lt_of_worker hw rfl rfl rfl rfl rfl rfl ?_
      simp [WorkerPc.rank]
  | workerCount w outcome taskMeta hw =>
      refine work_lt_of_worker hw rfl rfl rfl rfl rfl rfl ?_
      simp [WorkerPc.rank]
  | workerNotify w outcome locked hw => exact work_lt_of_notify hw
  | workerUnlock w outcome hw =>
      refine work_lt_of_worker hw rfl rfl rfl rfl rfl rfl ?_
      cases s.threadsStop <;> simp [WorkerPc.rank]
  | waiterLock i waiter hi hpc =>
      apply work_lt_of_waiter _ hi
      rcases hpc with hpc | hpc <;> simp [hpc, WaiterPc.rank]
  | waiterReadCompleted i waiter hi hpc =>
      exact work_lt_of_waiter s.taskResultsAllMutex hi (by simp [hpc, WaiterPc.rank])
  | waiterReadRefused i waiter completed hi hpc =>
      exact work_lt_of_waiter s.taskResultsAllMutex hi (by simp [hpc, WaiterPc.rank])
  | waiterReadLastId i waiter completed refused hi hpc =>
      apply work_lt_of_waiter s.taskResultsAllMutex hi
      split <;> simp [hpc, WaiterPc.rank]
  | waiterSleep i waiter hi hpc => exact work_lt_of_waiter _ hi (by simp [hpc, WaiterPc.rank])
  | waiterReturn i waiter hi hpc => exact work_lt_of_waiter _ hi (by simp [hpc, WaiterPc.rank])
  | stop hdtor => exact absurd hdtor hinternal
  | stopNotify hdtor => exact work_lt_of_stopNotify hdtor
  | join serial hdtor hw =>
      refine work_lt_of_frame ?_ rfl
      obtain ⟨hlt, -⟩ := List.getElem?_eq_some_iff.mp hw
      simp only [chores, hdtor, DtorPc.rank]
      omega

/-- A reachable pool that is left to itself comes to rest. -/
theorem internal_terminating (threadsCount cap : Nat) :
    ((ThreadPool ρ threadsCount cap).guarded Internal).Terminating
      (ThreadPool ρ threadsCount cap).Reachable work where
  keeps _ _ _ hs hstep := .step hs hstep.2
  lowers _ _ _ hs hstep :=
    work_lt_of_transition hstep.1 ((awakeOk_invariant threadsCount cap).reachable hs)
      (transition_of_next hstep.2)

end ThreadPoolState

end SocialNetwork.Threads
