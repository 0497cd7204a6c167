import SocialNetwork.Threads.WaitAll
import SocialNetwork.Threads.Wakeups

/-!
# Notifications that fall into a gap

Between a wait predicate that was false and the sleep that follows it a thread holds the mutex of
its condition variable, but neither the destructor of `ThreadPool` nor the code that counts
completions and refusals takes that mutex before it changes what the predicate reads and notifies. A
notification that is sent in this gap finds nobody asleep. This file says for both condition
variables which steps lose a wake-up, and shows that no wake-up is lost in the runs without these
steps.
-/

namespace SocialNetwork.Threads

open Foundation

variable {ρ : Type}

/-! ## The destructor -/

/-- The destructor is in `join()` of a worker that sleeps. -/
def JoinsSleeper (s : ThreadPoolState ρ) : Prop :=
  ∃ serial, s.dtor = .joining serial ∧ s.workers[serial]? = some .asleep ∧ s.threadsStop = true

/-- The destructor does not notify while a worker is between its wait predicate and its sleep. -/
def NoWorkerInGap (s : ThreadPoolState ρ) (a : Action ρ) : Prop :=
  a = .dtorStep → s.dtor = .stopped → ∀ pc ∈ s.workers, pc ≠ .falling

instance [DecidableEq ρ] (s : ThreadPoolState ρ) (a : Action ρ) : Decidable (NoWorkerInGap s a) :=
  inferInstanceAs (Decidable (_ → _ → _))

namespace ThreadPoolState

variable {s s' : ThreadPoolState ρ}

/-- What holds while the destructor runs: the flag is set before anybody is notified, and once the
workers have been notified none is asleep or on its way to sleep. -/
structure Stopping (s : ThreadPoolState ρ) : Prop where
  flag : s.dtor ≠ .idle → s.threadsStop = true
  awake : ∀ serial, s.dtor = .joining serial → ∀ pc ∈ s.workers, pc ≠ .asleep ∧ pc ≠ .falling

/-- A step that moves one worker. -/
theorem Stopping.move (h : s.Stopping) {w : Nat} {pc' : WorkerPc ρ}
    (hworkers : s'.workers = s.workers.set w pc') (hdtor : s'.dtor = s.dtor)
    (hstop : s'.threadsStop = s.threadsStop)
    (hpc : ∀ serial, s.dtor = .joining serial → pc' ≠ .asleep ∧ pc' ≠ .falling) : s'.Stopping where
  flag := by
    rw [hdtor, hstop]
    exact h.flag
  awake serial hjoin pc hmem := by
    rw [hdtor] at hjoin
    rw [hworkers] at hmem
    rcases List.mem_or_eq_of_mem_set hmem with hmem | rfl
    · exact h.awake serial hjoin pc hmem
    · exact hpc serial hjoin

/-- Every guarded step keeps what holds while the destructor runs. -/
theorem Stopping.transition {a : Action ρ} (h : s.Stopping) (hguard : NoWorkerInGap s a)
    (hs : Transition s a s') : s'.Stopping := by
  cases hs with
  | callAccept c choice =>
      rcases notifyOne_cases (s := _) choice with ⟨heq, -⟩ | ⟨w, -, heq⟩ <;> rw [heq]
      · exact ⟨h.flag, h.awake⟩
      · exact h.move rfl rfl rfl fun _ _ => ⟨by simp, by simp⟩
  | workerLoop w outcome hw =>
      refine h.move rfl rfl rfl fun _ _ => ?_
      split <;> exact ⟨by simp, by simp⟩
  | workerCheck w outcome hw =>
      refine h.move rfl rfl rfl fun serial hjoin => ?_
      rw [h.flag (by rw [hjoin]; simp)]
      simp
  | workerSleep w outcome hw =>
      exact h.move rfl rfl rfl fun serial hjoin =>
        absurd rfl (h.awake serial hjoin _ (List.mem_of_getElem? hw)).2
  | workerNotify w outcome locked hw =>
      refine h.move rfl rfl rfl fun _ _ => ?_
      split <;> exact ⟨by simp, by simp⟩
  | workerLock | workerStart | workerSkip | workerRun | workerCallback | workerNoCallback
  | workerCount | workerUnlock | spuriousWorker =>
      exact h.move rfl rfl rfl fun _ _ => ⟨by simp, by simp⟩
  | stop hdtor => exact ⟨fun _ => rfl, fun serial hjoin => by cases hjoin⟩
  | stopNotify hdtor =>
      refine ⟨fun _ => h.flag (by rw [hdtor]; simp), fun _ _ pc hmem => ?_⟩
      obtain ⟨old, hold, rfl⟩ := List.mem_map.mp hmem
      have hgap := hguard rfl hdtor old hold
      cases old <;> first | exact absurd rfl hgap | exact ⟨by simp [WorkerPc.notify], by simp [WorkerPc.notify]⟩
  | join serial hdtor hw =>
      exact ⟨fun _ => h.flag (by rw [hdtor]; simp), fun _ _ => h.awake serial hdtor⟩
  | _ => exact ⟨h.flag, h.awake⟩

/-- What holds while the destructor runs holds in every guarded run. -/
theorem stopping_invariant (threadsCount cap : Nat) :
    ((ThreadPool ρ threadsCount cap).guarded NoWorkerInGap).Invariant Stopping where
  init s hs := by
    rw [show s = new threadsCount cap from hs]
    exact ⟨fun h => absurd rfl h, fun _ h => by cases h⟩
  step _ _ _ _ h hstep := h.transition hstep.1 (transition_of_next hstep.2)

end ThreadPoolState

/-- **When the destructor gets its workers out.** In a run in which it does not notify while a
worker is in the gap, it never waits for a worker that sleeps.
Source: `ThreadPool::~ThreadPool`, `ThreadPool::run` -/
theorem destructor_joins (threadsCount cap : Nat) (s : ThreadPoolState ρ)
    (hs : ((ThreadPool ρ threadsCount cap).guarded NoWorkerInGap).Reachable s) :
    ¬JoinsSleeper s := by
  rintro ⟨serial, hjoin, hasleep, -⟩
  have h := (ThreadPoolState.stopping_invariant threadsCount cap).reachable hs
  exact (h.awake serial hjoin _ (List.mem_of_getElem? hasleep)).1 rfl

/-- The worker falls asleep before the destructor runs, is notified, and leaves. -/
def joinRun : List (Action Nat) :=
  List.replicate 4 (.workerStep 0 .threw) ++ [.dtorStep, .dtorStep] ++
    List.replicate 6 (.workerStep 0 .threw) ++ [.dtorStep]

/-- The destructor has joined the worker. -/
def joinState : ThreadPoolState Nat :=
  (System.runFrom ThreadPoolState.next (.new 1 1) joinRun).getD (.new 1 1)

/-- The destructor joins the worker of the sample run. -/
theorem destructor_joins_joinState :
    joinState.workers = [.exited] ∧ joinState.dtor = .joining 1 ∧ ¬JoinsSleeper joinState :=
  ⟨by decide, by decide, destructor_joins 1 1 joinState
    (System.Reachable.runFrom_guarded joinRun (.init rfl) rfl)⟩

/-- The worker finds the queue empty and the flag not set; then the destructor sets the flag and
notifies; then the worker falls asleep. -/
def gapRun : List (Action Nat) :=
  List.replicate 3 (.workerStep 0 .threw) ++ [.dtorStep, .dtorStep, .workerStep 0 .threw]

/-- The destructor waits for a worker that nobody will wake. -/
def gapState : ThreadPoolState Nat :=
  (System.runFrom ThreadPoolState.next (.new 1 1) gapRun).getD (.new 1 1)

/-- The notification of the destructor is lost. -/
theorem destructor_stuck : (ThreadPool Nat 1 1).Reachable gapState ∧ JoinsSleeper gapState :=
  ⟨System.Reachable.runFrom gapRun (.init rfl) rfl, 0, by decide, by decide, by decide⟩

/-! ## `wait_all` -/

/-- At `task_results_all_condition_.notify_all()`. -/
def WorkerPc.isNotifying : WorkerPc ρ → Bool
  | .notifying _ => true
  | _ => false

/-- Inside the wait predicate with counters read that have changed since, or between the false
predicate and the sleep. -/
def WaiterPc.isBehind (completed refused : Nat) : WaiterPc → Bool
  | .readRefused completed' => completed' ≠ completed
  | .readLastId completed' refused' => completed' + refused' ≠ completed + refused
  | .falling => true
  | _ => false

/-- Asleep in `wait_all`, or behind. -/
def WaiterPc.needsWake (completed refused : Nat) (pc : WaiterPc) : Bool :=
  pc = .asleep || pc.isBehind completed refused

namespace ThreadPoolState

variable (s : ThreadPoolState ρ)

/-- The worker is about to notify the waiters. -/
def notifies (w : Nat) : Bool := (s.workers[w]?).any WorkerPc.isNotifying

/-- The call is about to be refused. -/
def refuses (c : Nat) : Bool :=
  (s.calls[c]?).any fun call => call.pc = .testing && !decide (s.tasks.length < s.tasksMaxCapacity)

end ThreadPoolState

/-- A thread sleeps in `wait_all` although every submitted task has been refused or completed, all
workers are asleep on an empty queue, and no call of `add_task` has its submission ahead. -/
structure LostWakeup (s : ThreadPoolState ρ) : Prop where
  waiter : ∃ waiter ∈ s.waiters, waiter.pc = .asleep
  done : ∀ id < s.tasksLastId, s.Done id
  workers : ∀ pc ∈ s.workers, pc = .asleep
  queue : s.tasks = []
  calls : ∀ call ∈ s.calls, call.pc ≠ .locking ∧ call.pc ≠ .locked ∧ call.pc ≠ .testing

/-- Where the counters are balanced and no other worker is about to notify, a worker does not notify
while a waiter is behind; and a refusal does not balance the counters while a waiter is asleep or
behind, unless a worker is about to notify. -/
def NoWaiterInGap (s : ThreadPoolState ρ) : Action ρ → Prop
  | .workerStep w _ => s.notifies w = true →
      s.tasksCompletedCount + s.tasksRefusedCount = s.tasksLastId →
      (∀ v < s.workers.length, v ≠ w → s.notifies v = false) →
      ∀ waiter ∈ s.waiters,
        waiter.pc.isBehind s.tasksCompletedCount s.tasksRefusedCount = false
  | .callStep c _ => s.refuses c = true →
      s.tasksCompletedCount + (s.tasksRefusedCount + 1) = s.tasksLastId →
      (∀ v < s.workers.length, s.notifies v = false) →
      ∀ waiter ∈ s.waiters,
        waiter.pc.needsWake s.tasksCompletedCount (s.tasksRefusedCount + 1) = false
  | _ => True

instance (s : ThreadPoolState ρ) : ∀ a, Decidable (NoWaiterInGap s a)
  | .workerStep _ _ => inferInstanceAs (Decidable (_ → _ → _ → _))
  | .callStep _ _ => inferInstanceAs (Decidable (_ → _ → _ → _))
  | .addTask _ _ | .waitAll | .waiterStep _ | .dtorStep | .spuriousWorker _ | .spuriousWaiter _ =>
      inferInstanceAs (Decidable True)

namespace ThreadPoolState

variable {s s' : ThreadPoolState ρ}

/-- Once the counters are balanced, a worker is about to notify the waiters that need it. -/
def WakersOk (s : ThreadPoolState ρ) : Prop :=
  s.tasksCompletedCount + s.tasksRefusedCount = s.tasksLastId →
    (∃ waiter ∈ s.waiters,
      waiter.pc.needsWake s.tasksCompletedCount s.tasksRefusedCount = true) →
    ∃ w, s.notifies w = true

/-- A step that leaves the counters and the waiters alone, and after which the notifiers are still
there. -/
theorem WakersOk.frame (h : s.WakersOk) (hcompleted : s'.tasksCompletedCount = s.tasksCompletedCount)
    (hrefused : s'.tasksRefusedCount = s.tasksRefusedCount)
    (hid : s'.tasksLastId = s.tasksLastId) (hwaiters : s'.waiters = s.waiters)
    (hnotifies : ∀ w, s.notifies w = true → s'.notifies w = true) : s'.WakersOk := by
  unfold WakersOk
  rw [hcompleted, hrefused, hid, hwaiters]
  intro hbalanced hneeds
  obtain ⟨w, hw⟩ := h hbalanced hneeds
  exact ⟨w, hnotifies w hw⟩

/-- A worker that is not at `notify_all` moves. -/
theorem notifies_set {w : Nat} {pc pc' : WorkerPc ρ} (hw : s.workers[w]? = some pc)
    (hworkers : s'.workers = s.workers.set w pc') (hpc : pc.isNotifying = false) (v : Nat)
    (hv : s.notifies v = true) : s'.notifies v = true := by
  rw [notifies, any_set hw hworkers]
  split
  · subst v
    rw [notifies, hw, Option.any_some, hpc] at hv
    cases hv
  · exact hv

/-- After a notification only the waiters that are behind need to be woken. -/
theorem needsWake_notify (completed refused : Nat) (waiter : Waiter) :
    waiter.notify.pc.needsWake completed refused = waiter.pc.isBehind completed refused := by
  cases hpc : waiter.pc <;> simp [Waiter.notify, hpc, WaiterPc.needsWake, WaiterPc.isBehind]

/-- A waiter moves. If it needs to be woken afterwards, somebody did before. -/
theorem WakersOk.move (h : s.WakersOk) (mutex : Option Nat) {i : Nat} {pc : WaiterPc}
    (hpc : s.tasksCompletedCount + s.tasksRefusedCount = s.tasksLastId →
      pc.needsWake s.tasksCompletedCount s.tasksRefusedCount = true →
      ∃ waiter ∈ s.waiters,
        waiter.pc.needsWake s.tasksCompletedCount s.tasksRefusedCount = true) :
    ({ s with taskResultsAllMutex := mutex }.setWaiter i pc).WakersOk := by
  rintro hbalanced ⟨waiter, hmem, hneeds⟩
  rcases mem_setWaiter hmem with hmem | ⟨old, -, rfl⟩
  · exact h hbalanced ⟨waiter, hmem, hneeds⟩
  · exact h hbalanced (hpc hbalanced hneeds)

/-- The counters never exceed the number of ids. -/
theorem Accounted.settled_le {cap : Nat} (h : s.Accounted cap) :
    s.tasksCompletedCount + s.tasksRefusedCount ≤ s.tasksLastId := by
  have hcard := congrArg Multiset.card h.ok.partition
  simp only [Multiset.card_add, Multiset.coe_card, Multiset.card_range, Ledger.completedIds,
    List.length_map] at hcard
  have hissued : s.ledger.issued = s.tasksLastId := rfl
  rw [h.counted.completed_eq, h.counted.refused_eq]
  omega

/-- A refusal wakes nobody: while it balances the counters, either a worker is about to notify or no
waiter needs to be woken. -/
theorem wakersOk_refuse {c choice : Nat} {call : Call} (hc : s.calls[c]? = some call)
    (hpc : call.pc = .testing) (hfull : ¬s.tasks.length < s.tasksMaxCapacity)
    (hguard : NoWaiterInGap s (.callStep c choice)) :
    (({ s with tasksRefusedCount := s.tasksRefusedCount + 1 }.setCall c
      { call with refused := true, pc := .leaving }).emit (.refused call.id)).WakersOk := by
  rintro hbalanced ⟨waiter, hmem, hneeds⟩
  by_cases hnobody : ∀ v < s.workers.length, s.notifies v = false
  · have hrefuses : s.refuses c = true := by simp [refuses, hc, hpc, hfull]
    have hawake := hguard hrefuses hbalanced hnobody waiter hmem
    exact absurd (hneeds.symm.trans hawake) (by simp)
  · push Not at hnobody
    obtain ⟨v, -, hv⟩ := hnobody
    exact ⟨v, Bool.ne_false_iff.mp hv⟩

/-- A worker notifies: it is not the last one to do so, or it finds everybody asleep or up to date. -/
theorem wakersOk_notify {w : Nat} {outcome : Outcome ρ} {locked : Bool}
    (hw : s.workers[w]? = some (.notifying locked)) (hguard : NoWaiterInGap s (.workerStep w outcome)) :
    (s.notifyAllWaiters.setWorker w (if locked then .releasing else .loop)).WakersOk := by
  rintro hbalanced ⟨waiter, hmem, hneeds⟩
  obtain ⟨old, hold, rfl⟩ := List.mem_map.mp hmem
  have hset : ∀ v, (s.notifyAllWaiters.setWorker w
      (if locked then .releasing else .loop)).notifies v =
      if v = w then (if locked then .releasing else .loop : WorkerPc ρ).isNotifying
      else s.notifies v := any_set hw rfl
  by_cases hothers : ∀ v < s.workers.length, v ≠ w → s.notifies v = false
  · have hnotifies : s.notifies w = true := by
      rw [notifies, hw]
      rfl
    have hbehind := hguard hnotifies hbalanced hothers old hold
    rw [needsWake_notify] at hneeds
    exact absurd (hneeds.symm.trans hbehind) (by simp)
  · push Not at hothers
    obtain ⟨v, -, hne, hv⟩ := hothers
    refine ⟨v, (hset v).trans ?_⟩
    rw [if_neg hne]
    exact Bool.ne_false_iff.mp hv

/-- Every guarded step keeps a worker that is about to notify the waiters that need it. -/
theorem WakersOk.transition {cap : Nat} {a : Action ρ} (h : s.WakersOk) (hacc : s.Accounted cap)
    (hguard : NoWaiterInGap s a) (hs : Transition s a s') : s'.WakersOk := by
  cases hs with
  | callIssue c choice call hc hpc =>
      intro hbalanced
      have hle := hacc.settled_le
      have hbalanced : s.tasksCompletedCount + s.tasksRefusedCount = s.tasksLastId + 1 := hbalanced
      omega
  | callAccept c choice call hc hpc =>
      rcases notifyOne_cases (s := _) choice with ⟨heq, -⟩ | ⟨w, hw, heq⟩ <;> rw [heq]
      · exact h.frame rfl rfl rfl rfl fun _ hv => hv
      · exact h.frame rfl rfl rfl rfl (notifies_set hw rfl rfl)
  | callRefuse c choice call hc hpc hfull =>
      exact wakersOk_refuse hc hpc hfull hguard
  | workerCount w outcome taskMeta hw =>
      intro _ _
      have hnew : (({ s with tasksCompletedCount := s.tasksCompletedCount + 1 }.setWorker w
        (.notifying false)).emit (.completed taskMeta)).notifies w = true := by
        rw [notifies, any_set hw rfl, if_pos rfl]
        rfl
      exact ⟨w, hnew⟩
  | workerNotify w outcome locked hw =>
      exact wakersOk_notify hw hguard
  | workerLoop w outcome hw => exact h.frame rfl rfl rfl rfl (notifies_set hw rfl rfl)
  | workerLock w outcome pc hw hpc =>
      exact h.frame rfl rfl rfl rfl (notifies_set hw rfl (by rcases hpc with rfl | rfl <;> rfl))
  | workerCheck w outcome hw => exact h.frame rfl rfl rfl rfl (notifies_set hw rfl rfl)
  | workerSleep w outcome hw => exact h.frame rfl rfl rfl rfl (notifies_set hw rfl rfl)
  | workerStart w outcome task taskMeta rest hw =>
      exact h.frame rfl rfl rfl rfl (notifies_set hw rfl rfl)
  | workerSkip w outcome hw => exact h.frame rfl rfl rfl rfl (notifies_set hw rfl rfl)
  | workerRun w outcome task taskMeta hw =>
      exact h.frame rfl rfl rfl rfl (notifies_set hw rfl rfl)
  | workerCallback w outcome task taskMeta hw =>
      exact h.frame rfl rfl rfl rfl (notifies_set hw rfl rfl)
  | workerNoCallback w outcome task taskMeta hw =>
      exact h.frame rfl rfl rfl rfl (notifies_set hw rfl rfl)
  | workerUnlock w outcome hw => exact h.frame rfl rfl rfl rfl (notifies_set hw rfl rfl)
  | spuriousWorker w hw => exact h.frame rfl rfl rfl rfl (notifies_set hw rfl rfl)
  | stopNotify =>
      refine h.frame rfl rfl rfl rfl fun v hv => ?_
      show (s.notifyAllWorkers.workers[v]?).any WorkerPc.isNotifying = true
      rw [notifyAllWorkers, List.getElem?_map, Option.any_map]
      obtain ⟨pc, hpc, hnotifying⟩ := (Option.any_eq_true _ _).mp hv
      rw [hpc, Option.any_some]
      cases pc <;> first | rfl | cases hnotifying
  | waitAll =>
      rintro hbalanced ⟨waiter, hmem, hneeds⟩
      rcases List.mem_append.mp hmem with hmem | hmem
      · exact h hbalanced ⟨waiter, hmem, hneeds⟩
      · obtain rfl := List.mem_singleton.mp hmem
        cases hneeds
  | waiterLock i waiter hi => exact h.move _ fun _ hneeds => by cases hneeds
  | waiterReadCompleted i waiter hi =>
      refine h.move s.taskResultsAllMutex fun _ hneeds => ?_
      simp [WaiterPc.needsWake, WaiterPc.isBehind] at hneeds
  | waiterReadRefused i waiter completed hi hpc =>
      refine h.move s.taskResultsAllMutex fun _ hneeds => ⟨waiter, List.mem_of_getElem? hi, ?_⟩
      simpa [hpc, WaiterPc.needsWake, WaiterPc.isBehind] using hneeds
  | waiterReadLastId i waiter completed refused hi hpc =>
      refine h.move s.taskResultsAllMutex fun hbalanced hneeds =>
        ⟨waiter, List.mem_of_getElem? hi, ?_⟩
      split at hneeds
      · cases hneeds
      · rename_i hne
        simpa [hpc, WaiterPc.needsWake, WaiterPc.isBehind, hbalanced] using hne
  | waiterSleep i waiter hi hpc =>
      refine h.move none fun _ _ => ⟨waiter, List.mem_of_getElem? hi, ?_⟩
      rw [hpc]
      rfl
  | waiterReturn i waiter hi => exact h.move none fun _ hneeds => by cases hneeds
  | spuriousWaiter i waiter hi hpc =>
      exact h.move s.taskResultsAllMutex fun _ hneeds => by cases hneeds
  | _ => exact h.frame rfl rfl rfl rfl fun _ hv => hv

/-- In every guarded run a worker is about to notify the waiters that need it, once the counters are
balanced. -/
theorem wakersOk_invariant (threadsCount cap : Nat) :
    ((ThreadPool ρ threadsCount cap).guarded NoWaiterInGap).Invariant WakersOk where
  init s hs := by
    rw [show s = new threadsCount cap from hs]
    rintro - ⟨waiter, hmem, -⟩
    cases hmem
  step _ _ _ hs h hstep :=
    h.transition ((accounted_invariant threadsCount cap).reachable hs.of_guarded) hstep.1
      (transition_of_next hstep.2)

/-- With all workers asleep, an empty queue and no submission ahead, the counters are balanced. -/
theorem Accounted.balanced {cap : Nat} (h : s.Accounted cap)
    (hworkers : ∀ pc ∈ s.workers, pc = .asleep) (hqueue : s.tasks = [])
    (hcalls : ∀ call ∈ s.calls, call.pc ≠ .testing) :
    s.tasksCompletedCount + s.tasksRefusedCount = s.tasksLastId := by
  have hfly : s.inFlightIds = [] := by
    refine List.filterMap_eq_nil_iff.mpr fun call hmem => ?_
    have hpc := hcalls call hmem
    unfold Call.inFlight?
    split
    · exact absurd ‹_› hpc
    · rfl
  have hrunning : s.runningTasks = [] := by
    refine List.filterMap_eq_nil_iff.mpr fun pc hmem => ?_
    rw [hworkers pc hmem]
    rfl
  have hcard := congrArg Multiset.card h.ok.partition
  simp only [ledger, hfly, hrunning, hqueue, Ledger.queuedIds, Ledger.runningIds,
    Ledger.completedIds, Multiset.card_add, Multiset.coe_card, Multiset.card_range, List.map_nil,
    Multiset.coe_nil, Multiset.map_zero, Multiset.card_zero, List.length_map,
    Nat.zero_add] at hcard
  rw [h.counted.completed_eq, h.counted.refused_eq]
  exact hcard

end ThreadPoolState

/-- **When `wait_all` loses no wake-up.** In a run in which no completion is notified and no refusal
is counted while a waiter is in the gap, and no refusal settles the last task while a waiter
sleeps, nobody is left asleep in `wait_all` with nobody to wake it.
Source: `ThreadPool::wait_all`, `ThreadPool::run`, `ThreadPool::add_task` -/
theorem wait_all_wakes (threadsCount cap : Nat) (s : ThreadPoolState ρ)
    (hs : ((ThreadPool ρ threadsCount cap).guarded NoWaiterInGap).Reachable s) : ¬LostWakeup s := by
  intro hlost
  have hacc := (ThreadPoolState.accounted_invariant threadsCount cap).reachable hs.of_guarded
  have hbalanced := hacc.balanced hlost.workers hlost.queue fun call hmem =>
    (hlost.calls call hmem).2.2
  obtain ⟨waiter, hmem, hasleep⟩ := hlost.waiter
  obtain ⟨w, hw⟩ := (ThreadPoolState.wakersOk_invariant threadsCount cap).reachable hs hbalanced
    ⟨waiter, hmem, by rw [hasleep]; rfl⟩
  obtain ⟨pc, hpc, hnotifying⟩ := (Option.any_eq_true _ _).mp hw
  rw [hlost.workers pc (List.mem_of_getElem? hpc)] at hnotifying
  cases hnotifying

/-- One task without a callback is submitted and popped, and its body has ended. -/
def countingRun : List (Action Nat) :=
  [.addTask false true] ++ List.replicate 5 (.callStep 0 0) ++ List.replicate 6 (.workerStep 0 .threw)

/-- The waiter sleeps when the completion is counted and notified. -/
def wokenRun : List (Action Nat) :=
  countingRun ++ [.waitAll] ++ List.replicate 5 (.waiterStep 0) ++
    [.workerStep 0 .threw, .workerStep 0 .threw] ++ List.replicate 5 (.waiterStep 0) ++
    List.replicate 4 (.workerStep 0 .threw)

/-- The waiter has returned, the worker sleeps. -/
def wokenState : ThreadPoolState Nat :=
  (System.runFrom ThreadPoolState.next (.new 1 1) wokenRun).getD (.new 1 1)

/-- The waiter of the sample run has been woken. -/
theorem wait_all_wakes_wokenState :
    wokenState.waiters = [⟨.returned, [0]⟩] ∧ wokenState.workers = [.asleep] ∧
      ¬LostWakeup wokenState :=
  ⟨by decide, by decide, wait_all_wakes 1 1 wokenState
    (System.Reachable.runFrom_guarded wokenRun (.init rfl) rfl)⟩

/-- The waiter has read the completed count when the completion is counted and notified; then it
falls asleep. -/
def lostRun : List (Action Nat) :=
  countingRun ++ [.waitAll, .waiterStep 0, .waiterStep 0, .workerStep 0 .threw,
    .workerStep 0 .threw] ++ List.replicate 3 (.waiterStep 0) ++
    List.replicate 4 (.workerStep 0 .threw)

/-- The waiter and the worker sleep, and the only task is completed. -/
def lostState : ThreadPoolState Nat :=
  (System.runFrom ThreadPoolState.next (.new 1 1) lostRun).getD (.new 1 1)

/-- No room for tasks: the waiter reads the counters between the id and the refusal of a
submission, and sleeps when the refusal has been counted. -/
def refusedRun : List (Action Nat) :=
  [.addTask false true, .callStep 0 0, .callStep 0 0, .waitAll] ++
    List.replicate 5 (.waiterStep 0) ++ List.replicate 3 (.callStep 0 0) ++
    List.replicate 4 (.workerStep 0 .threw)

/-- The waiter and the worker sleep, and the only task was refused. -/
def refusedState : ThreadPoolState Nat :=
  (System.runFrom ThreadPoolState.next (.new 1 0) refusedRun).getD (.new 1 0)

/-- The notification of a completion is lost in the gap, and a refusal notifies nobody. -/
theorem wakeup_lost :
    (ThreadPool Nat 1 1).Reachable lostState ∧ LostWakeup lostState ∧
      (ThreadPool Nat 1 0).Reachable refusedState ∧ LostWakeup refusedState := by
  refine ⟨System.Reachable.runFrom lostRun (.init rfl) rfl, ?_,
    System.Reachable.runFrom refusedRun (.init rfl) rfl, ?_⟩
  · exact
      { waiter := by decide
        done := by unfold ThreadPoolState.Done; decide
        workers := by decide
        queue := by decide
        calls := by decide }
  · exact
      { waiter := by decide
        done := by unfold ThreadPoolState.Done; decide
        workers := by decide
        queue := by decide
        calls := by decide }

end SocialNetwork.Threads
