import SocialNetwork.Threads.Accounting
import Mathlib.Data.Finset.Card

/-!
# Queued tasks do not wait behind sleeping workers

`add_task` puts a task into `tasks_` and calls `notify_one` while it holds `tasks_mutex_`. The
notified worker looks at the queue later, and another worker may have taken the task by then. The
history variable `pending` is the set of the workers that were notified and have not finished this
look: a worker looks twice under one hold of the mutex, in the wait predicate and in the `if` after
it. As long as somebody sleeps, no more tasks are queued than workers are pending.
-/

namespace SocialNetwork.Threads

open Foundation

variable {ρ : Type}

/-! ## Notified workers -/

/-- Awake again, with the look at the queue still ahead or under way. -/
def WorkerPc.isLooking : WorkerPc ρ → Bool
  | .notified | .checking | .awake => true
  | _ => false

/-- A worker is looking for a task when it is notified, awake, or checks the queue. -/
theorem WorkerPc.isLooking_iff {pc : WorkerPc ρ} :
    pc.isLooking = true ↔ pc = .notified ∨ pc = .checking ∨ pc = .awake := by
  cases pc <;> simp [isLooking]

namespace ThreadPoolState

/-- The worker is blocked on `tasks_condition_`. -/
def sleeps (s : ThreadPoolState ρ) (w : Nat) : Bool := (s.workers[w]?).any WorkerPc.isAsleep

/-- The worker has not finished its look at the queue. -/
def looks (s : ThreadPoolState ρ) (w : Nat) : Bool := (s.workers[w]?).any WorkerPc.isLooking

/-- The workers that a step of another thread has woken. -/
def woken (s s' : ThreadPoolState ρ) : Finset Nat :=
  (Finset.range s.workers.length).filter fun w => s.sleeps w && !s'.sleeps w

end ThreadPoolState

/-- The workers that were notified and have not finished their look at the queue. A spurious
wake-up is no notification. -/
def updatePending (pending : Finset Nat) (s : ThreadPoolState ρ) (a : Action ρ)
    (s' : ThreadPoolState ρ) : Finset Nat :=
  match a with
  | .callStep _ _ | .dtorStep => pending ∪ s.woken s'
  | .workerStep w _ => if s'.looks w then pending else pending.erase w
  | _ => pending

/-- The pool, with the workers that are pending. -/
def ObservedPool (ρ : Type) (threadsCount tasksCapacity : Nat) :
    System (ThreadPoolState ρ × Finset Nat) (Action ρ) :=
  (ThreadPool ρ threadsCount tasksCapacity).withHistory ∅ updatePending

namespace ThreadPoolState

variable {s s' : ThreadPoolState ρ} {pending : Finset Nat}

/-! ## Moving one worker -/

/-- A worker sleeps where its program counter says so. -/
theorem sleeps_iff {w : Nat} : s.sleeps w = true ↔ s.workers[w]? = some .asleep := by
  rw [sleeps, Option.any_eq_true]
  constructor
  · rintro ⟨pc, hpc, hasleep⟩
    rw [hpc, WorkerPc.eq_asleep hasleep]
  · exact fun h => ⟨_, h, rfl⟩

/-- A property of the place of a worker, after that worker has moved. -/
theorem any_set {p : WorkerPc ρ → Bool} {w : Nat} {pc pc' : WorkerPc ρ}
    (hw : s.workers[w]? = some pc) (hworkers : s'.workers = s.workers.set w pc') (v : Nat) :
    (s'.workers[v]?).any p = if v = w then p pc' else (s.workers[v]?).any p := by
  obtain ⟨hlt, -⟩ := List.getElem?_eq_some_iff.mp hw
  split
  · subst v
    simp [hworkers, hlt]
  · rename_i hne
    rw [hworkers, List.getElem?_set_ne (Ne.symm hne)]

/-- A worker that is about to sleep was so before another step. -/
theorem falling_of_set {w v : Nat} {pc pc' : WorkerPc ρ} (hw : s.workers[w]? = some pc)
    (hworkers : s'.workers = s.workers.set w pc') (hpc : pc' ≠ .falling)
    (hv : s'.workers[v]? = some .falling) : s.workers[v]? = some .falling := by
  by_cases hvw : v = w
  · obtain ⟨hlt, -⟩ := List.getElem?_eq_some_iff.mp hw
    subst v
    rw [hworkers, List.getElem?_set_self hlt] at hv
    exact absurd (Option.some.inj hv) hpc
  · rwa [hworkers, List.getElem?_set_ne (Ne.symm hvw)] at hv

/-- A worker that sleeps does not look. -/
theorem looks_of_sleeps {w : Nat} (h : s.sleeps w = true) : s.looks w = false := by
  rw [looks, sleeps_iff.mp h]
  rfl

/-- Nobody is woken where the workers stay where they are. -/
theorem woken_of_workers (h : s'.workers = s.workers) : s.woken s' = ∅ := by
  simp [woken, sleeps, h]

/-- The worker that is notified is woken. -/
theorem woken_setWorker {w : Nat} (h : s'.workers = s.workers) (hw : s.sleeps w = true) :
    s.woken (s'.setWorker w .notified) = {w} := by
  have hasleep : s'.workers[w]? = some .asleep := h ▸ sleeps_iff.mp hw
  have hset : (s'.setWorker w .notified).workers = s'.workers.set w .notified := rfl
  have hsleeps : ∀ v, (s'.setWorker w .notified).sleeps v = if v = w then false else s'.sleeps v :=
    any_set hasleep hset
  have hsame : ∀ v, s'.sleeps v = s.sleeps v := fun v => by rw [sleeps, sleeps, h]
  obtain ⟨hlt, -⟩ := List.getElem?_eq_some_iff.mp hasleep
  ext v
  simp only [woken, hsleeps, hsame, Finset.mem_filter, Finset.mem_range, Bool.and_eq_true,
    Finset.mem_singleton]
  constructor
  · rintro ⟨-, hv, hnot⟩
    by_contra hne
    simp [hne, hv] at hnot
  · rintro rfl
    exact ⟨h ▸ hlt, hw, by simp⟩

/-! ## The invariant -/

/-- What holds of the queue and the pending workers. -/
structure PendingOk (s : ThreadPoolState ρ) (pending : Finset Nat) : Prop where
  /-- A pending worker has not finished its look. -/
  looks : ∀ w ∈ pending, s.looks w = true
  /-- A worker that is about to sleep has seen an empty queue, and nobody has filled it since. -/
  falling : ∀ w : Nat, s.workers[w]? = some .falling → s.tasks = []
  /-- While somebody sleeps, every queued task has a pending worker. -/
  bound : s.threadsStop = false → (∃ w, s.sleeps w = true) → s.tasks.length ≤ pending.card

/-- A step that leaves the workers and the queue alone. -/
theorem PendingOk.frame (h : s.PendingOk pending) (hworkers : s'.workers = s.workers)
    (htasks : s'.tasks = s.tasks) (hstop : s'.threadsStop = false → s.threadsStop = false) :
    s'.PendingOk pending where
  looks w hw := by
    rw [ThreadPoolState.looks, hworkers]
    exact h.looks w hw
  falling w hw := by
    rw [hworkers] at hw
    rw [htasks]
    exact h.falling w hw
  bound hrun hsleep := by
    simp only [sleeps, hworkers] at hsleep
    rw [htasks]
    exact h.bound (hstop hrun) hsleep

/-- A step of a thread that could wake workers, and wakes none. -/
theorem PendingOk.frame_woken (h : s.PendingOk pending) (hworkers : s'.workers = s.workers)
    (htasks : s'.tasks = s.tasks) (hstop : s'.threadsStop = false → s.threadsStop = false) :
    s'.PendingOk (pending ∪ s.woken s') := by
  rw [woken_of_workers hworkers, Finset.union_empty]
  exact h.frame hworkers htasks hstop

/-- A step of a worker that leaves the queue alone. Only a worker that has seen an empty queue, or
the end of the pool, stops looking. -/
theorem PendingOk.move (h : s.PendingOk pending) {w : Nat} {outcome : Outcome ρ}
    {pc pc' : WorkerPc ρ} (hw : s.workers[w]? = some pc)
    (hworkers : s'.workers = s.workers.set w pc') (htasks : s'.tasks = s.tasks)
    (hstop : s'.threadsStop = s.threadsStop)
    (hempty : pc'.isAsleep = true ∨ pc' = .falling → s.tasks = [])
    (hlook : pc.isLooking = true → pc'.isLooking = true ∨ s.tasks = [] ∨ s.threadsStop = true) :
    s'.PendingOk (updatePending pending s (.workerStep w outcome) s') := by
  have hlooks : ∀ v, s'.looks v = if v = w then pc'.isLooking else s.looks v :=
    any_set hw hworkers
  have hsleeps : ∀ v, s'.sleeps v = if v = w then pc'.isAsleep else s.sleeps v :=
    any_set hw hworkers
  constructor
  · intro v hv
    simp only [updatePending] at hv
    split at hv
    · rename_i hlooking
      by_cases hvw : v = w
      · rw [hvw, hlooking]
      · rw [hlooks, if_neg hvw]
        exact h.looks v hv
    · obtain ⟨hvw, hv⟩ := Finset.mem_erase.mp hv
      rw [hlooks, if_neg hvw]
      exact h.looks v hv
  · intro v hv
    rw [htasks]
    by_cases hvw : v = w
    · obtain ⟨hlt, -⟩ := List.getElem?_eq_some_iff.mp hw
      subst v
      rw [hworkers, List.getElem?_set_self hlt, Option.some.injEq] at hv
      exact hempty (.inr hv)
    · rw [hworkers, List.getElem?_set_ne (Ne.symm hvw)] at hv
      exact h.falling v hv
  · intro hrun hsleep
    rw [htasks]
    by_cases hnil : s.tasks = []
    · rw [hnil]
      exact Nat.zero_le _
    rw [hstop] at hrun
    obtain ⟨v, hv⟩ := hsleep
    -- the worker that moved has not fallen asleep, so the sleeper was asleep before
    have hbefore : s.sleeps v = true := by
      rw [hsleeps] at hv
      split at hv
      · exact absurd (hempty (.inl hv)) hnil
      · exact hv
    refine (h.bound hrun ⟨v, hbefore⟩).trans_eq ?_
    simp only [updatePending]
    split
    · rfl
    · rename_i hlooking
      rw [hlooks, if_pos rfl] at hlooking
      have hnot : w ∉ pending := fun hmem => by
        have hpc : pc.isLooking = true := by
          have hold := h.looks w hmem
          rwa [ThreadPoolState.looks, hw] at hold
        rcases hlook hpc with hyes | hyes | hyes
        · exact hlooking hyes
        · exact hnil hyes
        · rw [hyes] at hrun
          cases hrun
      rw [Finset.erase_eq_of_notMem hnot]

/-! ## The two ends of the queue -/

/-- `notify_one` wakes a sleeper if there is one. -/
theorem notifyOne_wakes (s : ThreadPoolState ρ) (choice : Nat) :
    (s.notifyOne choice = s ∧ ∀ w, s.sleeps w = false) ∨
      ∃ w, s.sleeps w = true ∧ s.notifyOne choice = s.setWorker w .notified := by
  rcases s.notifyOne_cases choice with ⟨heq, hnobody⟩ | ⟨w, hw, heq⟩
  · refine .inl ⟨heq, fun w => ?_⟩
    rw [sleeps, Option.any_eq_false]
    intro pc hpc
    simpa using hnobody pc (List.mem_of_getElem? hpc)
  · exact .inr ⟨w, by rw [sleeps, hw]; rfl, heq⟩

/-- A sleeper is notified of a task that is queued. -/
theorem PendingOk.notified (h : s.PendingOk pending) {t : ThreadPoolState ρ} {w : Nat}
    {entry : PooledTask ρ × TaskMeta} (hworkers : t.workers = s.workers)
    (htasks : t.tasks = s.tasks ++ [entry]) (hstop : t.threadsStop = s.threadsStop)
    (hfalling : ∀ v : Nat, s.workers[v]? ≠ some .falling) (hw : s.sleeps w = true) :
    (t.setWorker w .notified).PendingOk (pending ∪ {w}) := by
  have hasleep : t.workers[w]? = some .asleep := hworkers ▸ sleeps_iff.mp hw
  have hset : (t.setWorker w .notified).workers = t.workers.set w .notified := rfl
  have hlooks : ∀ v, (t.setWorker w .notified).looks v = if v = w then true else t.looks v :=
    any_set hasleep hset
  -- a pending worker looks, and a sleeper does not
  have hnew : w ∉ pending := fun hmem => by
    have hold := h.looks w hmem
    rw [looks_of_sleeps hw] at hold
    cases hold
  constructor
  · intro v hv
    rw [hlooks]
    split
    · rfl
    · rename_i hne
      have hv : v ∈ pending := by simpa [hne] using hv
      rw [ThreadPoolState.looks, hworkers]
      exact h.looks v hv
  · intro v hv
    have hold := falling_of_set hasleep hset (fun heq => by cases heq) hv
    rw [hworkers] at hold
    exact absurd hold (hfalling v)
  · intro hrun hsleep
    have hrun' : s.threadsStop = false := hstop ▸ hrun
    have hbound := h.bound hrun' ⟨w, hw⟩
    have hlength : (t.setWorker w .notified).tasks.length = s.tasks.length + 1 := by
      rw [setWorker, htasks, List.length_append]
      rfl
    rw [hlength, Finset.union_comm, ← Finset.insert_eq, Finset.card_insert_of_notMem hnew]
    omega

/-- A task is queued, and a sleeper is notified of it. -/
theorem PendingOk.accept (h : s.PendingOk pending) (hexclusive : s.Exclusive) {c choice : Nat}
    {call call' : Call} {entry : PooledTask ρ × TaskMeta} {e : Event ρ}
    (hc : s.calls[c]? = some call) (hpc : call.pc = .testing) :
    ((({ s with tasks := s.tasks ++ [entry] }.setCall c call').emit e).notifyOne choice).PendingOk
      (updatePending pending s (.callStep c choice)
        ((({ s with tasks := s.tasks ++ [entry] }.setCall c call').emit e).notifyOne choice)) := by
  have hholder := (hexclusive (.call c)).mp (by rw [holds_call hc, hpc]; rfl)
  have hfalling : ∀ w : Nat, s.workers[w]? ≠ some .falling := fun w hw => by
    have hworker := (hexclusive (.worker w)).mp (by rw [holds_worker hw]; rfl)
    simp [hholder] at hworker
  generalize hqueued : ({ s with tasks := s.tasks ++ [entry] }.setCall c call').emit e = t
  have hworkers : t.workers = s.workers := by rw [← hqueued]; rfl
  have htasks : t.tasks = s.tasks ++ [entry] := by rw [← hqueued]; rfl
  have hstop : t.threadsStop = s.threadsStop := by rw [← hqueued]; rfl
  simp only [updatePending]
  rcases t.notifyOne_wakes choice with ⟨heq, hnobody⟩ | ⟨w, hw, heq⟩ <;> rw [heq]
  · rw [woken_of_workers hworkers, Finset.union_empty]
    constructor
    · intro v hv
      rw [ThreadPoolState.looks, hworkers]
      exact h.looks v hv
    · intro v hv
      rw [hworkers] at hv
      exact absurd hv (hfalling v)
    · intro _ hsleep
      obtain ⟨v, hv⟩ := hsleep
      rw [hnobody v] at hv
      cases hv
  · have hasleep : s.sleeps w = true := by rwa [sleeps, hworkers] at hw
    rw [woken_setWorker hworkers hasleep]
    exact h.notified hworkers htasks hstop hfalling hasleep

/-- A worker takes a task from the queue. -/
theorem PendingOk.pop (h : s.PendingOk pending) {w : Nat} {outcome : Outcome ρ} {pc : WorkerPc ρ}
    {task : PooledTask ρ} {taskMeta : TaskMeta} {rest : List (PooledTask ρ × TaskMeta)}
    (hw : s.workers[w]? = some pc) (htasks : s.tasks = (task, taskMeta) :: rest)
    (hworkers : s'.workers = s.workers.set w (.running task taskMeta)) (hrest : s'.tasks = rest)
    (hstop : s'.threadsStop = s.threadsStop) :
    s'.PendingOk (updatePending pending s (.workerStep w outcome) s') := by
  have hlooks : ∀ v, s'.looks v = if v = w then false else s.looks v := any_set hw hworkers
  have hsleeps : ∀ v, s'.sleeps v = if v = w then false else s.sleeps v := any_set hw hworkers
  have hpending : updatePending pending s (.workerStep w outcome) s' = pending.erase w := by
    simp [updatePending, hlooks]
  rw [hpending]
  constructor
  · intro v hv
    obtain ⟨hvw, hv⟩ := Finset.mem_erase.mp hv
    rw [hlooks, if_neg hvw]
    exact h.looks v hv
  · intro v hv
    have hold := falling_of_set hw hworkers (fun heq => by cases heq) hv
    have hnil := h.falling v hold
    rw [htasks] at hnil
    cases hnil
  · intro hrun hsleep
    obtain ⟨v, hv⟩ := hsleep
    rw [hsleeps] at hv
    split at hv
    · cases hv
    · have hbound := h.bound (hstop ▸ hrun) ⟨v, hv⟩
      rw [htasks, List.length_cons] at hbound
      rw [hrest]
      have hcard : pending.card - 1 ≤ (pending.erase w).card := Finset.pred_card_le_card_erase
      omega

/-! ## Every step -/

/-- The destructor notifies all workers. -/
theorem PendingOk.notifyAll (h : s.PendingOk pending) {dtor : DtorPc} :
    ({ s.notifyAllWorkers with dtor := dtor } : ThreadPoolState ρ).PendingOk
      (pending ∪ s.woken { s.notifyAllWorkers with dtor := dtor }) := by
  have hworkers : ∀ v : Nat, s.notifyAllWorkers.workers[v]? = (s.workers[v]?).map WorkerPc.notify :=
    fun v => List.getElem?_map
  constructor
  · intro v hv
    show (s.notifyAllWorkers.workers[v]?).any WorkerPc.isLooking = true
    rw [hworkers, Option.any_map]
    rcases Finset.mem_union.mp hv with hv | hv
    · obtain ⟨pc, hpc, hlook⟩ := (Option.any_eq_true _ _).mp (h.looks v hv)
      rw [hpc, Option.any_some]
      cases pc <;> first | rfl | cases hlook
    · have hsleeps := (Bool.and_eq_true_iff.mp (Finset.mem_filter.mp hv).2).1
      rw [sleeps_iff.mp hsleeps]
      rfl
  · intro v hv
    have hv : s.notifyAllWorkers.workers[v]? = some .falling := hv
    rw [hworkers] at hv
    obtain ⟨pc, hpc, hfalling⟩ := Option.map_eq_some_iff.mp hv
    refine h.falling v (hpc.trans (congrArg some ?_))
    cases pc <;> first | rfl | cases hfalling
  · intro _ hsleep
    obtain ⟨v, hv⟩ := hsleep
    have hv : (s.notifyAllWorkers.workers[v]?).any WorkerPc.isAsleep = true := hv
    rw [hworkers, Option.any_map] at hv
    obtain ⟨pc, -, hasleep⟩ := (Option.any_eq_true _ _).mp hv
    cases pc <;> cases hasleep

/-- A worker wakes up unasked. -/
theorem PendingOk.spurious (h : s.PendingOk pending) {w : Nat}
    (hw : s.workers[w]? = some .asleep) : (s.setWorker w .notified).PendingOk pending := by
  have hset : (s.setWorker w .notified).workers = s.workers.set w .notified := rfl
  have hlooks : ∀ v, (s.setWorker w .notified).looks v = if v = w then true else s.looks v :=
    any_set hw hset
  have hsleeps : ∀ v, (s.setWorker w .notified).sleeps v = if v = w then false else s.sleeps v :=
    any_set hw hset
  constructor
  · intro v hv
    rw [hlooks]
    split
    · rfl
    · exact h.looks v hv
  · intro v hv
    exact h.falling v (falling_of_set hw hset (fun heq => by cases heq) hv)
  · intro hrun hsleep
    obtain ⟨v, hv⟩ := hsleep
    rw [hsleeps] at hv
    split at hv
    · cases hv
    · exact h.bound hrun ⟨v, hv⟩

/-- Every step keeps the pending wake-ups right. -/
theorem PendingOk.transition {a : Action ρ} (h : s.PendingOk pending) (hexclusive : s.Exclusive)
    (hs : Transition s a s') : s'.PendingOk (updatePending pending s a s') := by
  cases hs with
  | addTask => exact h.frame rfl rfl id
  | callLock => exact h.frame_woken rfl rfl id
  | callIssue => exact h.frame_woken rfl rfl id
  | callAccept c choice call hc hpc => exact h.accept hexclusive hc hpc
  | callRefuse => exact h.frame_woken rfl rfl id
  | callUnlock => exact h.frame_woken rfl rfl id
  | callReport => exact h.frame_woken rfl rfl id
  | callReturn => exact h.frame_woken rfl rfl id
  | callReturnNull => exact h.frame_woken rfl rfl id
  | workerLoop w outcome hw =>
      refine h.move hw rfl rfl rfl (fun hpc => ?_) fun hlook => by cases hlook
      split at hpc <;> simp [WorkerPc.isAsleep] at hpc
  | workerLock w outcome pc hw hpc =>
      exact h.move hw rfl rfl rfl (fun hpc => by simp [WorkerPc.isAsleep] at hpc)
        fun _ => .inl rfl
  | workerCheck w outcome hw =>
      cases hsees : (!s.tasks.isEmpty || s.threadsStop) with
      | true =>
          simp only [if_true]
          exact h.move hw rfl rfl rfl (fun hpc => by simp [WorkerPc.isAsleep] at hpc)
            fun _ => .inl rfl
      | false =>
          have hnil : s.tasks = [] := by simpa using (Bool.or_eq_false_iff.mp hsees).1
          simp only [Bool.false_eq_true, if_false]
          exact h.move hw rfl rfl rfl (fun _ => hnil) fun _ => .inr (.inl hnil)
  | workerSleep w outcome hw =>
      exact h.move hw rfl rfl rfl (fun _ => h.falling w hw) fun hlook => by cases hlook
  | workerStart w outcome task taskMeta rest hw htasks hstop =>
      exact h.pop hw htasks rfl rfl rfl
  | workerSkip w outcome hw hskip =>
      exact h.move hw rfl rfl rfl (fun hpc => by simp [WorkerPc.isAsleep] at hpc)
        fun _ => .inr hskip
  | workerRun w outcome task taskMeta hw =>
      exact h.move hw rfl rfl rfl (fun hpc => by simp [WorkerPc.isAsleep] at hpc)
        fun hlook => by cases hlook
  | workerCallback w outcome task taskMeta hw =>
      exact h.move hw rfl rfl rfl (fun hpc => by simp [WorkerPc.isAsleep] at hpc)
        fun hlook => by cases hlook
  | workerNoCallback w outcome task taskMeta hw =>
      exact h.move hw rfl rfl rfl (fun hpc => by simp [WorkerPc.isAsleep] at hpc)
        fun hlook => by cases hlook
  | workerCount w outcome taskMeta hw =>
      exact h.move hw rfl rfl rfl (fun hpc => by simp [WorkerPc.isAsleep] at hpc)
        fun hlook => by cases hlook
  | workerNotify w outcome locked hw =>
      refine h.move hw rfl rfl rfl (fun hpc => ?_) fun hlook => by cases hlook
      split at hpc <;> simp [WorkerPc.isAsleep] at hpc
  | workerUnlock w outcome hw =>
      exact h.move hw rfl rfl rfl (fun hpc => by simp [WorkerPc.isAsleep] at hpc)
        fun hlook => by cases hlook
  | waitAll => exact h.frame rfl rfl id
  | waiterLock => exact h.frame rfl rfl id
  | waiterReadCompleted => exact h.frame rfl rfl id
  | waiterReadRefused => exact h.frame rfl rfl id
  | waiterReadLastId => exact h.frame rfl rfl id
  | waiterSleep => exact h.frame rfl rfl id
  | waiterReturn => exact h.frame rfl rfl id
  | stop => exact h.frame_woken rfl rfl fun hrun => by cases hrun
  | stopNotify => exact h.notifyAll
  | join => exact h.frame_woken rfl rfl id
  | spuriousWorker w hw => exact h.spurious hw
  | spuriousWaiter => exact h.frame rfl rfl id

/-- The invariant holds of every observed run. -/
theorem pendingOk_invariant (threadsCount cap : Nat) :
    (ObservedPool ρ threadsCount cap).Invariant fun p => p.1.PendingOk p.2 where
  init p hp := by
    obtain ⟨hnew, hempty⟩ := hp
    rw [hempty, show p.1 = new threadsCount cap from hnew]
    refine ⟨fun w hw => by simp at hw, fun w hw => rfl, fun _ _ => Nat.zero_le _⟩
  step p a p' hp h hstep := by
    have hacc := (accounted_invariant threadsCount cap).reachable hp.of_withHistory
    rw [hstep.2]
    exact h.transition hacc.exclusive (transition_of_next hstep.1)

/-- The number of workers does not change. -/
theorem workers_length_invariant (threadsCount cap : Nat) :
    (ThreadPool ρ threadsCount cap).Invariant fun s => s.workers.length = threadsCount where
  init s hs := by
    rw [show s = new threadsCount cap from hs]
    exact List.length_replicate
  step s a s' _ h hstep := by
    cases transition_of_next hstep with
    | callAccept c choice call hc hpc =>
        rcases notifyOne_cases (s := _) choice with ⟨heq, -⟩ | ⟨w, -, heq⟩ <;> rw [heq]
        · exact h
        · simpa [setWorker, emit, setCall] using h
    | stopNotify => simpa [notifyAllWorkers] using h
    | _ => first | exact h | simpa [setWorker, emit, setMutex, notifyAllWaiters] using h

end ThreadPoolState

/-- **The pool is work-conserving.** As long as it is not being stopped and some worker sleeps, no
more tasks are queued than workers were notified and have not finished their look at the queue:
each of these is on its way to `tasks_mutex_`, or holds it in front of the wait predicate or of the
`if` behind it. With at least one worker, a queued task never finds all workers asleep.
Source: `ThreadPool::add_task`, `ThreadPool::run` -/
theorem work_conserving (threadsCount cap : Nat) (hcount : 1 ≤ threadsCount) :
    (∀ p, (ObservedPool ρ threadsCount cap).Reachable p → p.1.threadsStop = false →
      (∃ w : Nat, p.1.workers[w]? = some .asleep) → p.1.tasks.length ≤ p.2.card ∧
        ∀ w ∈ p.2, ∃ pc : WorkerPc ρ, p.1.workers[w]? = some pc ∧
          (pc = .notified ∨ pc = .checking ∨ pc = .awake)) ∧
    ∀ s, (ThreadPool ρ threadsCount cap).Reachable s → s.threadsStop = false → s.tasks ≠ [] →
      ∃ pc ∈ s.workers, pc ≠ .asleep := by
  constructor
  · intro p hp hrun hsleep
    have hok := (ThreadPoolState.pendingOk_invariant threadsCount cap).reachable hp
    obtain ⟨w, hw⟩ := hsleep
    refine ⟨hok.bound hrun ⟨w, ThreadPoolState.sleeps_iff.mpr hw⟩, fun v hv => ?_⟩
    obtain ⟨pc, hpc, hlook⟩ := (Option.any_eq_true _ _).mp (hok.looks v hv)
    exact ⟨pc, hpc, WorkerPc.isLooking_iff.mp hlook⟩
  · intro s hs hrun htasks
    obtain ⟨pending, hp⟩ := hs.exists_history ∅ updatePending
    have hok := (ThreadPoolState.pendingOk_invariant threadsCount cap).reachable hp
    have hlength := (ThreadPoolState.workers_length_invariant threadsCount cap).reachable hs
    by_contra hall
    push Not at hall
    have hfirst : s.workers[0]? = some .asleep := by
      rw [List.getElem?_eq_getElem (by omega), hall _ (List.getElem_mem _)]
    -- with everybody asleep nobody is pending, so the queue is empty
    have hnone : pending = ∅ := by
      refine Finset.eq_empty_of_forall_notMem fun w hw => ?_
      obtain ⟨pc, hpc, hlook⟩ := (Option.any_eq_true _ _).mp (hok.looks w hw)
      rw [hall pc (List.mem_of_getElem? hpc)] at hlook
      cases hlook
    have hbound := hok.bound hrun ⟨0, ThreadPoolState.sleeps_iff.mpr hfirst⟩
    rw [hnone, Finset.card_empty, Nat.le_zero, List.length_eq_zero_iff] at hbound
    exact htasks hbound

/-- Two workers fall asleep, then a task is queued. -/
def queuedRun : List (Action Nat) :=
  List.replicate 4 (.workerStep 0 .threw) ++ List.replicate 4 (.workerStep 1 .threw) ++
    [.addTask false true, .callStep 0 0, .callStep 0 0, .callStep 0 0]

/-- The first worker is notified, the second one sleeps. -/
def queuedState : ThreadPoolState Nat :=
  (System.runFrom ThreadPoolState.next (.new 2 2) queuedRun).getD (.new 2 2)

/-- In the sample a task waits, and a worker is on its way to it. -/
theorem work_conserving_queuedState :
    queuedState.tasks.length = 1 ∧ queuedState.workers = [.notified, .asleep] ∧
      ∃ pc ∈ queuedState.workers, pc ≠ .asleep :=
  ⟨by decide, by decide, (work_conserving 2 2 (by decide)).2 queuedState
    (System.Reachable.runFrom queuedRun (.init rfl) rfl) (by decide) (by decide)⟩

end SocialNetwork.Threads
