import SocialNetwork.Threads.Admission

/-!
# `wait_all` returns only when the earlier tasks are done

The predicate of `wait_all` reads three counters one after another while other threads run. If the
sum of the completed count read first and the refused count read second reaches the id counter read
last, then it had reached it already when the refused count was read, and at that moment nothing
was in flight, queued or being run. `WaiterOk` carries this from read to read: it mentions only
quantities that grow.
-/

namespace SocialNetwork.Threads

open Foundation

variable {ρ : Type}

namespace ThreadPoolState

variable (s : ThreadPoolState ρ)

/-- The task has been refused or counted as completed. -/
def Done (id : Nat) : Prop := id ∈ s.ledger.refused ∨ id ∈ s.ledger.completedIds

/-- What a call of `wait_all` knows where it is. -/
structure WaiterOk (waiter : Waiter) : Prop where
  /-- The earlier calls had taken their ids. -/
  before : ∀ id ∈ waiter.before, id < s.tasksLastId
  /-- The number read is a lower bound of the counter. -/
  completed : ∀ completed, waiter.pc = .readRefused completed → completed ≤ s.tasksCompletedCount
  /-- If no id has been issued beyond the numbers read, the earlier tasks are done. -/
  quiescent : ∀ completed refused, waiter.pc = .readLastId completed refused →
    s.tasksLastId ≤ completed + refused → ∀ id ∈ waiter.before, s.Done id
  /-- Past the predicate, the earlier tasks are done. -/
  done : waiter.pc = .leaving ∨ waiter.pc = .returned → ∀ id ∈ waiter.before, s.Done id

/-- Every call of `wait_all` is right about what it knows. -/
def WaitersOk : Prop := ∀ waiter ∈ s.waiters, s.WaiterOk waiter

variable {s} {s' : ThreadPoolState ρ}

/-- A task that is done stays done. -/
theorem Done.mono {id : Nat} (h : s.Done id) (hlog : s.log <+: s'.log) : s'.Done id :=
  h.imp (fun h => (hlog.filterMap _).subset h) fun h => ((hlog.filterMap _).map _).subset h

/-- The counters only grow. -/
theorem Counted.mono {cap : Nat} (h : s.Counted cap) (h' : s'.Counted cap)
    (hlog : s.log <+: s'.log) :
    s.tasksLastId ≤ s'.tasksLastId ∧ s.tasksCompletedCount ≤ s'.tasksCompletedCount := by
  refine ⟨?_, ?_⟩
  · have := (hlog.filterMap Event.issued?).length_le
    rwa [h.issued_eq, h'.issued_eq, List.length_range, List.length_range] at this
  · rw [h.completed_eq, h'.completed_eq]
    exact (hlog.filterMap _).length_le

/-- What a waiter has read stays true while the log grows. -/
theorem WaiterOk.mono {cap : Nat} {waiter : Waiter} (hw : s.WaiterOk waiter) (h : s.Counted cap)
    (h' : s'.Counted cap) (hlog : s.log <+: s'.log) : s'.WaiterOk waiter := by
  obtain ⟨hid, hcompleted⟩ := h.mono h' hlog
  exact
    { before := fun id hmem => (hw.before id hmem).trans_le hid
      completed := fun completed hpc => (hw.completed completed hpc).trans hcompleted
      quiescent := fun completed refused hpc hle id hmem =>
        (hw.quiescent completed refused hpc (hid.trans hle) id hmem).mono hlog
      done := fun hpc id hmem => (hw.done hpc id hmem).mono hlog }

/-- When the completed and refused counts make up the id counter, every issued id is done. -/
theorem Accounted.done_of_le {cap : Nat} (h : s.Accounted cap)
    (hle : s.tasksLastId ≤ s.tasksCompletedCount + s.tasksRefusedCount) {id : Nat}
    (hid : id < s.tasksLastId) : s.Done id := by
  obtain ⟨-, hok, hcount⟩ := h
  have hcard := congrArg Multiset.card hok.partition
  rw [hcount.completed_eq, hcount.refused_eq] at hle
  simp only [Multiset.card_add, Multiset.coe_card, Multiset.card_range, Ledger.completedIds,
    List.length_map] at hcard
  have hissued : s.ledger.issued = s.tasksLastId := rfl
  have hfly : s.ledger.inFlight = 0 := Multiset.card_eq_zero.mp (by omega)
  have hqueued : s.ledger.queuedIds = [] := List.length_eq_zero_iff.mp (by omega)
  have hrunning : s.ledger.runningIds = 0 := Multiset.card_eq_zero.mp (by omega)
  have hmem : id ∈ Multiset.range s.ledger.issued := Multiset.mem_range.mpr hid
  rw [← hok.partition, hfly, hqueued, hrunning] at hmem
  rcases Multiset.mem_add.mp hmem with hmem | hrefused
  · exact .inr (by simpa using hmem)
  · exact .inl hrefused

/-- A call that has returned had taken an id. -/
theorem Accounted.returnedIds_lt {cap : Nat} (h : s.Accounted cap) (hcalls : s.CallsOk) {id : Nat}
    (hid : id ∈ s.returnedIds) : id < s.tasksLastId := by
  obtain ⟨call, hmem, hcall⟩ := List.mem_filterMap.mp hid
  have hok := hcalls call hmem
  cases hpc : call.pc <;> simp only [hpc, Option.some.injEq, reduceCtorEq] at hcall
  case returned result =>
    subst hcall
    simp only [CallOk, hpc, Call.Decided] at hok
    cases hrefused : call.refused <;> simp only [hrefused, if_true, Bool.false_eq_true, if_false] at hok
    · refine h.ok.accepted_lt_issued (List.mem_map.mpr ⟨call.taskMeta, ?_, rfl⟩)
      exact List.mem_filterMap.mpr ⟨_, hok.1, rfl⟩
    · have hrange : call.id ∈ Multiset.range s.ledger.issued := by
        rw [← h.ok.partition]
        exact Multiset.mem_add.mpr (.inr (List.mem_filterMap.mpr ⟨_, hok.1, rfl⟩))
      exact Multiset.mem_range.mp hrange

/-! ## Every step keeps what the waiters know -/

/-- A place where a waiter knows nothing yet. -/
def WaiterPc.isBlank : WaiterPc → Bool
  | .readRefused _ | .readLastId _ _ | .leaving | .returned => false
  | _ => true

/-- At a place where it knows nothing yet, a waiter claims nothing but that the earlier calls had
their ids. -/
theorem WaiterOk.blank {waiter : Waiter} (h : s.WaiterOk waiter) (pc : WaiterPc)
    (hpc : WaiterPc.isBlank pc = true) : s.WaiterOk { waiter with pc := pc } where
  before := h.before
  completed completed h := by simp only at h; rw [h] at hpc; cases hpc
  quiescent completed refused h := by simp only at h; rw [h] at hpc; cases hpc
  done h := by rcases h with h | h <;> simp only at h <;> rw [h] at hpc <;> cases hpc

/-- A notification changes nothing of what a waiter has read. -/
theorem WaiterOk.notify {waiter : Waiter} (h : s.WaiterOk waiter) : s.WaiterOk waiter.notify := by
  unfold Waiter.notify
  split
  · exact h.blank .notified rfl
  · exact h

/-- The waiters after one of them has moved. -/
theorem mem_setWaiter {i : Nat} {pc : WaiterPc} {waiter : Waiter}
    (h : waiter ∈ (s.setWaiter i pc).waiters) :
    waiter ∈ s.waiters ∨ ∃ old, s.waiters[i]? = some old ∧ waiter = { old with pc := pc } := by
  obtain ⟨j, hj⟩ := List.getElem?_of_mem h
  rw [setWaiter, List.getElem?_modify] at hj
  obtain ⟨old, hold, hwaiter⟩ := Option.map_eq_some_iff.mp hj
  split at hwaiter
  · rename_i hij
    exact .inr ⟨old, hij ▸ hold, hwaiter.symm⟩
  · rw [← show old = waiter from hwaiter]
    exact .inl (List.mem_of_getElem? hold)

/-- A step that moves one waiter. -/
theorem WaitersOk.move {i : Nat} {pc : WaiterPc} {waiter : Waiter}
    (hothers : ∀ waiter ∈ s.waiters, s'.WaiterOk waiter)
    (hwaiters : s'.waiters = (s.setWaiter i pc).waiters) (hi : s.waiters[i]? = some waiter)
    (hmoved : s'.WaiterOk waiter → s'.WaiterOk { waiter with pc := pc }) : s'.WaitersOk := by
  intro other hmem
  rw [hwaiters] at hmem
  rcases mem_setWaiter hmem with hmem | ⟨old, hold, rfl⟩
  · exact hothers other hmem
  · obtain rfl : waiter = old := Option.some.inj (hi.symm.trans hold)
    exact hmoved (hothers waiter (List.mem_of_getElem? hi))

/-- Every step keeps what the waiters have read true. -/
theorem WaitersOk.transition {cap : Nat} {a : Action ρ} (h : s.WaitersOk)
    (hacc : s.Accounted cap) (hacc' : s'.Accounted cap) (hcalls : s.CallsOk)
    (hs : Transition s a s') : s'.WaitersOk := by
  have hothers : ∀ waiter ∈ s.waiters, s'.WaiterOk waiter := fun waiter hmem =>
    (h waiter hmem).mono hacc.counted hacc'.counted (log_transition hs)
  cases hs with
  | callAccept c choice call hc hpc hlt =>
      intro waiter hmem
      rw [notifyOne_waiters] at hmem
      exact hothers waiter hmem
  | workerNotify w outcome locked hw =>
      intro waiter hmem
      obtain ⟨old, hold, rfl⟩ := List.mem_map.mp hmem
      exact (hothers old hold).notify
  | waitAll =>
      intro waiter hmem
      rcases List.mem_append.mp hmem with hmem | hmem
      · exact hothers waiter hmem
      · obtain rfl := List.mem_singleton.mp hmem
        exact
          { before := fun id => hacc.returnedIds_lt hcalls
            completed := fun _ h => by cases h
            quiescent := fun _ _ h => by cases h
            done := fun h => by rcases h with h | h <;> cases h }
  | waiterLock i waiter hi hpc hfree =>
      exact WaitersOk.move hothers rfl hi fun hw => hw.blank _ rfl
  | waiterReadCompleted i waiter hi hpc =>
      refine WaitersOk.move hothers rfl hi fun hw => ?_
      exact
        { before := hw.before
          completed := fun completed h => by
            obtain rfl : s.tasksCompletedCount = completed := by simpa using h
            exact le_rfl
          quiescent := fun _ _ h => by cases h
          done := fun h => by rcases h with h | h <;> cases h }
  | waiterReadRefused i waiter completed hi hpc =>
      refine WaitersOk.move hothers rfl hi fun hw => ?_
      have hle : completed ≤ s.tasksCompletedCount := hw.completed completed hpc
      -- this is the instant at which the pool was quiescent, if the sum comes out right later
      exact
        { before := hw.before
          completed := fun _ h => by cases h
          quiescent := fun completed' refused' h hid id hmem => by
            obtain ⟨rfl, rfl⟩ : completed = completed' ∧ s.tasksRefusedCount = refused' := by
              simpa using h
            exact hacc'.done_of_le (hid.trans (Nat.add_le_add_right hle _)) (hw.before id hmem)
          done := fun h => by rcases h with h | h <;> cases h }
  | waiterReadLastId i waiter completed refused hi hpc =>
      refine WaitersOk.move hothers rfl hi fun hw => ?_
      exact
        { before := hw.before
          completed := fun _ h => by simp only at h; split at h <;> cases h
          quiescent := fun _ _ h => by simp only at h; split at h <;> cases h
          done := fun h => by
            have heq : completed + refused = s.tasksLastId := by
              by_contra hne
              simp [hne] at h
            exact hw.quiescent completed refused hpc heq.ge }
  | waiterSleep i waiter hi hpc =>
      exact WaitersOk.move hothers rfl hi fun hw => hw.blank _ rfl
  | waiterReturn i waiter hi hpc =>
      refine WaitersOk.move hothers rfl hi fun hw => ?_
      exact
        { before := hw.before
          completed := fun _ h => by cases h
          quiescent := fun _ _ h => by cases h
          done := fun _ => hw.done (.inl hpc) }
  | spuriousWaiter i waiter hi hpc =>
      exact WaitersOk.move hothers rfl hi fun hw => hw.blank _ rfl
  | _ => exact hothers

/-- What the waiters know is right in every reachable state. -/
theorem waitersOk_invariant (threadsCount cap : Nat) :
    (ThreadPool ρ threadsCount cap).Invariant WaitersOk where
  init s hs waiter hmem := by
    rw [show s = new threadsCount cap from hs] at hmem
    cases hmem
  step s a s' hs h hstep :=
    h.transition ((accounted_invariant threadsCount cap).reachable hs)
      ((accounted_invariant threadsCount cap).reachable (.step hs hstep))
      ((callsOk_invariant threadsCount cap).reachable hs) (transition_of_next hstep)

end ThreadPoolState

/-- The task with this id was refused, or its body and its non-null callback are over and counted;
it is neither queued nor being run. -/
structure Finished (s : ThreadPoolState ρ) (id : Nat) : Prop where
  settled : id ∈ s.ledger.refused ∨ ∃ task ∈ s.ledger.completed, task.id = id ∧ id ∈ s.ledger.ended ∧
    (task.cb = true → id ∈ s.ledger.callbacks)
  not_queued : id ∉ s.tasks.map fun entry => entry.2.id
  not_running : id ∉ s.runningTasks.map fun entry => entry.2.id

/-- A task that is done is finished. -/
theorem ThreadPoolState.Accounted.finished {cap : Nat} {s : ThreadPoolState ρ}
    (h : s.Accounted cap) {id : Nat} (hdone : s.Done id) : Finished s id := by
  have hok := h.ok
  have hout : id ∉ (s.ledger.inFlight + s.ledger.queuedIds + s.ledger.runningIds :
      Multiset Nat) := by
    have hnodup := hok.nodup
    rw [add_assoc _ (s.ledger.completedIds : Multiset Nat)] at hnodup
    refine Multiset.disjoint_right.mp (Multiset.nodup_add.mp hnodup).2.2 (Multiset.mem_add.mpr ?_)
    exact hdone.symm
  simp only [Multiset.mem_add, not_or] at hout
  refine ⟨?_, ?_, ?_⟩
  · rcases hdone with hrefused | hcompleted
    · exact .inl hrefused
    · obtain ⟨task, htask, rfl⟩ := List.mem_map.mp hcompleted
      refine .inr ⟨task, htask, rfl, hok.ended_completed htask, fun hcb => ?_⟩
      obtain ⟨e, he, hview⟩ := List.mem_filterMap.mp htask
      cases e <;> simp only [Event.completed?, Option.some.injEq, reduceCtorEq] at hview
      subst hview
      obtain ⟨pre, post, hlog⟩ := List.append_of_mem he
      have hpre := hok.callback_first pre _ post hlog hcb
      rw [Ledger.callbacks, hlog, List.filterMap_append]
      exact List.mem_append_left _ hpre
  · simpa [Ledger.queuedIds, ThreadPoolState.ledger] using hout.1.2
  · simpa [Ledger.runningIds, ThreadPoolState.ledger] using hout.2

end SocialNetwork.Threads
