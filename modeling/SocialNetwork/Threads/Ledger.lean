import SocialNetwork.Threads.ThreadPool
import Mathlib.Data.Multiset.Range
import Mathlib.Algebra.Order.Group.Multiset
import Mathlib.Tactic.Abel

/-!
# The ledger of a thread pool: the life of a task

What a `ThreadPool` is for, without its threads, mutexes and condition variables: an id is issued
to a submission, the submission is accepted into a FIFO queue or refused, an accepted task is
started, its body ends, its callback is invoked if it has one, and its completion is counted. The
`Ledger` records where every id is and the log of what happened; `Ledger.Step` is one such move.

`Ledger.Ok` is what holds of every run of these moves: every issued id is in exactly one place, in
the queue and among the started tasks ids are in increasing order, and a callback is invoked exactly
once, before the completion is counted. `Accounting.lean` shows that every step of the modelled
`ThreadPool` is a move of its ledger or leaves the ledger alone.
-/

namespace SocialNetwork.Threads

variable {ρ : Type}

/-! ## Reading the log -/

/-- The id that an event issues. -/
def Event.issued? : Event ρ → Option Nat
  | .issued id => some id
  | _ => none

/-- The task that an event accepts. -/
def Event.accepted? : Event ρ → Option TaskMeta
  | .accepted task => some task
  | _ => none

/-- The id that an event refuses. -/
def Event.refused? : Event ρ → Option Nat
  | .refused id => some id
  | _ => none

/-- The id that an event starts. -/
def Event.started? : Event ρ → Option Nat
  | .started task => some task.id
  | _ => none

/-- The id whose body an event ends. -/
def Event.ended? : Event ρ → Option Nat
  | .ended task _ => some task.id
  | _ => none

/-- The id whose callback an event invokes. -/
def Event.callback? : Event ρ → Option Nat
  | .callback id _ => some id
  | _ => none

/-- The task that an event completes. -/
def Event.completed? : Event ρ → Option TaskMeta
  | .completed task => some task
  | _ => none

/-- How far a popped task has come. -/
inductive Stage
  | body
  | ended
  | counting
  deriving DecidableEq, Repr

/-- Where every id is, and what happened. -/
structure Ledger (ρ : Type) where
  /-- The next id. -/
  issued : Nat
  /-- Issued, neither accepted nor refused. -/
  inFlight : Multiset Nat
  /-- Accepted and waiting, oldest first. -/
  queue : List TaskMeta
  /-- Popped and not counted. -/
  running : Multiset (Stage × TaskMeta)
  log : List (Event ρ)

namespace Ledger

variable (L : Ledger ρ)

/-- The accepted tasks in the order of acceptance. -/
def accepted : List TaskMeta := L.log.filterMap Event.accepted?

/-- The refused ids. -/
def refused : List Nat := L.log.filterMap Event.refused?

/-- The started ids in the order of their starts. -/
def started : List Nat := L.log.filterMap Event.started?

/-- The ids whose bodies ended. -/
def ended : List Nat := L.log.filterMap Event.ended?

/-- The ids whose callbacks were invoked, with repetitions. -/
def callbacks : List Nat := L.log.filterMap Event.callback?

/-- The tasks counted as completed. -/
def completed : List TaskMeta := L.log.filterMap Event.completed?

/-- The ids in the queue. -/
def queuedIds : List Nat := L.queue.map TaskMeta.id

/-- The ids of the popped tasks that are not counted. -/
def runningIds : Multiset Nat := L.running.map fun x => x.2.id

/-- The ids counted as completed. -/
def completedIds : List Nat := L.completed.map TaskMeta.id

/-- One move in the life of a task. An id is issued only when no other is in flight: issuing,
accepting and refusing happen in one critical section. -/
inductive Step : Ledger ρ → Ledger ρ → Prop
  | issue (L : Ledger ρ) : L.inFlight = 0 →
      Step L { L with issued := L.issued + 1, inFlight := {L.issued},
                      log := L.log ++ [.issued L.issued] }
  | accept (L : Ledger ρ) (task : TaskMeta) : L.inFlight = {task.id} →
      Step L { L with inFlight := 0, queue := L.queue ++ [task], log := L.log ++ [.accepted task] }
  | refuse (L : Ledger ρ) (id : Nat) : L.inFlight = {id} →
      Step L { L with inFlight := 0, log := L.log ++ [.refused id] }
  | start (L : Ledger ρ) (task : TaskMeta) (rest : List TaskMeta) : L.queue = task :: rest →
      Step L { L with queue := rest, running := (.body, task) ::ₘ L.running,
                      log := L.log ++ [.started task] }
  | finish (L : Ledger ρ) (task : TaskMeta) (threw : Bool) (rest : Multiset (Stage × TaskMeta)) :
      L.running = (.body, task) ::ₘ rest →
      Step L { L with running := (.ended, task) ::ₘ rest, log := L.log ++ [.ended task threw] }
  | callback (L : Ledger ρ) (task : TaskMeta) (result : Option ρ)
      (rest : Multiset (Stage × TaskMeta)) :
      L.running = (.ended, task) ::ₘ rest → task.cb = true →
      Step L { L with running := (.counting, task) ::ₘ rest,
                      log := L.log ++ [.callback task.id result] }
  | noCallback (L : Ledger ρ) (task : TaskMeta) (rest : Multiset (Stage × TaskMeta)) :
      L.running = (.ended, task) ::ₘ rest → task.cb = false →
      Step L { L with running := (.counting, task) ::ₘ rest }
  | complete (L : Ledger ρ) (task : TaskMeta) (rest : Multiset (Stage × TaskMeta)) :
      L.running = (.counting, task) ::ₘ rest →
      Step L { L with running := rest, log := L.log ++ [.completed task] }

/-- The tasks whose callback must have been invoked by now: those about to be counted and those
counted, if they have one. -/
def owedCallbacks : Multiset Nat :=
  ((L.running.filter fun x => x.1 = .counting ∧ x.2.cb = true).map fun x => x.2.id) +
    ↑((L.completed.filter (·.cb)).map TaskMeta.id)

/-- The tasks whose bodies must have ended by now: those popped and past their body, and those
counted. -/
def pastBody : Multiset Nat :=
  ((L.running.filter fun x => x.1 ≠ .body).map fun x => x.2.id) + ↑L.completedIds

/-- What holds along every run of ledger moves. -/
structure Ok : Prop where
  /-- Every issued id is in exactly one place. -/
  partition : (L.inFlight + L.queuedIds + L.runningIds + L.completedIds + L.refused : Multiset Nat) =
    Multiset.range L.issued
  /-- Every accepted task is queued, running or completed, with the callback it came with. -/
  accepted_eq : (L.accepted : Multiset TaskMeta) =
    L.queue + L.running.map Prod.snd + L.completed
  /-- First in, first out: the started ids followed by the queued ids are the accepted ids. -/
  fifo : L.accepted.map TaskMeta.id = L.started ++ L.queuedIds
  /-- Ids are accepted in increasing order. -/
  order : (L.accepted.map TaskMeta.id).Pairwise (· < ·)
  /-- All of them were issued before the id in flight. -/
  before_inFlight : ∀ id ∈ L.inFlight, ∀ x ∈ L.accepted.map TaskMeta.id, x < id
  /-- Callbacks are invoked exactly where they are owed. -/
  callbacks_eq : (L.callbacks : Multiset Nat) = L.owedCallbacks
  /-- When a completion is counted, the callback is already in the log. -/
  callback_first : ∀ pre task post, L.log = pre ++ .completed task :: post → task.cb = true →
    task.id ∈ pre.filterMap Event.callback?
  /-- Bodies have ended exactly for the tasks that are past them. -/
  ended_eq : (L.ended : Multiset Nat) = L.pastBody

/-- Splitting a log that has grown by one event. -/
theorem append_singleton_eq_iff {α : Type*} {l pre post : List α} {e x : α} :
    l ++ [e] = pre ++ x :: post ↔
      (post = [] ∧ pre = l ∧ x = e) ∨ ∃ post', post = post' ++ [e] ∧ l = pre ++ x :: post' := by
  rcases List.eq_nil_or_concat post with rfl | ⟨post', y, rfl⟩
  · constructor
    · intro h
      have := List.append_inj' h rfl
      exact .inl ⟨rfl, this.1.symm, by simpa using this.2.symm⟩
    · rintro (⟨-, rfl, rfl⟩ | ⟨post', h, -⟩)
      · rfl
      · simp at h
  · rw [List.concat_eq_append, ← List.cons_append, ← List.append_assoc]
    constructor
    · intro h
      have := List.append_inj' h rfl
      exact .inr ⟨post', by rw [show e = y by simpa using this.2], this.1⟩
    · rintro (⟨h, -⟩ | ⟨post'', h, rfl⟩)
      · simp at h
      · have := List.append_inj' h rfl
        rw [← this.1, show y = e by simpa using this.2]

/-- What a log that has grown by one event contributes. -/
theorem filterMap_log {β : Type*} (f : Event ρ → Option β) (log : List (Event ρ)) (e : Event ρ) :
    (log ++ [e]).filterMap f = log.filterMap f ++ (f e).toList := by
  rw [List.filterMap_append]
  cases h : f e <;> simp [h]

/-! ## Every move keeps the books -/

section moves

variable {L} {L' : Ledger ρ}

/-- The partition survives every move: an id leaves one place and enters the next. -/
theorem Ok.step_partition (h : L.Ok) (hs : Step L L') :
    (L'.inFlight + L'.queuedIds + L'.runningIds + L'.completedIds + L'.refused : Multiset Nat) =
      Multiset.range L'.issued := by
  have hp := h.partition
  simp only [queuedIds, runningIds, completedIds, completed, refused] at hp ⊢
  cases hs with
  | issue hfree =>
      rw [hfree] at hp
      rw [Multiset.range_succ, ← Multiset.singleton_add, ← hp]
      simp only [filterMap_log, Event.completed?, Event.refused?, Option.toList, List.append_nil]
      abel
  | accept task hfly =>
      rw [hfly] at hp
      simp only [← hp, filterMap_log, Event.completed?, Event.refused?, Option.toList,
        List.append_nil, List.map_append, List.map_cons, List.map_nil, ← Multiset.coe_add,
        Multiset.coe_singleton]
      abel
  | refuse id hfly =>
      rw [hfly] at hp
      simp only [← hp, filterMap_log, Event.completed?, Event.refused?, Option.toList,
        List.append_nil, ← Multiset.coe_add, Multiset.coe_singleton]
      abel
  | start task rest hq =>
      simp only [hq, ← Multiset.cons_coe, List.map_cons] at hp
      simp only [← hp, filterMap_log, Event.completed?, Event.refused?, Option.toList,
        List.append_nil, ← Multiset.singleton_add, Multiset.map_add, Multiset.map_singleton]
      abel
  | finish task threw rest hrun =>
      simpa only [hrun, Multiset.map_cons, filterMap_log, Event.completed?, Event.refused?,
        Option.toList, List.append_nil] using hp
  | callback task result rest hrun hcb =>
      simpa only [hrun, Multiset.map_cons, filterMap_log, Event.completed?, Event.refused?,
        Option.toList, List.append_nil] using hp
  | noCallback task rest hrun hcb => simpa only [hrun, Multiset.map_cons] using hp
  | complete task rest hrun =>
      simp only [hrun, ← Multiset.singleton_add, Multiset.map_add, Multiset.map_singleton] at hp
      simp only [← hp, filterMap_log, Event.completed?, Event.refused?, Option.toList,
        List.append_nil, List.map_append, List.map_cons, List.map_nil, ← Multiset.coe_add,
        Multiset.coe_singleton]
      abel

/-- A task keeps its callback on its way through the pool. -/
theorem Ok.step_accepted_eq (h : L.Ok) (hs : Step L L') :
    (L'.accepted : Multiset TaskMeta) =
      L'.queue + L'.running.map Prod.snd + L'.completed := by
  have hp := h.accepted_eq
  simp only [accepted, completed] at hp ⊢
  cases hs with
  | issue hfree =>
      simpa only [filterMap_log, Event.completed?, Event.accepted?, Option.toList,
        List.append_nil] using hp
  | accept task hfly =>
      simp only [filterMap_log, Event.completed?, Event.accepted?, Option.toList, List.append_nil,
        ← Multiset.coe_add, hp, Multiset.coe_singleton]
      abel
  | refuse id hfly =>
      simpa only [filterMap_log, Event.completed?, Event.accepted?, Option.toList,
        List.append_nil] using hp
  | start task rest hq =>
      simp only [hq, ← Multiset.cons_coe] at hp
      simp only [hp, filterMap_log, Event.completed?, Event.accepted?, Option.toList,
        List.append_nil, ← Multiset.singleton_add, Multiset.map_add, Multiset.map_singleton]
      abel
  | finish task threw rest hrun =>
      simpa only [hrun, Multiset.map_cons, filterMap_log, Event.completed?, Event.accepted?,
        Option.toList, List.append_nil] using hp
  | callback task result rest hrun hcb =>
      simpa only [hrun, Multiset.map_cons, filterMap_log, Event.completed?, Event.accepted?,
        Option.toList, List.append_nil] using hp
  | noCallback task rest hrun hcb => simpa only [hrun, Multiset.map_cons] using hp
  | complete task rest hrun =>
      simp only [hrun, ← Multiset.singleton_add, Multiset.map_add, Multiset.map_singleton] at hp
      simp only [hp, filterMap_log, Event.completed?, Event.accepted?, Option.toList,
        List.append_nil, ← Multiset.coe_add, Multiset.coe_singleton]
      abel

/-- The queue is first in, first out. -/
theorem Ok.step_fifo (h : L.Ok) (hs : Step L L') :
    L'.accepted.map TaskMeta.id = L'.started ++ L'.queuedIds := by
  have hp := h.fifo
  simp only [accepted, started, queuedIds] at hp ⊢
  cases hs with
  | start task rest hq =>
      simpa [hq, List.filterMap_cons, Event.accepted?, Event.started?] using hp
  | accept task hfly => simp [hp, List.filterMap_cons, Event.accepted?, Event.started?]
  | _ => simpa only [filterMap_log, Event.accepted?, Event.started?, Option.toList,
      List.append_nil] using hp

/-- Accepting the id in flight keeps the order, since that id is the largest so far. -/
theorem Ok.step_order (h : L.Ok) (hs : Step L L') :
    (L'.accepted.map TaskMeta.id).Pairwise (· < ·) := by
  have hp := h.order
  have hlt := h.before_inFlight
  simp only [accepted] at hp hlt ⊢
  cases hs with
  | accept task hfly =>
      simp only [List.filterMap_append, List.map_append, List.pairwise_append]
      refine ⟨hp, by simp [Event.accepted?], fun x hx y hy => ?_⟩
      obtain rfl : y = task.id := by simpa [Event.accepted?] using hy
      exact hlt _ (by simp [hfly]) x hx
  | _ => simpa only [filterMap_log, Event.accepted?, Option.toList, List.append_nil] using hp

/-- An accepted id was issued. -/
theorem Ok.accepted_lt_issued (h : L.Ok) {x : Nat} (hx : x ∈ L.accepted.map TaskMeta.id) :
    x < L.issued := by
  rw [← Multiset.mem_range, ← h.partition]
  have hmem : x ∈ (L.accepted : Multiset TaskMeta).map TaskMeta.id := by simpa using hx
  rw [h.accepted_eq] at hmem
  simp only [Multiset.map_add, Multiset.map_map, Multiset.mem_add] at hmem ⊢
  rcases hmem with (hq | hr) | hc
  · exact .inl (.inl (.inl (.inr (by simpa [queuedIds] using hq))))
  · exact .inl (.inl (.inr hr))
  · exact .inl (.inr (by simpa [completedIds] using hc))

theorem Ok.step_before_inFlight (h : L.Ok) (hs : Step L L') :
    ∀ id ∈ L'.inFlight, ∀ x ∈ L'.accepted.map TaskMeta.id, x < id := by
  have hp := h.before_inFlight
  have hlt := fun x => h.accepted_lt_issued (x := x)
  simp only [accepted] at hp hlt ⊢
  cases hs with
  | issue hfree =>
      intro id hid x hx
      obtain rfl : id = L.issued := by simpa using hid
      exact hlt x (by simpa [List.filterMap_cons, Event.accepted?] using hx)
  | accept task hfly => simp
  | refuse id hfly => simp
  | _ => simpa only [filterMap_log, Event.accepted?, Option.toList, List.append_nil] using hp

/-- Invoking a callback pays what the task owes from then on. -/
theorem Ok.step_callbacks_eq (h : L.Ok) (hs : Step L L') :
    (L'.callbacks : Multiset Nat) = L'.owedCallbacks := by
  have hp := h.callbacks_eq
  simp only [callbacks, owedCallbacks, completed] at hp ⊢
  cases hs with
  | start task rest hq =>
      simpa [List.filterMap_cons, Event.callback?, Event.completed?] using hp
  | finish task threw rest hrun =>
      simpa [hrun, List.filterMap_cons, Event.callback?, Event.completed?] using hp
  | callback task result rest hrun hcb =>
      rw [hrun, Multiset.filter_cons_of_neg _ (by simp)] at hp
      rw [Multiset.filter_cons_of_pos _ ⟨rfl, hcb⟩]
      simp only [filterMap_log, Event.callback?, Event.completed?, Option.toList, List.append_nil,
        ← Multiset.coe_add, hp, Multiset.coe_singleton, ← Multiset.singleton_add, Multiset.map_add,
        Multiset.map_singleton]
      abel
  | noCallback task rest hrun hcb =>
      simpa [hrun, hcb, List.filterMap_cons, Event.callback?, Event.completed?] using hp
  | complete task rest hrun =>
      rw [hrun] at hp
      cases hcb : task.cb
      · rw [Multiset.filter_cons_of_neg _ (by simp [hcb])] at hp
        simpa [List.filterMap_cons, Event.callback?, Event.completed?, hcb] using hp
      · rw [Multiset.filter_cons_of_pos _ ⟨rfl, hcb⟩] at hp
        simp only [filterMap_log, Event.callback?, Event.completed?, Option.toList, List.append_nil,
          hp, List.filter_append, List.filter_cons_of_pos hcb, List.filter_nil, List.map_append,
          List.map_cons, List.map_nil, ← Multiset.coe_add, Multiset.coe_singleton,
          ← Multiset.singleton_add, Multiset.map_add, Multiset.map_singleton]
        abel
  | _ => simpa only [filterMap_log, Event.callback?, Event.completed?, Option.toList,
      List.append_nil] using hp

/-- A completion is counted after the callback, which is where it is owed. -/
theorem Ok.step_callback_first (h : L.Ok) (hs : Step L L') :
    ∀ pre task post, L'.log = pre ++ .completed task :: post → task.cb = true →
      task.id ∈ pre.filterMap Event.callback? := by
  have hp := h.callback_first
  have hpaid := h.callbacks_eq
  cases hs with
  | noCallback task rest hrun hcb => exact hp
  | complete task rest hrun =>
      intro pre task' post hlog hcb
      rcases append_singleton_eq_iff.mp hlog with ⟨-, rfl, he⟩ | ⟨post', -, hl⟩
      · obtain rfl : task' = task := by simpa using he
        have hmem : task'.id ∈ (L.callbacks : Multiset Nat) := by
          rw [hpaid, owedCallbacks, hrun]
          simp [hcb]
        simpa [callbacks] using hmem
      · exact hp pre task' post' hl hcb
  | _ =>
      intro pre task' post hlog hcb
      rcases append_singleton_eq_iff.mp hlog with ⟨-, -, he⟩ | ⟨post', -, hl⟩
      · cases he
      · exact hp pre task' post' hl hcb

/-- A body that ends is past from then on, through its callback and its completion. -/
theorem Ok.step_ended_eq (h : L.Ok) (hs : Step L L') :
    (L'.ended : Multiset Nat) = L'.pastBody := by
  have hp := h.ended_eq
  simp only [ended, pastBody, completedIds, completed] at hp ⊢
  cases hs with
  | start task rest hq =>
      simpa [List.filterMap_cons, Event.ended?, Event.completed?] using hp
  | finish task threw rest hrun =>
      rw [hrun, Multiset.filter_cons_of_neg _ (by simp)] at hp
      rw [Multiset.filter_cons_of_pos _ (by simp)]
      simp only [filterMap_log, Event.ended?, Event.completed?, Option.toList, List.append_nil,
        ← Multiset.coe_add, hp, Multiset.coe_singleton, ← Multiset.singleton_add, Multiset.map_add,
        Multiset.map_singleton]
      abel
  | callback task result rest hrun hcb =>
      simpa [hrun, List.filterMap_cons, Event.ended?, Event.completed?] using hp
  | noCallback task rest hrun hcb => simpa [hrun] using hp
  | complete task rest hrun =>
      rw [hrun, Multiset.filter_cons_of_pos _ (by simp)] at hp
      simp only [filterMap_log, Event.ended?, Event.completed?, Option.toList, List.append_nil, hp,
        List.map_append, List.map_cons, List.map_nil, ← Multiset.coe_add, Multiset.coe_singleton,
        ← Multiset.singleton_add, Multiset.map_add, Multiset.map_singleton]
      abel
  | _ => simpa only [filterMap_log, Event.ended?, Event.completed?, Option.toList,
      List.append_nil] using hp

/-- **Every ledger move keeps the books.** -/
theorem Ok.step (h : L.Ok) (hs : Step L L') : L'.Ok where
  partition := h.step_partition hs
  accepted_eq := h.step_accepted_eq hs
  fifo := h.step_fifo hs
  order := h.step_order hs
  before_inFlight := h.step_before_inFlight hs
  callbacks_eq := h.step_callbacks_eq hs
  callback_first := h.step_callback_first hs
  ended_eq := h.step_ended_eq hs

end moves

/-! ## What the books say -/

section books

variable {L}

/-- No id is in two places or twice in one. -/
theorem Ok.nodup (h : L.Ok) :
    (L.inFlight + L.queuedIds + L.runningIds + L.completedIds + L.refused :
      Multiset Nat).Nodup := by
  rw [h.partition]
  exact Multiset.nodup_range _

/-- The body of a completed task has ended. -/
theorem Ok.ended_completed (h : L.Ok) {task : TaskMeta} (ht : task ∈ L.completed) :
    task.id ∈ L.ended := by
  rw [← Multiset.mem_coe, h.ended_eq, pastBody, Multiset.mem_add]
  exact .inr (Multiset.mem_coe.mpr (List.mem_map_of_mem ht))

/-- No accepted task is refused. -/
theorem Ok.accepted_not_refused (h : L.Ok) {task : TaskMeta} (ht : task ∈ L.accepted) :
    task.id ∉ L.refused := by
  have hmem : task ∈ (L.accepted : Multiset TaskMeta) := ht
  rw [h.accepted_eq] at hmem
  have hplace : task.id ∈ L.inFlight + L.queuedIds + L.runningIds + L.completedIds := by
    simp only [Multiset.mem_add] at hmem ⊢
    rcases hmem with (hq | hr) | hc
    · exact .inl (.inl (.inr (by simpa [queuedIds] using ⟨task, hq, rfl⟩)))
    · obtain ⟨x, hx, rfl⟩ := Multiset.mem_map.mp hr
      exact .inl (.inr (Multiset.mem_map.mpr ⟨x, hx, rfl⟩))
    · exact .inr (by simpa [completedIds] using ⟨task, hc, rfl⟩)
  intro hr
  exact Multiset.disjoint_left.mp (Multiset.nodup_add.mp h.nodup).2.2 hplace hr

end books

/-- The ledger before any submission. -/
def empty : Ledger ρ := ⟨0, 0, [], 0, []⟩

theorem Ok.empty : (Ledger.empty : Ledger ρ).Ok where
  partition := rfl
  accepted_eq := rfl
  fifo := rfl
  order := .nil
  before_inFlight _ h := by cases h
  callbacks_eq := rfl
  callback_first pre task post h := by
    have := congrArg List.length h
    simp [Ledger.empty] at this
  ended_eq := rfl

end Ledger

end SocialNetwork.Threads
