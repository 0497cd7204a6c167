import Mathlib.Logic.Relation

/-!
# Labelled transition systems and their runs

A `System` is a set of initial states with a labelled step relation. Everything said about
"every reachable state" or "every run" goes through the tools of this file:

* `System.Reachable` and the induction package `System.Invariant`, so that an invariant is an
  initial-state fact plus a step fact (which may assume reachability of the source state);
* `System.Leads`, one state reached from another, for theorems that compare two moments of a run;
* `System.guarded`, the same system with only those steps that meet a condition, for theorems
  about the runs in which every step is of a given kind;
* `System.withHistory`, the same system with a variable that records something about its run, for
  theorems that speak of the past of a state;
* `System.ofNext`, the system of an executable step function, with `runFrom` to replay a
  concrete list of labels.
-/

namespace SocialNetwork.Foundation

/-- Initial states and a labelled step relation. -/
structure System (σ α : Type*) where
  /-- The states a run may start in. -/
  init : σ → Prop
  /-- `step s a s'`: from `s`, the action `a` may lead to `s'`. -/
  step : σ → α → σ → Prop

namespace System

variable {σ α : Type*} (S : System σ α)

/-- The states some run of `S` reaches. -/
inductive Reachable : σ → Prop
  | init {s : σ} : S.init s → Reachable s
  | step {s s' : σ} {a : α} : Reachable s → S.step s a s' → Reachable s'

/-- `I` holds initially and survives every step out of a reachable state. -/
structure Invariant (I : σ → Prop) : Prop where
  /-- Every initial state satisfies `I`. -/
  init : ∀ s, S.init s → I s
  /-- A step out of a reachable state that satisfies `I` keeps `I`. -/
  step : ∀ s a s', S.Reachable s → I s → S.step s a s' → I s'

variable {S}

/-- An invariant holds of every reachable state. -/
theorem Invariant.reachable {I : σ → Prop} (h : S.Invariant I) {s : σ} (hs : S.Reachable s) :
    I s := by
  induction hs with
  | init hi => exact h.init _ hi
  | step hr hstep ih => exact h.step _ _ _ hr ih hstep

/-- A run leads from the one state to the other. -/
def Leads (S : System σ α) : σ → σ → Prop :=
  Relation.ReflTransGen fun s s' => ∃ a, S.step s a s'

/-- What a reachable state leads to is reachable. -/
theorem Leads.reachable {s s' : σ} (h : S.Leads s s') (hs : S.Reachable s) : S.Reachable s' := by
  induction h with
  | refl => exact hs
  | tail _ hstep ih =>
      obtain ⟨a, hstep⟩ := hstep
      exact .step ih hstep

/-- A property that survives every step out of a reachable state holds at the end of a run if it
holds at its start. -/
theorem Leads.invariant {I : σ → Prop} (hI : ∀ s a s', S.Reachable s → I s → S.step s a s' → I s')
    {s s' : σ} (h : S.Leads s s') (hs : S.Reachable s) (hi : I s) : I s' := by
  induction h with
  | refl => exact hi
  | tail hrun hstep ih =>
      obtain ⟨a, hstep⟩ := hstep
      exact hI _ a _ (Leads.reachable hrun hs) ih hstep

/-- The steps of `S` whose label is allowed by `G` in the state it is taken from. -/
def guarded (S : System σ α) (G : σ → α → Prop) : System σ α where
  init := S.init
  step s a s' := G s a ∧ S.step s a s'

/-- A guarded run is a run. -/
theorem Reachable.of_guarded {G : σ → α → Prop} {s : σ} (hs : (S.guarded G).Reachable s) :
    S.Reachable s := by
  induction hs with
  | init hi => exact .init hi
  | step _ hstep ih => exact .step ih hstep.2

/-! ## History variables -/

section history

variable {γ : Type*} {g₀ : γ} {update : γ → σ → α → σ → γ}

/-- The system with a history variable. It starts as `g₀` and is updated at every step; no step
reads it. -/
def withHistory (S : System σ α) (g₀ : γ) (update : γ → σ → α → σ → γ) : System (σ × γ) α where
  init p := S.init p.1 ∧ p.2 = g₀
  step p a p' := S.step p.1 a p'.1 ∧ p'.2 = update p.2 p.1 a p'.1

/-- A run with a history variable is a run. -/
theorem Reachable.of_withHistory {p : σ × γ} (hp : (S.withHistory g₀ update).Reachable p) :
    S.Reachable p.1 := by
  induction hp with
  | init hi => exact .init hi.1
  | step _ hstep ih => exact .step ih hstep.1

/-- Every run has its history. -/
theorem Reachable.exists_history (g₀ : γ) (update : γ → σ → α → σ → γ) {s : σ}
    (hs : S.Reachable s) : ∃ g, (S.withHistory g₀ update).Reachable (s, g) := by
  induction hs with
  | init hi => exact ⟨g₀, .init ⟨hi, rfl⟩⟩
  | @step s s' a _ hstep ih =>
      obtain ⟨g, hg⟩ := ih
      exact ⟨update g s a s', .step hg ⟨hstep, rfl⟩⟩

end history

/-! ## Executable systems -/

/-- The system of a partial step function: `none` means the action is not enabled. -/
def ofNext (init : σ → Prop) (next : σ → α → Option σ) : System σ α where
  init := init
  step s a s' := next s a = some s'

/-- Replay a list of actions. -/
def runFrom (next : σ → α → Option σ) : σ → List α → Option σ
  | s, [] => some s
  | s, a :: as => (next s a).bind fun s' => runFrom next s' as

/-- A replay that starts in a reachable state ends in one. -/
theorem Reachable.runFrom {init : σ → Prop} {next : σ → α → Option σ} (as : List α) {s s' : σ}
    (hs : (ofNext init next).Reachable s) (h : System.runFrom next s as = some s') :
    (ofNext init next).Reachable s' := by
  induction as generalizing s with
  | nil =>
      simp only [System.runFrom, Option.some.injEq] at h
      exact h ▸ hs
  | cons a as ih =>
      simp only [System.runFrom, Option.bind_eq_some_iff] at h
      obtain ⟨t, ht, hrest⟩ := h
      exact ih (.step hs ht) hrest

/-- A replay that checks the condition of each step is a guarded run. -/
theorem Reachable.runFrom_guarded {init : σ → Prop} {next : σ → α → Option σ} {G : σ → α → Prop}
    [∀ s a, Decidable (G s a)] (as : List α) {s s' : σ}
    (hs : ((ofNext init next).guarded G).Reachable s)
    (h : System.runFrom (fun s a => if G s a then next s a else none) s as = some s') :
    ((ofNext init next).guarded G).Reachable s' := by
  induction as generalizing s with
  | nil =>
      simp only [System.runFrom, Option.some.injEq] at h
      exact h ▸ hs
  | cons a as ih =>
      simp only [System.runFrom, Option.bind_eq_some_iff] at h
      obtain ⟨t, ht, hrest⟩ := h
      split at ht
      · rename_i hguard
        exact ih (.step hs ⟨hguard, ht⟩) hrest
      · cases ht

/-- Replay a list of actions with a history variable. -/
def runRecorded {γ : Type*} (next : σ → α → Option σ) (update : γ → σ → α → σ → γ) :
    σ × γ → List α → Option (σ × γ) :=
  runFrom fun p a => (next p.1 a).map fun s' => (s', update p.2 p.1 a s')

/-- A replay with a history variable that starts in a reachable state ends in one. -/
theorem Reachable.runRecorded {γ : Type*} {init : σ → Prop} {next : σ → α → Option σ} {g₀ : γ}
    {update : γ → σ → α → σ → γ} (as : List α) {p p' : σ × γ}
    (hp : ((ofNext init next).withHistory g₀ update).Reachable p)
    (h : System.runRecorded next update p as = some p') :
    ((ofNext init next).withHistory g₀ update).Reachable p' := by
  induction as generalizing p with
  | nil =>
      simp only [System.runRecorded, System.runFrom, Option.some.injEq] at h
      exact h ▸ hp
  | cons a as ih =>
      simp only [System.runRecorded, System.runFrom, Option.bind_eq_some_iff,
        Option.map_eq_some_iff] at h
      obtain ⟨q, ⟨s', hs', rfl⟩, hrest⟩ := h
      have hstep : ((ofNext init next).withHistory g₀ update).step p a
          (s', update p.2 p.1 a s') := ⟨hs', rfl⟩
      exact ih (.step hp hstep) hrest

/-- A replay leads from its start to its end. -/
theorem Leads.runFrom {init : σ → Prop} {next : σ → α → Option σ} (as : List α) {s s' : σ}
    (h : System.runFrom next s as = some s') : (ofNext init next).Leads s s' := by
  induction as generalizing s with
  | nil =>
      simp only [System.runFrom, Option.some.injEq] at h
      exact h ▸ .refl
  | cons a as ih =>
      simp only [System.runFrom, Option.bind_eq_some_iff] at h
      obtain ⟨t, ht, hrest⟩ := h
      exact .head ⟨a, ht⟩ (ih hrest)

end System

end SocialNetwork.Foundation
