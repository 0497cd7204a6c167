import Mathlib.Data.List.Forall2

/-!
# Code that may throw

A function that throws is taken apart by what its result says of its steps: `bind_eq_ok` where it
returns, and `mapM_eq_ok` for a list of calls. With a state, the state of the throw is kept
(`run_bind_error`), and a step that returns hands its state on (`run_bind_ok`).
-/

namespace SocialNetwork.Foundation

variable {α β ε σ : Type}

/-! ## Exceptions -/

/-- Two steps return if both do. -/
theorem bind_eq_ok {x : Except ε α} {f : α → Except ε β} {b : β} :
    x >>= f = .ok b ↔ ∃ a, x = .ok a ∧ f a = .ok b := by
  cases x with
  | ok a =>
      change f a = .ok b ↔ _
      simp
  | error e =>
      change Except.error e = .ok b ↔ _
      simp

/-- What is returned is the value. -/
theorem pure_eq_ok {a b : α} : (pure a : Except ε α) = .ok b ↔ a = b := by
  change Except.ok a = .ok b ↔ _
  rw [Except.ok.injEq]

/-- Calls for each of a list return if all of them do. -/
theorem mapM_eq_ok {f : α → Except ε β} {l : List α} {l' : List β} :
    l.mapM f = .ok l' ↔ List.Forall₂ (fun a b => f a = .ok b) l l' := by
  induction l generalizing l' with
  | nil => rw [List.mapM_nil, pure_eq_ok, List.forall₂_nil_left_iff, eq_comm]
  | cons a l ih =>
      simp only [List.mapM_cons, bind_eq_ok, pure_eq_ok, ih, List.forall₂_cons_left_iff]
      constructor
      · rintro ⟨b, hb, l', hl', rfl⟩
        exact ⟨b, l', hb, hl', rfl⟩
      · rintro ⟨b, l', hb, hl', rfl⟩
        exact ⟨b, hb, l', hl', rfl⟩

/-! ## Exceptions with a state -/

section states

variable {s s' : σ}

/-- A step that returns. -/
theorem run_bind_ok {x : EStateM ε σ α} {f : α → EStateM ε σ β} {a : α}
    (h : x.run s = .ok a s') : (x >>= f).run s = (f a).run s' := by
  show EStateM.bind x f s = _
  rw [EStateM.bind, show x s = .ok a s' from h]
  rfl

/-- An exception ends the function. -/
theorem run_bind_error {x : EStateM ε σ α} {e : ε} (h : x.run s = .error e s')
    (f : α → EStateM ε σ β) : (x >>= f).run s = .error e s' := by
  show EStateM.bind x f s = _
  rw [EStateM.bind, show x s = .error e s' from h]

/-- A result that is no exception leaves the state. -/
theorem run_ofExcept_ok (a : α) (s : σ) :
    (MonadExcept.ofExcept (.ok a : Except ε α) : EStateM ε σ α).run s = .ok a s := rfl

/-- Two steps on a state return if both do, the second in the state that the first has left. -/
theorem run_bind_eq_ok {x : EStateM ε σ α} {f : α → EStateM ε σ β} {b : β} :
    (x >>= f).run s = .ok b s' ↔ ∃ a t, x.run s = .ok a t ∧ (f a).run t = .ok b s' := by
  cases hx : x.run s with
  | ok a t => simp [run_bind_ok hx]
  | error e t => simp [run_bind_error hx]

/-- Returning a value leaves the state. -/
theorem run_pure_eq_ok {a b : α} :
    (pure a : EStateM ε σ α).run s = .ok b s' ↔ a = b ∧ s' = s := by
  change EStateM.Result.ok a s = .ok b s' ↔ _
  rw [EStateM.Result.ok.injEq, @eq_comm _ s]

/-- A modification always returns. -/
theorem run_modify_eq_ok {f : σ → σ} {u : PUnit} :
    (modify f : EStateM ε σ PUnit).run s = .ok u s' ↔ s' = f s := by
  change EStateM.Result.ok PUnit.unit (f s) = .ok u s' ↔ _
  simp [eq_comm]

/-- A result is returned exactly if it is no exception, and leaves the state. -/
theorem run_ofExcept_eq_ok {x : Except ε α} {a : α} :
    (MonadExcept.ofExcept x : EStateM ε σ α).run s = .ok a s' ↔ x = .ok a ∧ s' = s := by
  cases x with
  | ok b => rw [Except.ok.injEq]; exact run_pure_eq_ok
  | error e =>
      change EStateM.Result.error e s = .ok a s' ↔ _
      simp

end states

end SocialNetwork.Foundation
