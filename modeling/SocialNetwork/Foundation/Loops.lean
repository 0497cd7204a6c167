import Mathlib.Order.Basic

/-!
# Loops

A loop repeats one pass over its state. A pass goes on with a new state or leaves with a result, in a
monad of its own (it may throw, say). The loop is run on a number of passes and fails where these are
used up, so a result says that the loop left in time.

One rule covers total correctness (`loop_total`): an invariant, and a measure that every pass which
goes on lowers. `while_total` is the same for a loop that tests a condition before each pass.
-/

namespace SocialNetwork.Foundation

variable {m : Type → Type*} [Monad m] {σ ρ : Type}

/-! ## Loops -/

/-- A loop on `fuel` passes. -/
def loop (pass : σ → OptionT m (σ ⊕ ρ)) : Nat → σ → OptionT m ρ
  | 0, _ => failure
  | fuel + 1, s => pass s >>= Sum.elim (loop pass fuel) pure

/-- `while (cond) body`. -/
def whileLoop (cond : σ → Bool) (body : σ → OptionT m σ) : Nat → σ → OptionT m σ :=
  loop fun s => if cond s then Sum.inl <$> body s else pure (.inr s)

variable [LawfulMonad m]

/-- **Total correctness of a loop.** -/
theorem loop_total {pass : σ → OptionT m (σ ⊕ ρ)} (inv : σ → Prop) (measure : σ → Nat) {post : ρ → Prop}
    (hpass : ∀ s, inv s →
      (∃ s', pass s = pure (.inl s') ∧ inv s' ∧ measure s' < measure s) ∨
        ∃ r, pass s = pure (.inr r) ∧ post r)
    {fuel : Nat} {s : σ} (hs : inv s) (hfuel : measure s < fuel) :
    ∃ r, loop pass fuel s = pure r ∧ post r := by
  induction fuel generalizing s with
  | zero => exact absurd hfuel (Nat.not_lt_zero _)
  | succ fuel ih =>
      rcases hpass s hs with ⟨s', hgo, hinv, hlt⟩ | ⟨r, hleave, hpost⟩
      · obtain ⟨r, hr, hpost⟩ := ih hinv (by omega)
        refine ⟨r, ?_, hpost⟩
        rw [loop, hgo, pure_bind]
        exact hr
      · refine ⟨r, ?_, hpost⟩
        rw [loop, hleave, pure_bind]
        rfl

/-- **Total correctness of a `while` loop.** -/
theorem while_total {cond : σ → Bool} {body : σ → OptionT m σ} (inv : σ → Prop) (measure : σ → Nat)
    (hbody : ∀ s, inv s → cond s = true →
      ∃ s', body s = pure s' ∧ inv s' ∧ measure s' < measure s)
    {fuel : Nat} {s : σ} (hs : inv s) (hfuel : measure s < fuel) :
    ∃ r, whileLoop cond body fuel s = pure r ∧ inv r ∧ cond r = false := by
  refine loop_total inv measure (fun s hinv => ?_) hs hfuel
  cases hcond : cond s with
  | true =>
      obtain ⟨s', hs', hinv', hlt⟩ := hbody s hinv hcond
      refine .inl ⟨s', ?_, hinv', hlt⟩
      rw [if_pos rfl, hs', map_pure]
  | false =>
      refine .inr ⟨s, ?_, hinv, hcond⟩
      rw [if_neg Bool.false_ne_true]

end SocialNetwork.Foundation
