import SocialNetwork.Foundation.Runs
import Mathlib.Algebra.BigOperators.Group.List.Basic
import Mathlib.Algebra.GroupWithZero.Nat

/-!
# Runs that come to an end

A system comes to rest if every step lowers a rank. `System.Terminating` packages such a rank with
the property of states under which it works, and says two things about the runs from a state with
this property: no run has more steps than the rank of the state it starts in, and some run ends in
a state that is `Quiet`, where no step is left. Nothing is assumed about the order in which steps
are taken.

The rank of a pool of threads is a sum over the list of their local states; the last part is about
such sums when one thread moves, or when all of them are changed at once.
-/

namespace SocialNetwork.Foundation

namespace System

variable {σ α : Type*} {S : System σ α}

/-- A run of `n` steps leads from the one state to the other. -/
inductive LeadsIn (S : System σ α) : Nat → σ → σ → Prop
  | refl (s : σ) : LeadsIn S 0 s s
  | tail {n : Nat} {s t u : σ} {a : α} : LeadsIn S n s t → S.step t a u → LeadsIn S (n + 1) s u

/-- No step is left. -/
def Quiet (S : System σ α) (s : σ) : Prop := ∀ a s', ¬S.step s a s'

/-- A run without its length. -/
theorem LeadsIn.leads {n : Nat} {s s' : σ} (h : S.LeadsIn n s s') : S.Leads s s' := by
  induction h with
  | refl => exact .refl
  | tail _ hstep ih => exact .tail ih ⟨_, hstep⟩

/-- Every run has a length. -/
theorem Leads.exists_leadsIn {s s' : σ} (h : S.Leads s s') : ∃ n, S.LeadsIn n s s' := by
  induction h with
  | refl => exact ⟨0, .refl s⟩
  | tail _ hstep ih =>
      obtain ⟨n, hrun⟩ := ih
      obtain ⟨a, hstep⟩ := hstep
      exact ⟨n + 1, .tail hrun hstep⟩

/-- A run in which only some steps are allowed is a run. -/
theorem Leads.of_guarded {G : σ → α → Prop} {s s' : σ} (h : (S.guarded G).Leads s s') :
    S.Leads s s' := by
  induction h with
  | refl => exact .refl
  | tail _ hstep ih =>
      obtain ⟨a, hstep⟩ := hstep
      exact .tail ih ⟨a, hstep.2⟩

/-- Every step out of a state with `I` keeps `I` and lowers the rank. -/
structure Terminating (S : System σ α) (I : σ → Prop) (rank : σ → Nat) : Prop where
  keeps : ∀ s a s', I s → S.step s a s' → I s'
  lowers : ∀ s a s', I s → S.step s a s' → rank s' < rank s

namespace Terminating

variable {I : σ → Prop} {rank : σ → Nat}

/-- What a state with `I` leads to has `I`. -/
theorem leads (h : S.Terminating I rank) {s s' : σ} (hi : I s) (hrun : S.Leads s s') : I s' := by
  induction hrun with
  | refl => exact hi
  | tail _ hstep ih =>
      obtain ⟨a, hstep⟩ := hstep
      exact h.keeps _ a _ ih hstep

/-- Every step of a run uses up some of the rank. -/
theorem length_add_rank_le (h : S.Terminating I rank) {n : Nat} {s s' : σ} (hi : I s)
    (hrun : S.LeadsIn n s s') : n + rank s' ≤ rank s := by
  induction hrun with
  | refl => omega
  | tail hrun hstep ih =>
      have hlower := h.lowers _ _ _ (h.leads hi hrun.leads) hstep
      have := ih hi
      omega

/-- **Some run ends in a state with no step left.** -/
theorem exists_quiet (h : S.Terminating I rank) {s : σ} (hi : I s) :
    ∃ s', S.Leads s s' ∧ S.Quiet s' := by
  induction hr : rank s using Nat.strongRecOn generalizing s with
  | ind r ih =>
      by_cases hquiet : S.Quiet s
      · exact ⟨s, .refl, hquiet⟩
      · unfold Quiet at hquiet
        push Not at hquiet
        obtain ⟨a, t, hstep⟩ := hquiet
        obtain ⟨s', hrun, hq⟩ := ih _ (hr ▸ h.lowers _ _ _ hi hstep) (h.keeps _ _ _ hi hstep) rfl
        exact ⟨s', .head ⟨a, hstep⟩ hrun, hq⟩

end Terminating

end System

/-! ## Sums over threads -/

section sums

variable {α : Type*} {l : List α} {i : Nat} {a : α}

/-- One thread moves: its old share leaves the sum and its new one enters. -/
theorem sum_map_set (f : α → Nat) (h : l[i]? = some a) (b : α) :
    ((l.set i b).map f).sum + f a = (l.map f).sum + f b := by
  induction l generalizing i with
  | nil => simp at h
  | cons x xs ih =>
      cases i with
      | zero =>
          obtain rfl : x = a := by simpa using h
          simp only [List.set_cons_zero, List.map_cons, List.sum_cons]
          omega
      | succ i =>
          have := ih (i := i) (by simpa using h)
          simp only [List.set_cons_succ, List.map_cons, List.sum_cons]
          omega

/-- All threads change at once, each by no more than `k`. -/
theorem sum_map_map_le {f : α → Nat} {g : α → α} {k : Nat} (h : ∀ x, f (g x) ≤ f x + k) :
    ((l.map g).map f).sum ≤ (l.map f).sum + k * l.length := by
  induction l with
  | nil => simp
  | cons x xs ih =>
      have := h x
      simp only [List.map_cons, List.sum_cons, List.length_cons, Nat.mul_add] at ih ⊢
      omega

end sums

end SocialNetwork.Foundation
