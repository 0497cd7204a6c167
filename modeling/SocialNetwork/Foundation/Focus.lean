import Mathlib.Data.List.Basic
import Mathlib.Algebra.Order.Group.Multiset

/-!
# One thread among many

A pool of threads is a list of local states, and a step of one thread replaces one entry. What the
pool as a whole contributes to a shared account is often a multiset: the values that a partial
function `f` reads off the local states. `exists_focus` singles out the contribution of the thread
that moves, so that a step becomes an equation between multisets.
-/

namespace SocialNetwork.Foundation

section focus

variable {α β : Type*} {l : List α} {i : Nat} {a b : α}

/-- The contribution of one thread, and what the others contribute whatever that thread does. -/
theorem exists_focus (f : α → Option β) (h : l[i]? = some a) :
    ∃ rest : Multiset β, (l.filterMap f : Multiset β) = (f a).toList + rest ∧
      ∀ b, ((l.set i b).filterMap f : Multiset β) = (f b).toList + rest := by
  refine ⟨((l.take i ++ l.drop (i + 1)).filterMap f : List β), ?_, fun b => ?_⟩
  · obtain ⟨hi, rfl⟩ := List.getElem?_eq_some_iff.mp h
    conv_lhs => rw [← List.take_append_drop i l, List.drop_eq_getElem_cons hi]
    rw [List.filterMap_append, List.filterMap_cons, List.filterMap_append]
    cases f l[i] <;> simp [← Multiset.coe_add, add_left_comm]
  · obtain ⟨hi, rfl⟩ := List.getElem?_eq_some_iff.mp h
    rw [List.set_eq_take_append_cons_drop, if_pos hi, List.filterMap_append, List.filterMap_cons,
      List.filterMap_append]
    cases f b <;> simp [← Multiset.coe_add, add_left_comm]

/-- A thread that contributes the same after its step leaves the account alone. -/
theorem filterMap_set_of_eq {f : α → Option β} (h : l[i]? = some a) (hf : f b = f a) :
    (l.set i b).filterMap f = l.filterMap f := by
  induction l generalizing i with
  | nil => simp
  | cons x xs ih =>
      cases i with
      | zero =>
          obtain rfl : x = a := by simpa using h
          simp [List.filterMap_cons, hf]
      | succ i => simp [List.filterMap_cons, ih (by simpa using h)]

/-- Replacing local states by ones that contribute the same leaves the account alone. -/
theorem filterMap_map_of_eq {f : α → Option β} {g : α → α} (hf : ∀ x, f (g x) = f x) :
    (l.map g).filterMap f = l.filterMap f := by
  rw [List.filterMap_map]
  exact congrArg (List.filterMap · l) (funext hf)

end focus

end SocialNetwork.Foundation
