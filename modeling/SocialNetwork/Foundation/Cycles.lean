import Mathlib.Data.Int.CardIntervalMod
import Mathlib.Algebra.Order.Floor.Div

/-!
# Sequences that go round a cycle

`CyclesFrom R start xs`: the list `xs` reads `start, start + 1, …` modulo `R`. This is what a
round-robin counter produces. Any window of such a list is again one (`CyclesFrom.window`), and
a list of `n` entries meets every residue `⌊n / R⌋` or `⌈n / R⌉` times (`CyclesFrom.count_eq`).
-/

namespace SocialNetwork.Foundation

/-- The entries of `xs` are `start, start + 1, …` modulo `R`. -/
def CyclesFrom (R start : Nat) (xs : List Nat) : Prop :=
  ∀ k (h : k < xs.length), xs[k] = (start + k) % R

namespace CyclesFrom

variable {R start : Nat} {xs : List Nat}

/-- A window of a cyclic list is cyclic. -/
theorem window (h : CyclesFrom R start xs) (a n : Nat) :
    CyclesFrom R (start + a) ((xs.drop a).take n) := by
  intro k hk
  have hlen : a + k < xs.length := by
    rw [List.length_take, List.length_drop] at hk
    omega
  rw [List.getElem_take, List.getElem_drop, h (a + k) hlen, Nat.add_assoc]

/-- Counting a residue in a cyclic list is counting the positions that carry it. -/
theorem count_eq_natCount (h : CyclesFrom R start xs) (i : Nat) :
    xs.count i = xs.length.count fun j => (start + j) % R = i := by
  induction xs using List.reverseRecOn with
  | nil => simp
  | append_singleton xs x ih =>
      have hinit : CyclesFrom R start xs := by
        intro k hk
        have hk' := h k (by rw [List.length_append]; omega)
        rwa [List.getElem_append_left hk] at hk'
      have hlast : x = (start + xs.length) % R := by
        have hx := h xs.length (by simp)
        simpa using hx
      rw [List.count_append, ih hinit, List.length_append, List.length_singleton, Nat.count_succ,
        List.count_singleton, hlast]
      simp only [beq_iff_eq]

/-- The positions that carry a residue are themselves a residue class. -/
private theorem add_mod_eq_iff {R i : Nat} (hi : i < R) (start j : Nat) :
    (start + j) % R = i ↔ j ≡ i + (R - start % R) [MOD R] := by
  have hR : 0 < R := by omega
  have hs := Nat.mod_lt start hR
  have hshift : start % R + (i + (R - start % R)) ≡ i [MOD R] := by
    have hsum : start % R + (i + (R - start % R)) = i + R := by omega
    rw [hsum]
    exact Nat.add_modEq_right
  constructor
  · intro h
    have hj : start % R + j ≡ start % R + (i + (R - start % R)) [MOD R] := by
      refine Nat.ModEq.trans ?_ hshift.symm
      unfold Nat.ModEq
      rw [Nat.mod_add_mod, h, Nat.mod_eq_of_lt hi]
    exact Nat.ModEq.add_left_cancel' _ hj
  · intro h
    have hj : start % R + j ≡ i [MOD R] := (Nat.ModEq.add_left _ h).trans hshift
    unfold Nat.ModEq at hj
    rwa [Nat.mod_add_mod, Nat.mod_eq_of_lt hi] at hj

/-- **A cyclic list is fair**: among `n` consecutive entries every residue occurs `⌊n / R⌋` or
`⌈n / R⌉` times. -/
theorem count_eq (h : CyclesFrom R start xs) {i : Nat} (hi : i < R) :
    xs.count i = xs.length / R ∨ xs.count i = xs.length ⌈/⌉ R := by
  have hR : 0 < R := by omega
  have hcount : xs.count i = xs.length / R +
      if (i + (R - start % R)) % R < xs.length % R then 1 else 0 := by
    rw [h.count_eq_natCount, ← Nat.count_modEq_card xs.length hR]
    simp only [add_mod_eq_iff hi]
  rw [hcount, Nat.ceilDiv_eq_add_pred_div]
  split
  · rename_i hlt
    right
    have hdiv := Nat.div_add_mod xs.length R
    have hmod := Nat.mod_lt xs.length hR
    symm
    rw [Nat.div_eq_iff hR]
    constructor
    · rw [Nat.add_mul, Nat.mul_comm (xs.length / R)]
      omega
    · rw [Nat.add_mul, Nat.mul_comm (xs.length / R)]
      omega
  · exact .inl (Nat.add_zero _)

end CyclesFrom

end SocialNetwork.Foundation
