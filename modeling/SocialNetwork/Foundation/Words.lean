import Mathlib.Data.Nat.Digits.Lemmas

/-!
# Words of digits

A word of digits in a base, most significant digit first, and the number that it denotes
(`wordValue`). Words of one length are ordered like their numbers: the first digit in which they
differ decides (`wordValue_cons_lt`). Counting up with a carry adds one modulo the number of words
(`ofDigits_succDigits`), and a counter that does so goes through all values before it comes back to
one (`counter_surjective`, `counter_injective`).
-/

namespace SocialNetwork.Foundation

variable {b : Nat} {v w : List Nat}

/-! ## Values -/

/-- The number that a word denotes. -/
def wordValue (b : Nat) (w : List Nat) : Nat := Nat.ofDigits b w.reverse

theorem wordValue_cons (d : Nat) (w : List Nat) :
    wordValue b (d :: w) = wordValue b w + b ^ w.length * d := Nat.ofDigits_reverse_cons w d

theorem wordValue_lt (hb : 1 < b) (hw : ∀ d ∈ w, d < b) : wordValue b w < b ^ w.length := by
  rw [← List.length_reverse]
  exact Nat.ofDigits_lt_base_pow_length hb fun d hd => hw d (List.mem_reverse.mp hd)

/-- The first digit decides. -/
theorem wordValue_cons_lt (hb : 1 < b) (hlen : v.length = w.length) (hv : ∀ d ∈ v, d < b)
    {d e : Nat} (h : d < e) : wordValue b (d :: v) < wordValue b (e :: w) := by
  rw [wordValue_cons, wordValue_cons, hlen]
  have hlow : wordValue b v < b ^ w.length := hlen ▸ wordValue_lt hb hv
  calc wordValue b v + b ^ w.length * d
      < b ^ w.length + b ^ w.length * d := Nat.add_lt_add_right hlow _
    _ = b ^ w.length * (d + 1) := by rw [Nat.mul_add, Nat.mul_one, Nat.add_comm]
    _ ≤ b ^ w.length * e := Nat.mul_le_mul_left _ h
    _ ≤ wordValue b w + b ^ w.length * e := Nat.le_add_left _ _

/-- Words of one length denote different numbers. -/
theorem wordValue_inj (hb : 1 < b) (hlen : v.length = w.length) (hv : ∀ d ∈ v, d < b)
    (hw : ∀ d ∈ w, d < b) : wordValue b v = wordValue b w ↔ v = w := by
  constructor
  · intro h
    refine List.reverse_injective (Nat.ofDigits_inj_of_len_eq hb ?_ ?_ ?_ h)
    · rw [List.length_reverse, List.length_reverse, hlen]
    · exact fun d hd => hv d (List.mem_reverse.mp hd)
    · exact fun d hd => hw d (List.mem_reverse.mp hd)
  · rintro rfl
    rfl

/-- The last word. -/
theorem wordValue_last (hb : 1 < b) (n : Nat) :
    wordValue b (List.replicate n (b - 1)) = b ^ n - 1 := by
  induction n with
  | zero => rfl
  | succ n ih =>
      have hpos : 1 ≤ b ^ n := Nat.one_le_pow n b (by omega)
      have hsplit : b ^ n * b = b ^ n * (b - 1) + b ^ n := by
        rw [← Nat.mul_succ]
        congr 1
        omega
      rw [List.replicate_succ, wordValue_cons, ih, List.length_replicate, pow_succ, hsplit]
      omega

/-- A word with a digit that is not the last one is not the last word. -/
theorem wordValue_succ_lt (hb : 1 < b) (hw : ∀ d ∈ w, d < b) (h : ∃ d ∈ w, d ≠ b - 1) :
    wordValue b w + 1 < b ^ w.length := by
  have hlt := wordValue_lt hb hw
  have hne : wordValue b w ≠ b ^ w.length - 1 := by
    intro heq
    rw [← wordValue_last hb, wordValue_inj hb (by simp) hw] at heq
    · obtain ⟨d, hd, hdne⟩ := h
      rw [heq] at hd
      exact hdne (List.eq_of_mem_replicate hd)
    · intro d hd
      rw [List.eq_of_mem_replicate hd]
      omega
  omega

/-! ## Counting up -/

/-- The next word, least significant digit first; the last word is followed by the first one. -/
def succDigits (b : Nat) : List Nat → List Nat
  | [] => []
  | d :: ds => if d + 1 = b then 0 :: succDigits b ds else (d + 1) :: ds

@[simp] theorem length_succDigits (b : Nat) (ds : List Nat) :
    (succDigits b ds).length = ds.length := by
  induction ds with
  | nil => rfl
  | cons d ds ih =>
      rw [succDigits]
      split
      · rw [List.length_cons, List.length_cons, ih]
      · rfl

/-- **Counting up with a carry.** -/
theorem ofDigits_succDigits (hb : 1 < b) {ds : List Nat} (h : ∀ d ∈ ds, d < b) :
    Nat.ofDigits b (succDigits b ds) = (Nat.ofDigits b ds + 1) % b ^ ds.length := by
  induction ds with
  | nil => rw [succDigits, List.length_nil, pow_zero, Nat.mod_one, Nat.ofDigits_nil]
  | cons d ds ih =>
      have hds : ∀ x ∈ ds, x < b := fun x hx => h x (List.mem_cons_of_mem _ hx)
      rw [succDigits, List.length_cons, pow_succ', Nat.ofDigits_cons]
      by_cases hd : d + 1 = b
      · -- the digit overflows, and the carry goes on
        have hsum : d + b * Nat.ofDigits b ds + 1 = b * (Nat.ofDigits b ds + 1) := by
          rw [Nat.mul_add, Nat.mul_one]
          omega
        rw [if_pos hd, Nat.ofDigits_cons, ih hds, hsum, Nat.mul_mod_mul_left]
        simp
      · have hlt : Nat.ofDigits b ((d + 1) :: ds) < b ^ (ds.length + 1) := by
          refine Nat.ofDigits_lt_base_pow_length (l := (d + 1) :: ds) hb fun x hx => ?_
          rcases List.mem_cons.mp hx with rfl | hx
          · have := h d List.mem_cons_self
            omega
          · exact hds x hx
        rw [Nat.ofDigits_cons, pow_succ'] at hlt
        rw [if_neg hd, Nat.ofDigits_cons, ← Nat.mod_eq_of_lt hlt]
        congr 1
        omega

/-! ## Counters -/

section counter

variable {a : Nat → Nat} {N : Nat}

/-- A counter after `k` steps. -/
theorem counter_eq (hstep : ∀ k, a (k + 1) = (a k + 1) % N) (hstart : a 0 < N) (k : Nat) :
    a k = (a 0 + k) % N := by
  induction k with
  | zero => exact (Nat.mod_eq_of_lt hstart).symm
  | succ k ih => rw [hstep, ih, Nat.mod_add_mod, Nat.add_assoc]

/-- **Every value is reached** within one round. -/
theorem counter_surjective (hstep : ∀ k, a (k + 1) = (a k + 1) % N) (hstart : a 0 < N) {m : Nat}
    (hm : m < N) : ∃ k < N, a k = m := by
  by_cases hle : a 0 ≤ m
  · refine ⟨m - a 0, by omega, ?_⟩
    rw [counter_eq hstep hstart, Nat.add_sub_cancel' hle, Nat.mod_eq_of_lt hm]
  · have hsum : a 0 + (m + N - a 0) = m + N := by omega
    refine ⟨m + N - a 0, by omega, ?_⟩
    rw [counter_eq hstep hstart, hsum, Nat.add_mod_right, Nat.mod_eq_of_lt hm]

/-- **No value comes back** within one round. -/
theorem counter_injective (hstep : ∀ k, a (k + 1) = (a k + 1) % N) (hstart : a 0 < N) {i j : Nat}
    (hi : i < N) (hj : j < N) (h : a i = a j) : i = j := by
  rw [counter_eq hstep hstart i, counter_eq hstep hstart j] at h
  have hmod : i % N = j % N := Nat.ModEq.add_left_cancel' (a 0) h
  rwa [Nat.mod_eq_of_lt hi, Nat.mod_eq_of_lt hj] at hmod

end counter

end SocialNetwork.Foundation
