import SocialNetwork.Foundation.Bits
import SocialNetwork.Foundation.Words

/-!
# Masks of words

A word whose digits are blocks of `k` bits is a number whose bits are those of its digits: a bitwise
operation on the digits is the operation on the numbers (`wordValue_zipWith`), and complementing the
digits complements the number (`wordValue_complement`).

Two numbers *agree* under a mask if they have the same bits where the mask has ones. Whatever agrees
with `x` lies between `x` with zeros and `x` with ones at the places that the mask leaves out
(`between_of_agree`). Conversely, everything between the two agrees with `x`, for every `x`, exactly if
the mask consists of leading ones (`agree_between_iff`).
-/

namespace SocialNetwork.Foundation

/-! ## Bits of words -/

section words

variable {k : Nat} {v w : List Nat} {f : Bool → Bool → Bool}

/-- The bits of a first digit and of the rest, least significant first. -/
theorem testBit_digit {d : Nat} (hd : d < 2 ^ k) (n i : Nat) :
    (d + 2 ^ k * n).testBit i = if i < k then d.testBit i else n.testBit (i - k) := by
  rw [Nat.add_comm, Nat.testBit_two_pow_mul_add n hd]

/-- A bitwise operation, digit by digit. -/
theorem ofDigits_zipWith (hf : f false false = false) (hlen : v.length = w.length)
    (hv : ∀ d ∈ v, d < 2 ^ k) (hw : ∀ d ∈ w, d < 2 ^ k) :
    Nat.ofDigits (2 ^ k) (List.zipWith (Nat.bitwise f) v w) =
      Nat.bitwise f (Nat.ofDigits (2 ^ k) v) (Nat.ofDigits (2 ^ k) w) := by
  induction v generalizing w with
  | nil =>
      obtain rfl := List.eq_nil_of_length_eq_zero hlen.symm
      rw [List.zipWith_nil_left, Nat.ofDigits_nil, Nat.bitwise_zero_left, ite_self]
  | cons d v ih =>
      cases w with
      | nil => cases hlen
      | cons e w =>
          have hd : d < 2 ^ k := hv d List.mem_cons_self
          have he : e < 2 ^ k := hw e List.mem_cons_self
          have hrest := ih (by simpa using hlen) (fun x hx => hv x (List.mem_cons_of_mem _ hx))
            fun x hx => hw x (List.mem_cons_of_mem _ hx)
          rw [List.zipWith_cons_cons, Nat.ofDigits_cons, Nat.ofDigits_cons, Nat.ofDigits_cons, hrest]
          refine Nat.eq_of_testBit_eq fun i => ?_
          have hop : Nat.bitwise f d e < 2 ^ k := Nat.bitwise_lt_two_pow hd he
          rw [testBit_digit hop, Nat.testBit_bitwise hf, Nat.testBit_bitwise hf,
            Nat.testBit_bitwise hf, testBit_digit hd, testBit_digit he]
          split <;> rfl

/-- **A bitwise operation on the digits** is the operation on the numbers. -/
theorem wordValue_zipWith (hf : f false false = false) (hlen : v.length = w.length)
    (hv : ∀ d ∈ v, d < 2 ^ k) (hw : ∀ d ∈ w, d < 2 ^ k) :
    wordValue (2 ^ k) (List.zipWith (Nat.bitwise f) v w) =
      Nat.bitwise f (wordValue (2 ^ k) v) (wordValue (2 ^ k) w) := by
  rw [wordValue, List.reverse_zipWith hlen]
  apply ofDigits_zipWith hf
  · rw [List.length_reverse, List.length_reverse, hlen]
  · exact fun d hd => hv d (List.mem_reverse.mp hd)
  · exact fun d hd => hw d (List.mem_reverse.mp hd)

/-- **Complementing the digits** complements the number. -/
theorem wordValue_complement {b : Nat} (hb : 1 < b) (hw : ∀ d ∈ w, d < b) :
    wordValue b (w.map fun d => b - 1 - d) = b ^ w.length - 1 - wordValue b w := by
  induction w with
  | nil => rfl
  | cons d w ih =>
      have hd : d < b := hw d List.mem_cons_self
      have hrest : ∀ e ∈ w, e < b := fun e he => hw e (List.mem_cons_of_mem _ he)
      have hlt := wordValue_lt hb hrest
      have hsplit : b ^ w.length * b =
          b ^ w.length * (b - 1 - d) + b ^ w.length * d + b ^ w.length := by
        rw [← Nat.mul_add, ← Nat.mul_succ]
        congr 1
        omega
      rw [List.map_cons, wordValue_cons, wordValue_cons, ih hrest, List.length_map, List.length_cons,
        pow_succ, hsplit]
      omega

end words

/-! ## Agreement under a mask -/

section masks

variable {W m x y : Nat}

/-- The bits of a complement. -/
theorem testBit_complement (hm : m < 2 ^ W) (i : Nat) :
    (2 ^ W - 1 - m).testBit i = (decide (i < W) && !m.testBit i) := by
  rw [Nat.sub_sub, Nat.add_comm 1 m]
  exact Nat.testBit_two_pow_sub_succ hm i

/-- The bits of a number of `W` bits end. -/
theorem testBit_of_le (hx : x < 2 ^ W) {i : Nat} (hi : W ≤ i) : x.testBit i = false :=
  Nat.testBit_lt_two_pow (hx.trans_le (Nat.pow_le_pow_right (by omega) hi))

/-- What agrees with `x` lies between the extremes. -/
theorem between_of_agree (hm : m < 2 ^ W) (hy : y < 2 ^ W) (h : y &&& m = x &&& m) :
    x &&& m ≤ y ∧ y ≤ x ||| (2 ^ W - 1 - m) := by
  have hupper : y ||| (x ||| (2 ^ W - 1 - m)) = x ||| (2 ^ W - 1 - m) := by
    refine Nat.eq_of_testBit_eq fun i => ?_
    rw [Nat.testBit_or, Nat.testBit_or, testBit_complement hm]
    by_cases hi : i < W
    · have hbit := congrArg (fun n => n.testBit i) h
      simp only [Nat.testBit_and] at hbit
      cases hmi : m.testBit i
      · simp [hi]
      · have hyx : y.testBit i = x.testBit i := by simpa [hmi] using hbit
        simp [hyx]
    · rw [testBit_of_le hy (not_lt.mp hi), Bool.false_or]
  constructor
  · rw [← h]
    exact Nat.and_le_left
  · rw [← hupper]
    exact Nat.left_le_or

/-- Under a mask of leading ones, the numbers that agree with `x` are an interval. -/
theorem agree_of_between {k : Nat} (hk : k ≤ W) (hx : x < 2 ^ W)
    (hlow : x &&& (2 ^ W - 2 ^ k) ≤ y) (hhigh : y ≤ x ||| (2 ^ k - 1)) :
    y / 2 ^ k = x / 2 ^ k := by
  have hpos : 0 < 2 ^ k := Nat.two_pow_pos k
  have htop : (x ||| (2 ^ k - 1)) / 2 ^ k = x / 2 ^ k := by
    rw [← Nat.shiftRight_eq_div_pow, Nat.shiftRight_or_distrib, Nat.shiftRight_eq_div_pow,
      Nat.shiftRight_eq_div_pow, Nat.div_eq_of_lt (Nat.sub_lt hpos Nat.one_pos), Nat.or_zero]
  rw [and_prefixMask hk hx] at hlow
  apply le_antisymm
  · calc y / 2 ^ k ≤ (x ||| (2 ^ k - 1)) / 2 ^ k := Nat.div_le_div_right hhigh
      _ = x / 2 ^ k := htop
  · exact (Nat.le_div_iff_mul_le hpos).mpr hlow

/-- A number whose submasks are all the numbers up to it is one of trailing ones. -/
theorem exists_trailing {c : Nat} (h : ∀ i, 2 ^ i ≤ c → c.testBit i = true) :
    ∃ k, c = 2 ^ k - 1 := by
  refine ⟨c.size, Nat.eq_of_testBit_eq fun i => ?_⟩
  rw [Nat.testBit_two_pow_sub_one]
  by_cases hi : i < c.size
  · rw [h i (Nat.lt_size.mp hi), decide_eq_true hi]
  · rw [testBit_of_le (Nat.lt_size_self c) (not_lt.mp hi), decide_eq_false hi]

/-- **The numbers that agree under a mask are intervals exactly if it consists of leading ones.** -/
theorem agree_between_iff (hm : m < 2 ^ W) :
    (∀ x < 2 ^ W, ∀ y < 2 ^ W,
      (y &&& m = x &&& m ↔ x &&& m ≤ y ∧ y ≤ x ||| (2 ^ W - 1 - m))) ↔
      ∃ k ≤ W, m = 2 ^ W - 2 ^ k := by
  constructor
  · intro h
    have hcomplement : 2 ^ W - 1 - m < 2 ^ W := by omega
    -- seen from zero: a power of two up to the complement is outside the mask
    obtain ⟨k, hk⟩ : ∃ k, 2 ^ W - 1 - m = 2 ^ k - 1 := by
      apply exists_trailing
      intro i hi
      have hlt : 2 ^ i < 2 ^ W := hi.trans_lt hcomplement
      have hagree := (h 0 (Nat.two_pow_pos W) (2 ^ i) hlt).mpr (by simpa using hi)
      have hbit := congrArg (fun n => n.testBit i) hagree
      rw [testBit_complement hm, decide_eq_true ((Nat.pow_lt_pow_iff_right (by norm_num)).mp hlt)]
      simpa [Nat.testBit_two_pow_self] using hbit
    have hpos : 0 < 2 ^ k := Nat.two_pow_pos k
    have hle : 2 ^ k ≤ 2 ^ W := by omega
    exact ⟨k, (Nat.pow_le_pow_iff_right (by norm_num)).mp hle, by omega⟩
  · rintro ⟨k, hk, rfl⟩ x hx y hy
    have hpos : 0 < 2 ^ k := Nat.two_pow_pos k
    have hle : 2 ^ k ≤ 2 ^ W := Nat.pow_le_pow_right (by norm_num) hk
    refine ⟨between_of_agree hm hy, fun ⟨hlow, hhigh⟩ => ?_⟩
    rw [show 2 ^ W - 1 - (2 ^ W - 2 ^ k) = 2 ^ k - 1 by omega] at hhigh
    rw [and_prefixMask hk hx, and_prefixMask hk hy, agree_of_between hk hx hlow hhigh]

/-- The number with the bits of `x` under the mask and those of `y` elsewhere. -/
theorem select_bits (hm : m < 2 ^ W) (x y : Nat) :
    ((x &&& m) ||| (y &&& (2 ^ W - 1 - m))) &&& m = x &&& m ∧
      ((x &&& m) ||| (y &&& (2 ^ W - 1 - m))) &&& (2 ^ W - 1 - m) = y &&& (2 ^ W - 1 - m) := by
  constructor <;> refine Nat.eq_of_testBit_eq fun i => ?_
  · simp only [Nat.testBit_and, Nat.testBit_or, testBit_complement hm]
    cases m.testBit i <;> simp
  · simp only [Nat.testBit_and, Nat.testBit_or, testBit_complement hm]
    cases m.testBit i <;> simp

end masks

end SocialNetwork.Foundation
