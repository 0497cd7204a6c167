import Mathlib.Data.Nat.Digits.Lemmas
import Mathlib.Data.List.TakeWhile

/-!
# Byte strings

A C++ `std::string` is a list of bytes. This file fixes the literals (`str`, `chr`), the
characters of a C string (`cStr`), the scan up to a delimiter, and decimal numerals: `decimal`
prints a number without leading zeros and `numeral` reads a digit string back.
-/

namespace SocialNetwork.Foundation

/-- A `std::string`: any bytes, NUL included. -/
abbrev Bytes := List UInt8

/-- The byte of an ASCII character. -/
def chr (c : Char) : UInt8 := UInt8.ofNat c.toNat

/-- An ASCII string literal. -/
def str (s : String) : Bytes := s.toList.map chr

/-- What a C function sees of a `std::string`: the bytes before the first NUL. -/
def cStr (s : Bytes) : Bytes := s.takeWhile (· ≠ 0)

/-- `std::isspace` in the C locale. -/
def isSpace (c : UInt8) : Bool := c = 32 || (9 ≤ c && c ≤ 13)

/-- A string without a NUL is seen whole. -/
theorem cStr_eq_self {s : Bytes} (h : 0 ∉ s) : cStr s = s := by
  rw [cStr, List.takeWhile_eq_self_iff]
  intro x hx
  simp only [ne_eq, decide_not, Bool.not_eq_true', decide_eq_false_iff_not]
  rintro rfl
  exact h hx

/-- Texts are told apart by the numbers of their bytes. -/
theorem map_toNat_inj {l r : Bytes} : l.map UInt8.toNat = r.map UInt8.toNat ↔ l = r :=
  (List.map_injective_iff.mpr fun _ _ => UInt8.toNat_inj.mp).eq_iff

/-- A property of bytes, checked on all of them. -/
theorem forall_byte {p : UInt8 → Prop} (h : ∀ n < 256, p (UInt8.ofNat n)) (c : UInt8) : p c := by
  simpa using h c.toNat c.toNat_lt

/-- A property of the characters of a text, checked on each of them. -/
theorem forall_mem_of_all {p : UInt8 → Prop} [DecidablePred p] {s : Bytes}
    (h : s.all (fun c => p c) = true) : ∀ c ∈ s, p c := by
  simpa using h

/-! ## Scanning up to a delimiter -/

section scan

variable {α : Type*} {p : α → Bool}

/-- A scan eats a prefix without delimiters and stops at the delimiter after it. -/
theorem span_append_cons {l r : List α} {a : α} (hl : ∀ x ∈ l, p x = true) (ha : p a = false) :
    (l ++ a :: r).span p = (l, a :: r) := by
  rw [List.span_eq_takeWhile_dropWhile, List.takeWhile_append_of_pos hl,
    List.dropWhile_append_of_pos hl]
  simp [ha]

/-- A scan over a string without delimiters eats all of it. -/
theorem span_eq_self {l : List α} (hl : ∀ x ∈ l, p x = true) : l.span p = (l, []) := by
  rw [List.span_eq_takeWhile_dropWhile, List.takeWhile_eq_self_iff.mpr hl,
    List.dropWhile_eq_nil_iff.mpr hl]

/-- The bytes of a text without a delimiter are scanned. -/
theorem decide_ne_of_not_mem [DecidableEq α] {d : α} {l : List α} (h : d ∉ l) :
    ∀ x ∈ l, decide (x ≠ d) = true := by
  intro x hx
  apply decide_eq_true
  rintro rfl
  exact h hx

/-- A scan up to a delimiter, or to the end. -/
theorem span_delimiter [DecidableEq α] {d : α} {l : List α} (r : List α) (hfree : d ∉ l)
    (hr : ∀ x ∈ r.head?, x = d) : (l ++ r).span (· ≠ d) = (l, r) := by
  cases r with
  | nil => rw [List.append_nil, span_eq_self (decide_ne_of_not_mem hfree)]
  | cons x r => exact span_append_cons (decide_ne_of_not_mem hfree) (by simp [hr x rfl])

/-- The scan stops at a delimiter. -/
theorem head_dropWhile {l : List α} {a : α} (h : (l.dropWhile p).head? = some a) : p a = false := by
  have hstop := List.head?_dropWhile_not p l
  rw [h] at hstop
  exact hstop

end scan

/-! ## Decimal numerals -/

/-- `c >= '0' && c <= '9'`. -/
def isDigit (c : UInt8) : Bool := chr '0' ≤ c && c ≤ chr '9'

/-- The value of a decimal digit. -/
def digitValue (c : UInt8) : Nat := c.toNat - 48

/-- The digit of a number below ten. -/
def digitByte (d : Nat) : UInt8 := UInt8.ofNat (48 + d)

/-- The value of a string of decimal digits, most significant first. -/
def numeral (s : Bytes) : Nat := s.foldl (fun v c => v * 10 + digitValue c) 0

/-- `std::format("{}", n)` for an unsigned `n`. -/
def decimal (n : Nat) : Bytes :=
  if n = 0 then [chr '0'] else (Nat.digits 10 n).reverse.map digitByte

/-- The character of a digit is a digit. -/
theorem isDigit_digitByte {d : Nat} (h : d < 10) : isDigit (digitByte d) = true := by
  interval_cases d <;> decide

/-- The character of a digit has its value. -/
theorem digitValue_digitByte {d : Nat} (h : d < 10) : digitValue (digitByte d) = d := by
  interval_cases d <;> decide

/-- A property of the digits, checked on the ten of them. -/
theorem forall_digit {p : UInt8 → Prop} (h : ∀ d < 10, p (digitByte d)) {c : UInt8}
    (hc : isDigit c = true) : p c := by
  simp only [isDigit, chr, Bool.and_eq_true, decide_eq_true_eq, UInt8.le_iff_toNat_le] at hc
  obtain ⟨hlow, hhigh⟩ : 48 ≤ c.toNat ∧ c.toNat ≤ 57 := hc
  have heq : c = digitByte (c.toNat - 48) := by
    rw [digitByte, Nat.add_sub_cancel' hlow, UInt8.ofNat_toNat]
  rw [heq]
  exact h _ (by omega)

/-- A printed number consists of digits. -/
theorem isDigit_of_mem_decimal {n : Nat} {c : UInt8} (h : c ∈ decimal n) : isDigit c = true := by
  unfold decimal at h
  split at h
  · simp only [List.mem_singleton] at h
    subst h
    decide
  · simp only [List.mem_map, List.mem_reverse] at h
    obtain ⟨d, hd, rfl⟩ := h
    exact isDigit_digitByte (Nat.digits_lt_base (by norm_num) hd)

/-- A printed number is not empty. -/
theorem decimal_ne_nil (n : Nat) : decimal n ≠ [] := by
  unfold decimal
  split
  · simp
  · simpa using Nat.digits_ne_nil_iff_ne_zero.mpr ‹_›

/-- Reading the digits of a number from the most significant one gives the number. -/
theorem foldl_digits (base n : Nat) :
    (Nat.digits base n).reverse.foldl (fun v d => v * base + d) 0 = n := by
  rw [List.foldl_reverse]
  conv_rhs => rw [← Nat.ofDigits_digits base n, Nat.ofDigits_eq_foldr]
  congr 1
  funext d v
  simp [Nat.mul_comm, Nat.add_comm]

/-- Reading digits never makes the number smaller. -/
theorem le_foldl_digits {base : Nat} (hb : 0 < base) (ds : List Nat) (v : Nat) :
    v ≤ ds.foldl (fun v d => v * base + d) v := by
  induction ds generalizing v with
  | nil => exact le_rfl
  | cons d ds ih =>
      have hv : v ≤ v * base + d := (Nat.le_mul_of_pos_right v hb).trans (Nat.le_add_right _ _)
      exact hv.trans (ih _)

/-- Reading a printed number gives the number. -/
theorem numeral_decimal (n : Nat) : numeral (decimal n) = n := by
  unfold numeral decimal
  split
  · subst n
    decide
  · have hfold : ∀ ds : List Nat, (∀ d ∈ ds, d < 10) → ∀ v,
        (ds.map digitByte).foldl (fun v c => v * 10 + digitValue c) v =
          ds.foldl (fun v d => v * 10 + d) v := by
      intro ds
      induction ds with
      | nil => intro _ v; rfl
      | cons d ds ih =>
          intro hds v
          simp only [List.map_cons, List.foldl_cons,
            digitValue_digitByte (hds d List.mem_cons_self)]
          exact ih (fun x hx => hds x (List.mem_cons_of_mem _ hx)) _
    rw [hfold _ fun d hd => Nat.digits_lt_base (by norm_num) (List.mem_reverse.mp hd),
      foldl_digits]

/-! ## Hexadecimal numerals -/

/-- The lower-case digit of a number below sixteen. -/
def hexByte (d : Nat) : UInt8 := UInt8.ofNat (if d < 10 then 48 + d else 87 + d)

/-- The value of a hexadecimal digit of either case. -/
def hexDigitValue (c : UInt8) : Option Nat :=
  if isDigit c then some (c.toNat - 48)
  else if chr 'a' ≤ c && c ≤ chr 'f' then some (c.toNat - 87)
  else if chr 'A' ≤ c && c ≤ chr 'F' then some (c.toNat - 55)
  else none

/-- `std::format("{:x}", n)`. -/
def hex (n : Nat) : Bytes :=
  if n = 0 then [chr '0'] else (Nat.digits 16 n).reverse.map hexByte

/-- `std::format("{:w}", …)` of a numeral: padded with blanks on the left. -/
def padLeft (w : Nat) (s : Bytes) : Bytes := List.replicate (w - s.length) (chr ' ') ++ s

/-- The character of a hexadecimal digit has its value. -/
theorem hexDigitValue_hexByte {d : Nat} (h : d < 16) : hexDigitValue (hexByte d) = some d := by
  interval_cases d <;> decide

/-- A numeral of a non-zero number is the list of its digits, most significant first. -/
theorem hex_eq {n : Nat} (h : n ≠ 0) : hex n = (Nat.digits 16 n).reverse.map hexByte := if_neg h

/-- A number below `16 ^ k` has at most `k` digits. -/
theorem length_hex_le {n k : Nat} (hk : 0 < k) (h : n < 16 ^ k) : (hex n).length ≤ k := by
  unfold hex
  split
  · exact hk
  · rw [List.length_map, List.length_reverse]
    exact (Nat.digits_length_le_iff (by norm_num) n).mpr h

/-- A number of 16 bits from `16 ^ 3` on has four digits. -/
theorem length_hex {n : Nat} (h : 16 ^ 3 ≤ n) (h' : n < 16 ^ 4) : (hex n).length = 4 := by
  have hle := length_hex_le (by norm_num) h'
  have hlt := (Nat.lt_digits_length_iff (by norm_num) n).mpr h
  rw [hex_eq (by omega), List.length_map, List.length_reverse] at hle ⊢
  omega

/-- A number has a digit. -/
theorem hex_ne_nil (n : Nat) : hex n ≠ [] := by
  unfold hex
  split
  · simp
  · simpa using Nat.digits_ne_nil_iff_ne_zero.mpr ‹_›

/-- A printed number consists of hexadecimal digits. -/
theorem mem_hex {n : Nat} {c : UInt8} (h : c ∈ hex n) : ∃ d < 16, c = hexByte d := by
  unfold hex at h
  split at h
  · exact ⟨0, by norm_num, List.mem_singleton.mp h⟩
  · simp only [List.mem_map, List.mem_reverse] at h
    obtain ⟨d, hd, rfl⟩ := h
    exact ⟨d, Nat.digits_lt_base (by norm_num) hd, rfl⟩

/-- A character that is no hexadecimal digit does not occur in a printed number. -/
theorem not_mem_hex {c : UInt8} (hc : ∀ d < 16, hexByte d ≠ c) (n : Nat) : c ∉ hex n := fun h => by
  obtain ⟨d, hd, he⟩ := mem_hex h
  exact hc d hd he.symm

/-- A non-zero number is printed without a leading zero. -/
theorem head_hex {n : Nat} (h : n ≠ 0) : ∃ d cs, 0 < d ∧ d < 16 ∧ hex n = hexByte d :: cs := by
  rw [hex_eq h]
  cases hdigits : (Nat.digits 16 n).reverse with
  | nil => exact absurd (List.reverse_eq_nil_iff.mp hdigits) (Nat.digits_ne_nil_iff_ne_zero.mpr h)
  | cons d ds =>
      have hlast := Nat.getLast_digit_ne_zero 16 h
      rw [List.getLast_eq_head_reverse] at hlast
      have hmem : d ∈ Nat.digits 16 n := by
        rw [← List.mem_reverse, hdigits]
        exact List.mem_cons_self
      refine ⟨d, ds.map hexByte, ?_, Nat.digits_lt_base (by norm_num) hmem, rfl⟩
      exact Nat.pos_of_ne_zero (by simpa [hdigits] using hlast)

end SocialNetwork.Foundation
