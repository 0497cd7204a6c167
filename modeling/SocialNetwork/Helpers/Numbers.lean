import SocialNetwork.Helpers.Strings

/-!
# Numbers in texts

`helpers/number_parser.cpp` over the numeric conversions of the standard library, in three bases. Every
exception becomes `false`, here `none`.

A conversion reads the numeral at the start of the text (`signedNumeral`). `std::stoul` and
`std::stoull` refuse a numeral only if its magnitude does not fit 64 bits, and return what it is
modulo `2 ^ 64` (`stoul_eq_some_iff`); the functions for 32 bits cut that again. So the signed
functions return the numeral, and the unsigned ones return it exactly if it is neither negative nor
too large for the result (`unwrapped_iff`).
-/

namespace SocialNetwork.Helpers

open Foundation

/-! ## The numeral at the start of a text -/

/-- The value of a digit in a base up to sixteen. -/
def digitIn (base : Nat) (c : UInt8) : Option Nat := (hexDigitValue c).filter (· < base)

/-- `strtol` in base 16 passes over a `0x` in front of a digit. -/
def skipPrefix (base : Nat) (s : Bytes) : Bytes :=
  match s with
  | zero :: x :: d :: rest =>
      if base = 16 && zero = chr '0' && (x = chr 'x' || x = chr 'X') && (digitIn 16 d).isSome then
        d :: rest
      else s
  | _ => s

/-- What `strtol` and `strtoul` read: white space, a sign, and the longest run of digits, which must
not be empty; the text after the digits is ignored. The sign and the magnitude. -/
def readNumeral (base : Nat) (s : Bytes) : Option (Bool × Nat) :=
  let s := s.dropWhile isSpace
  let (negative, s) := match s with
    | c :: rest =>
        if c = chr '-' then (true, rest) else if c = chr '+' then (false, rest) else (false, s)
    | [] => (false, [])
  let digits := (skipPrefix base s).takeWhile fun c => (digitIn base c).isSome
  if digits = [] then none
  else some (negative, digits.foldl (fun v c => v * base + (digitIn base c).getD 0) 0)

/-- The signed numeral at the start of a text. -/
def signedNumeral (base : Nat) (s : Bytes) : Option Int :=
  (readNumeral base s).map fun (negative, n) => if negative then -(n : Int) else n

/-! ## The code -/

/-- `std::stoul` with 64 bits: the exception is `none`, a minus sign wraps around. -/
def stoul (base : Nat) (s : Bytes) : Option Nat :=
  match readNumeral base s with
  | none => none
  | some (negative, n) =>
      if n < 2 ^ 64 then some (if negative then (2 ^ 64 - n) % 2 ^ 64 else n) else none

/-- `std::stoull`, of the same width. -/
def stoull (base : Nat) (s : Bytes) : Option Nat := stoul base s

/-- A signed conversion, to `w` bits. -/
def signedConversion (w base : Nat) (s : Bytes) : Option Int :=
  match readNumeral base s with
  | none => none
  | some (negative, n) =>
      let v : Int := if negative then -n else n
      if -2 ^ (w - 1) ≤ v ∧ v < 2 ^ (w - 1) then some v else none

/-- `std::stoi`. -/
def stoi (base : Nat) (s : Bytes) : Option Int := signedConversion 32 base s

/-- `std::stoll`. -/
def stoll (base : Nat) (s : Bytes) : Option Int := signedConversion 64 base s

/-- `static_cast<uint32_t>` of what was read. -/
def castUint32 (v : Option Nat) : Option Nat := v.map (· % 2 ^ 32)

/-- `NumberParserHelpers::try_parse_int`. -/
def tryParseInt (s : Bytes) : Option Int := stoi 10 s

/-- `NumberParserHelpers::try_parse_int64`. -/
def tryParseInt64 (s : Bytes) : Option Int := stoll 10 s

/-- `NumberParserHelpers::try_parse_uint`. -/
def tryParseUint (s : Bytes) : Option Nat := castUint32 (stoul 10 s)

/-- `NumberParserHelpers::try_parse_uint64`. -/
def tryParseUint64 (s : Bytes) : Option Nat := stoull 10 s

/-- `NumberParserHelpers::try_parse_hex`. -/
def tryParseHex (s : Bytes) : Option Nat := castUint32 (stoul 0x10 s)

/-- `NumberParserHelpers::try_parse_hex64`. -/
def tryParseHex64 (s : Bytes) : Option Nat := stoull 0x10 s

/-- `NumberParserHelpers::try_parse_oct`. -/
def tryParseOct (s : Bytes) : Option Nat := castUint32 (stoul 8 s)

/-- `NumberParserHelpers::try_parse_oct64`. -/
def tryParseOct64 (s : Bytes) : Option Nat := stoull 8 s

/-! ## Base 10 -/

/-- The decimal digits. -/
theorem digitIn_ten (c : UInt8) : digitIn 10 c = if isDigit c then some (digitValue c) else none := by
  unfold digitIn hexDigitValue
  by_cases hdigit : isDigit c = true
  · have hlt : c.toNat - 48 < 10 := by
      simp only [isDigit, chr, Bool.and_eq_true, decide_eq_true_eq, UInt8.le_iff_toNat_le] at hdigit
      obtain ⟨-, hhigh⟩ : 48 ≤ c.toNat ∧ c.toNat ≤ 57 := hdigit
      omega
    rw [if_pos hdigit, if_pos hdigit, Option.filter_some, if_pos (decide_eq_true hlt), digitValue]
  · rw [if_neg hdigit, if_neg hdigit]
    split_ifs with hlower hupper
    · simp only [chr, Bool.and_eq_true, decide_eq_true_eq, UInt8.le_iff_toNat_le] at hlower
      obtain ⟨hlow, -⟩ : 97 ≤ c.toNat ∧ c.toNat ≤ 102 := hlower
      rw [Option.filter_some, if_neg (by simp; omega)]
    · simp only [chr, Bool.and_eq_true, decide_eq_true_eq, UInt8.le_iff_toNat_le] at hupper
      obtain ⟨hlow, -⟩ : 65 ≤ c.toNat ∧ c.toNat ≤ 70 := hupper
      rw [Option.filter_some, if_neg (by simp; omega)]
    · rfl

/-- There is no prefix in base 10. -/
theorem skipPrefix_ten (s : Bytes) : skipPrefix 10 s = s := by
  unfold skipPrefix
  split
  · rw [if_neg (by simp)]
  · rfl

/-- A text of digits is read as the number that it is. -/
theorem readNumeral_digits {s : Bytes} (hne : s ≠ []) (hs : ∀ c ∈ s, isDigit c = true) :
    readNumeral 10 s = some (false, numeral s) := by
  have hdigit : (fun c => (digitIn 10 c).isSome) = isDigit := by
    funext c
    rw [digitIn_ten]
    by_cases h : isDigit c = true <;> simp [h]
  have hvalue : s.foldl (fun v c => v * 10 + (digitIn 10 c).getD 0) 0 = numeral s := by
    refine List.foldl_ext _ _ _ fun v c hc => ?_
    rw [digitIn_ten, if_pos (hs c hc), Option.getD_some]
  cases s with
  | nil => exact absurd rfl hne
  | cons c rest =>
      obtain ⟨hspace, hminus, hplus⟩ : isSpace c = false ∧ c ≠ chr '-' ∧ c ≠ chr '+' :=
        forall_digit (p := fun c => isSpace c = false ∧ c ≠ chr '-' ∧ c ≠ chr '+') (by decide)
          (hs c List.mem_cons_self)
      simp only [readNumeral, List.dropWhile_cons, hspace, Bool.false_eq_true, if_false, hminus,
        hplus, skipPrefix_ten, hdigit, List.takeWhile_eq_self_iff.mpr hs, reduceCtorEq, hvalue]

/-- A printed number is read back. -/
theorem readNumeral_decimal (n : Nat) : readNumeral 10 (decimal n) = some (false, n) := by
  rw [readNumeral_digits (decimal_ne_nil n) fun c hc => isDigit_of_mem_decimal hc, numeral_decimal]

/-- `try_parse_int` reads a printed number that fits. -/
theorem tryParseInt_decimal {n : Nat} (h : n < 2 ^ 31) : tryParseInt (decimal n) = some (n : Int) := by
  simp only [tryParseInt, stoi, signedConversion, readNumeral_decimal, Bool.false_eq_true, if_false]
  rw [if_pos (by omega)]

/-- `try_parse_uint` reads a printed number that fits. -/
theorem tryParseUint_decimal {n : Nat} (h : n < 2 ^ 32) : tryParseUint (decimal n) = some n := by
  simp only [tryParseUint, castUint32, stoul, readNumeral_decimal, Bool.false_eq_true, if_false]
  rw [if_pos (by omega), Option.map_some, Nat.mod_eq_of_lt h]

/-! ## What the conversions return -/

variable {base : Nat} {s : Bytes}

/-- The numeral, from its sign and its magnitude. -/
theorem signedNumeral_eq_some_iff {x : Int} : signedNumeral base s = some x ↔
    ∃ negative n, readNumeral base s = some (negative, n) ∧
      x = if negative then -(n : Int) else n := by
  rw [signedNumeral, Option.map_eq_some_iff]
  constructor
  · rintro ⟨⟨negative, n⟩, hread, rfl⟩
    exact ⟨negative, n, hread, rfl⟩
  · rintro ⟨negative, n, hread, rfl⟩
    exact ⟨(negative, n), hread, rfl⟩

/-- **An unsigned conversion** returns what the numeral is modulo `2 ^ 64`, unless its magnitude is
too large. -/
theorem stoul_eq_some_iff {v : Nat} : stoul base s = some v ↔
    ∃ x, signedNumeral base s = some x ∧ x.natAbs < 2 ^ 64 ∧ (v : Int) = x % 2 ^ 64 := by
  unfold stoul
  cases hread : readNumeral base s with
  | none => simp [signedNumeral, hread]
  | some out =>
      obtain ⟨negative, n⟩ := out
      have hnumeral : signedNumeral base s = some (if negative then -(n : Int) else n) :=
        signedNumeral_eq_some_iff.mpr ⟨negative, n, hread, rfl⟩
      simp only [hnumeral, Option.some.injEq, exists_eq_left']
      cases negative with
      | false =>
          simp only [Bool.false_eq_true, if_false, Int.natAbs_natCast]
          split_ifs with hlt
          · rw [Option.some.injEq]
            omega
          · exact iff_of_false (by simp) fun h => hlt h.1
      | true =>
          simp only [if_true, Int.natAbs_neg, Int.natAbs_natCast]
          split_ifs with hlt
          · rw [Option.some.injEq]
            omega
          · exact iff_of_false (by simp) fun h => hlt h.1

/-- **A signed conversion** returns the numeral, if it fits. -/
theorem signedConversion_eq_some_iff {w : Nat} {v : Int} : signedConversion w base s = some v ↔
    signedNumeral base s = some v ∧ -2 ^ (w - 1) ≤ v ∧ v < 2 ^ (w - 1) := by
  unfold signedConversion
  cases hread : readNumeral base s with
  | none => simp [signedNumeral, hread]
  | some out =>
      obtain ⟨negative, n⟩ := out
      have hnumeral : signedNumeral base s = some (if negative then -(n : Int) else n) :=
        signedNumeral_eq_some_iff.mpr ⟨negative, n, hread, rfl⟩
      dsimp only
      rw [Option.ite_none_right_eq_some, hnumeral]
      constructor
      · rintro ⟨hrange, hv⟩
        exact ⟨hv, Option.some.inj hv ▸ hrange⟩
      · rintro ⟨hv, hrange⟩
        exact ⟨(Option.some.inj hv).symm ▸ hrange, hv⟩

/-- What `try_parse_int` returns. -/
theorem tryParseInt_eq_some_iff {v : Int} : tryParseInt s = some v ↔
    signedNumeral 10 s = some v ∧ -2 ^ 31 ≤ v ∧ v < 2 ^ 31 := signedConversion_eq_some_iff

/-- A text of digits is its own numeral. -/
theorem signedNumeral_digits (hne : s ≠ []) (hs : ∀ c ∈ s, isDigit c = true) :
    signedNumeral 10 s = some (numeral s : Int) :=
  signedNumeral_eq_some_iff.mpr ⟨false, numeral s, readNumeral_digits hne hs, rfl⟩

/-- A number that fits is kept as a port. -/
theorem toNat_port {n : Nat} (h : n ≤ 65535) : (UInt16.ofNat n).toNat = n :=
  UInt16.toNat_ofNat_of_lt (Nat.lt_succ_of_le h)

/-- What `try_parse_uint` returns. -/
theorem tryParseUint_eq_some_iff {v : Nat} : tryParseUint s = some v ↔
    ∃ x, signedNumeral 10 s = some x ∧ x.natAbs < 2 ^ 64 ∧ (v : Int) = x % 2 ^ 32 := by
  rw [tryParseUint, castUint32, Option.map_eq_some_iff]
  constructor
  · rintro ⟨u, hu, rfl⟩
    obtain ⟨x, hx, hlt, heq⟩ := stoul_eq_some_iff.mp hu
    exact ⟨x, hx, hlt, by omega⟩
  · rintro ⟨x, hx, hlt, heq⟩
    refine ⟨(x % 2 ^ 64).toNat, stoul_eq_some_iff.mpr ⟨x, hx, hlt, ?_⟩, ?_⟩
    · omega
    · omega

/-! ## Where the value is not the numeral -/

/-- The numeral, if it is not too large to be read, is one of `w` bits without a sign. -/
def Unwrapped (w base : Nat) (s : Bytes) : Prop :=
  ∀ x, signedNumeral base s = some x → x.natAbs < 2 ^ 64 → 0 ≤ x ∧ x < 2 ^ w

/-- **The unsigned functions**, cut to `w` bits. -/
theorem unwrapped_iff {w : Nat} (hw : w ≤ 64) :
    (∀ v : Nat, (stoul base s).map (· % 2 ^ w) = some v → signedNumeral base s = some (v : Int)) ↔
      Unwrapped w base s := by
  have hdvd : (2 ^ w : Int) ∣ 2 ^ 64 := pow_dvd_pow 2 hw
  constructor
  · intro h x hx hlt
    have hv := h ((x % 2 ^ 64).toNat % 2 ^ w) (by
      rw [stoul_eq_some_iff.mpr ⟨x, hx, hlt, Int.toNat_of_nonneg (Int.emod_nonneg x (by norm_num))⟩]
      rfl)
    rw [hx, Option.some.injEq] at hv
    rw [hv]
    have hlt' : (x % 2 ^ 64).toNat % 2 ^ w < 2 ^ w := Nat.mod_lt _ (Nat.two_pow_pos w)
    exact ⟨Int.natCast_nonneg _, by exact_mod_cast hlt'⟩
  · intro h v hv
    obtain ⟨u, hu, rfl⟩ := Option.map_eq_some_iff.mp hv
    obtain ⟨x, hx, hlt, heq⟩ := stoul_eq_some_iff.mp hu
    obtain ⟨hnonneg, hfits⟩ := h x hx hlt
    rw [hx, Option.some.injEq, Int.natCast_mod, heq, Nat.cast_pow, Nat.cast_ofNat,
      Int.emod_emod_of_dvd x hdvd, Int.emod_eq_of_lt hnonneg hfits]

/-- 64 bits hold what `std::stoull` returns. -/
theorem stoull_map (base : Nat) (s : Bytes) : (stoul base s).map (· % 2 ^ 64) = stoull base s := by
  rw [stoull]
  cases hread : stoul base s with
  | none => rfl
  | some v =>
      obtain ⟨x, -, -, heq⟩ := stoul_eq_some_iff.mp hread
      have hlt : v < 2 ^ 64 := by omega
      rw [Option.map_some, Nat.mod_eq_of_lt hlt]

end SocialNetwork.Helpers
