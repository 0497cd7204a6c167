import SocialNetwork.Foundation.Bytes
import Mathlib.Data.List.Infix

/-!
# `StringHelpers`

What `helpers/string.cpp` computes, on byte strings and in the C locale: trimming, case, and
replacement.
-/

namespace SocialNetwork.Helpers

open Foundation

/-- `StringHelpers::trim`. -/
def trim (s : Bytes) : Bytes := ((s.dropWhile isSpace).reverse.dropWhile isSpace).reverse

/-- `StringHelpers::to_lowercase_ch`. -/
def toLowercaseCh (c : UInt8) : UInt8 := if chr 'A' ≤ c && c ≤ chr 'Z' then c + 32 else c

/-- `StringHelpers::to_lowercase`. -/
def toLowercase (s : Bytes) : Bytes := s.map toLowercaseCh

/-- The loop of `replace_in_place`: the occurrences of `src` from left to right, not
overlapping. -/
def replaceLoop (src dst : Bytes) : Nat → Bytes → Bytes
  | 0, s => s
  | _ + 1, [] => []
  | fuel + 1, c :: s =>
      if src <+: c :: s then dst ++ replaceLoop src dst fuel ((c :: s).drop src.length)
      else c :: replaceLoop src dst fuel s

/-- `StringHelpers::replace_in_place`. -/
def replaceInPlace (s src dst : Bytes) : Bytes :=
  if src = [] || src = dst then s else replaceLoop src dst s.length s

/-- Trimming a string that does not end in white space. -/
theorem trim_eq_dropWhile {s : Bytes} (h : ∀ c, s.getLast? = some c → isSpace c = false) :
    trim s = s.dropWhile isSpace := by
  unfold trim
  rw [List.reverse_eq_iff, List.dropWhile_eq_self_iff]
  intro hpos
  have hne : s.dropWhile isSpace ≠ [] := by
    rintro he
    simp [he] at hpos
  have hlast : s.getLast? = some ((s.dropWhile isSpace).getLast hne) := by
    conv_lhs => rw [← List.takeWhile_append_dropWhile (p := isSpace) (l := s)]
    rw [List.getLast?_append_of_ne_nil _ hne, List.getLast?_eq_some_getLast hne]
  simpa [List.getElem_zero, List.head_reverse] using h _ hlast

/-- Replacement keeps the characters that do not occur in the pattern. -/
theorem mem_replaceLoop {src dst : Bytes} {c : UInt8} (hc : c ∉ src) (fuel : Nat) {s : Bytes}
    (hs : c ∈ s) : c ∈ replaceLoop src dst fuel s := by
  induction fuel generalizing s with
  | zero => exact hs
  | succ fuel ih =>
      cases s with
      | nil => cases hs
      | cons b s =>
          unfold replaceLoop
          split
          · rename_i hpre
            obtain ⟨rest, hrest⟩ := hpre
            rw [← hrest, List.drop_left]
            rw [← hrest] at hs
            exact List.mem_append_right _ (ih ((List.mem_append.mp hs).resolve_left hc))
          · rcases List.mem_cons.mp hs with rfl | hs
            · exact List.mem_cons_self
            · exact List.mem_cons_of_mem _ (ih hs)

theorem mem_replaceInPlace {s src dst : Bytes} {c : UInt8} (hc : c ∉ src) (hs : c ∈ s) :
    c ∈ replaceInPlace s src dst := by
  unfold replaceInPlace
  split
  · exact hs
  · exact mem_replaceLoop hc _ hs

/-- Replacement brings in no characters but those of the replacement. -/
theorem mem_of_mem_replaceLoop {src dst : Bytes} {c : UInt8} (fuel : Nat) {s : Bytes}
    (h : c ∈ replaceLoop src dst fuel s) : c ∈ s ∨ c ∈ dst := by
  induction fuel generalizing s with
  | zero => exact .inl h
  | succ fuel ih =>
      cases s with
      | nil => cases h
      | cons b s =>
          unfold replaceLoop at h
          split at h
          · rcases List.mem_append.mp h with h | h
            · exact .inr h
            · exact (ih h).imp_left List.mem_of_mem_drop
          · rcases List.mem_cons.mp h with rfl | h
            · exact .inl List.mem_cons_self
            · exact (ih h).imp_left (List.mem_cons_of_mem _)

theorem mem_of_mem_replaceInPlace {s src dst : Bytes} {c : UInt8}
    (h : c ∈ replaceInPlace s src dst) : c ∈ s ∨ c ∈ dst := by
  unfold replaceInPlace at h
  split at h
  · exact .inl h
  · exact mem_of_mem_replaceLoop _ h

/-- Lower case changes only the 26 capital letters. -/
theorem toLowercaseCh_cases (c : UInt8) :
    toLowercaseCh c = c ∨ ∃ n < 26, c = UInt8.ofNat (65 + n) := by
  unfold toLowercaseCh
  split
  · rename_i h
    simp only [chr, Bool.and_eq_true, decide_eq_true_eq, UInt8.le_iff_toNat_le] at h
    obtain ⟨hlow, hhigh⟩ : 65 ≤ c.toNat ∧ c.toNat ≤ 90 := h
    refine .inr ⟨c.toNat - 65, by omega, ?_⟩
    rw [Nat.add_sub_cancel' hlow, UInt8.ofNat_toNat]
  · exact .inl rfl

/-- What is not the lower case of a capital letter is the lower case of itself only. -/
theorem eq_of_toLowercaseCh {c x : UInt8}
    (hc : ∀ n < 26, toLowercaseCh (UInt8.ofNat (65 + n)) ≠ c) (h : toLowercaseCh x = c) : x = c := by
  rcases toLowercaseCh_cases x with hsame | ⟨n, hn, rfl⟩
  · rwa [hsame] at h
  · exact absurd h (hc n hn)

/-- Lower case twice is lower case. -/
theorem toLowercaseCh_idem (c : UInt8) : toLowercaseCh (toLowercaseCh c) = toLowercaseCh c := by
  have hupper : ∀ n < 26, toLowercaseCh (toLowercaseCh (UInt8.ofNat (65 + n))) =
      toLowercaseCh (UInt8.ofNat (65 + n)) := by
    decide
  rcases toLowercaseCh_cases c with h | ⟨n, hn, rfl⟩
  · rw [h, h]
  · exact hupper n hn

@[simp] theorem toLowercase_idem (s : Bytes) : toLowercase (toLowercase s) = toLowercase s := by
  simp [toLowercase, Function.comp_def, toLowercaseCh_idem]

end SocialNetwork.Helpers
