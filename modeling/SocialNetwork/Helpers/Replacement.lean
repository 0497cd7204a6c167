import SocialNetwork.Foundation.Loops
import SocialNetwork.Foundation.Occurrences
import SocialNetwork.Helpers.Strings

/-!
# Replacing substrings, pass by pass

`replace_in_place` and `replace` of `helpers/string.cpp` as the code runs them: a loop that searches
the string from `start` on and builds a second string, which is swapped in at the end. A string that a
function refers to is the state; `append` may throw. All positions are at most the length of the
string, so that the arithmetic on `size_t` is that of the natural numbers.

The pieces between the replaced occurrences are the leftmost cut of the string from `start` on, and
the loop leaves (`replaceInPlace_run`). From the beginning of the string this is the replacement that
goes through it character by character (`replaceInPlace_zero_run`).
-/

namespace SocialNetwork.Helpers

open Foundation

namespace StringHelpers

/-- The `std::out_of_range` of `append`. -/
structure OutOfRange where
  pos : Nat
  size : Nat
  deriving DecidableEq, Repr

/-- A function on the string it refers to: it may throw, and its loops may run out of passes. -/
abbrev OnString := StateT Bytes (OptionT (Except OutOfRange))

/-- `result.append(s, pos, n)`. -/
def append (result s : Bytes) (pos n : Nat) : OptionT (Except OutOfRange) Bytes :=
  if pos ≤ s.length then pure (result ++ (s.drop pos).take n)
  else OptionT.lift (throw ⟨pos, s.length⟩)

/-- One pass of the loop of `replace_in_place`, on `result` and `start`. -/
def replacePass (s src dst : Bytes) :
    Bytes × Nat → OptionT (Except OutOfRange) ((Bytes × Nat) ⊕ Bytes)
  | (result, start) =>
    match findFrom src s start with
    | some pos => do
        let result ← append result s start (pos - start)
        pure (.inl (result ++ dst, pos + src.length))
    | none => do
        let result ← append result s start (s.length - start)
        pure (.inr result)

/-- `StringHelpers::replace_in_place`. -/
def replaceInPlace (fuel : Nat) (src dst : Bytes) (start : Nat) : OnString Unit := do
  if src = [] then pure ()
  else if src = dst then pure ()
  else
    let s ← get
    let result ← append [] s 0 start
    let result ← StateT.lift (loop (replacePass s src dst) fuel (result, start))
    set result

/-- `StringHelpers::replace`: the argument is copied, and the copy is rewritten. -/
def replace (fuel : Nat) (src dst : Bytes) (start : Nat) : OnString Bytes := do
  let s ← get
  let ((), result) ← (replaceInPlace fuel src dst start).run s
  pure result

/-! ## The loop -/

theorem append_of_le {s : Bytes} {pos : Nat} (h : pos ≤ s.length) (result : Bytes) (n : Nat) :
    append result s pos n = pure (result ++ (s.drop pos).take n) := if_pos h

/-- The loop from `start` on: what it builds after `result` is put together from the pieces of the rest
of the string. -/
theorem loop_replacePass {src s : Bytes} (hsrc : src ≠ []) (dst result : Bytes) {start : Nat}
    (hstart : start ≤ s.length) {pieces : List Bytes} (hcut : LeftmostCut src (s.drop start) pieces)
    {fuel : Nat} (hfuel : s.length < fuel) :
    loop (replacePass s src dst) fuel (result, start) = pure (result ++ dst.intercalate pieces) := by
  have hpos := List.length_pos_of_ne_nil hsrc
  let target := result ++ dst.intercalate pieces
  -- what is still to be replaced completes the result
  let inv : Bytes × Nat → Prop := fun st => st.2 ≤ s.length ∧
    ∀ ps, LeftmostCut src (s.drop st.2) ps → st.1 ++ dst.intercalate ps = target
  have hpass : ∀ st, inv st →
      (∃ st', replacePass s src dst st = pure (.inl st') ∧ inv st' ∧
        s.length - st'.2 < s.length - st.2) ∨
      ∃ r, replacePass s src dst st = pure (.inr r) ∧ r = target := by
    rintro ⟨result, start⟩ ⟨hle, htarget⟩
    cases hfind : findFrom src s start with
    | some pos =>
        have hend := findFrom_le hfind
        have hbegin := (findFrom_eq_some hfind).1
        refine .inl ⟨(result ++ (s.drop start).take (pos - start) ++ dst, pos + src.length), ?_,
          ⟨hend, fun ps hps => ?_⟩, by dsimp only; omega⟩
        · simp only [replacePass, hfind, append_of_le hle, pure_bind]
        · rw [← htarget _ (hps.of_find hfind), List.intercalate_cons_of_ne_nil hps.ne_nil]
          simp only [List.append_assoc]
    | none =>
        refine .inr ⟨result ++ s.drop start, ?_, ?_⟩
        · simp only [replacePass, hfind, append_of_le hle, pure_bind]
          rw [List.take_of_length_le (by rw [List.length_drop])]
        · rw [← htarget _ (.of_not_find hfind), List.intercalate_singleton]
  have hinit : inv (result, start) := ⟨hstart, fun ps hps => by rw [hps.unique hsrc hcut]⟩
  have hmeasure : s.length - start < fuel := lt_of_le_of_lt (Nat.sub_le _ _) hfuel
  obtain ⟨r, hr, rfl⟩ := loop_total inv (fun st => s.length - st.2) hpass hinit hmeasure
  exact hr

/-- **`replace_in_place` puts the pieces together.** -/
theorem replaceInPlace_run {src s : Bytes} (hsrc : src ≠ []) (dst : Bytes) {start : Nat}
    (hstart : start ≤ s.length) {pieces : List Bytes} (hcut : LeftmostCut src (s.drop start) pieces)
    {fuel : Nat} (hfuel : s.length < fuel) :
    (replaceInPlace fuel src dst start).run s =
      pure ((), s.take start ++ dst.intercalate pieces) := by
  by_cases hsame : src = dst
  · subst hsame
    rw [hcut.joined, List.take_append_drop, replaceInPlace, if_neg hsrc, if_pos rfl]
    rfl
  · have hloop := loop_replacePass hsrc dst (s.take start) hstart hcut hfuel
    rw [replaceInPlace, if_neg hsrc, if_neg hsame]
    simp [append_of_le (Nat.zero_le _), hloop]

theorem replace_run {src s : Bytes} (hsrc : src ≠ []) (dst : Bytes) {start : Nat}
    (hstart : start ≤ s.length) {pieces : List Bytes} (hcut : LeftmostCut src (s.drop start) pieces)
    {fuel : Nat} (hfuel : s.length < fuel) :
    (replace fuel src dst start).run s = pure (s.take start ++ dst.intercalate pieces, s) := by
  have hrun := replaceInPlace_run hsrc dst hstart hcut hfuel
  simp [replace, hrun]

/-- **Exactly the leftmost occurrences that do not overlap are replaced**, within one pass more than the
string is long. -/
theorem replace_leftmost_occurrences {src s : Bytes} (hsrc : src ≠ []) (dst : Bytes) {start : Nat}
    (hstart : start ≤ s.length) :
    ∃! pieces, LeftmostCut src (s.drop start) pieces ∧ ∀ fuel > s.length,
      (replaceInPlace fuel src dst start).run s =
        pure ((), s.take start ++ dst.intercalate pieces) ∧
      (replace fuel src dst start).run s = pure (s.take start ++ dst.intercalate pieces, s) := by
  obtain ⟨pieces, hcut⟩ := exists_leftmostCut hsrc (s.drop start)
  refine ⟨pieces, ⟨hcut, fun fuel hfuel => ?_⟩, fun pieces' h => h.1.unique hsrc hcut⟩
  exact ⟨replaceInPlace_run hsrc dst hstart hcut hfuel, replace_run hsrc dst hstart hcut hfuel⟩

theorem replace_leftmost_occurrences_overlapping :
    str "aba" ≠ [] ∧ 1 ≤ (str "xababaXaba").length ∧
      ∃! pieces, LeftmostCut (str "aba") ((str "xababaXaba").drop 1) pieces ∧
        ∀ fuel > (str "xababaXaba").length,
          (replaceInPlace fuel (str "aba") (str "[aba]") 1).run (str "xababaXaba") =
            pure ((), (str "xababaXaba").take 1 ++ (str "[aba]").intercalate pieces) ∧
          (replace fuel (str "aba") (str "[aba]") 1).run (str "xababaXaba") =
            pure ((str "xababaXaba").take 1 ++ (str "[aba]").intercalate pieces,
              str "xababaXaba") :=
  ⟨by decide, by decide, replace_leftmost_occurrences (by decide) (str "[aba]") (by decide)⟩

/-- An occurrence that overlaps one that is replaced stays, and so does one in the replacement. -/
example : (replaceInPlace 11 (str "aba") (str "[aba]") 1).run (str "xababaXaba") =
    pure ((), str "x[aba]baX[aba]") := rfl

/-- Past the end of the string there is nothing to replace, and nothing to copy. -/
theorem replaceInPlace_out_of_range {src dst s : Bytes} {start : Nat} (hsrc : src ≠ [])
    (hdst : src ≠ dst) (hstart : s.length < start) (fuel : Nat) :
    ((replaceInPlace (fuel + 1) src dst start).run s).run = .error ⟨start, s.length⟩ := by
  have hfind : findFrom src s start = none := by
    rw [findFrom, Nat.sub_eq_zero_of_le (by omega)]
    rfl
  have hthrow (result : Bytes) (n : Nat) :
      append result s start n = OptionT.lift (throw ⟨start, s.length⟩) := if_neg (by omega)
  have hloop (result : Bytes) : loop (replacePass s src dst) (fuel + 1) (result, start) =
      OptionT.lift (throw ⟨start, s.length⟩) := by
    rw [loop]
    simp only [replacePass, hfind, hthrow]
    rfl
  rw [replaceInPlace, if_neg hsrc, if_neg hdst]
  simp only [append_of_le (Nat.zero_le _), StateT.run_bind, StateT.run_get, pure_bind,
    StateT.run_lift, hloop]
  rfl

/-! ## From the beginning of the string -/

/-- Going through the string character by character makes the same cut. -/
theorem replaceLoop_cut {src s : Bytes} (hsrc : src ≠ []) (dst : Bytes) {fuel : Nat}
    (hfuel : s.length ≤ fuel) {pieces : List Bytes} (hcut : LeftmostCut src s pieces) :
    replaceLoop src dst fuel s = dst.intercalate pieces := by
  have hpos := List.length_pos_of_ne_nil hsrc
  have hnil (fuel : Nat) (ps : List Bytes) (hps : LeftmostCut src [] ps) :
      replaceLoop src dst fuel [] = dst.intercalate ps := by
    obtain rfl := hps.unique hsrc (.last fun i hi => absurd hi (Nat.not_lt_zero i))
    cases fuel <;> rfl
  induction fuel generalizing s pieces with
  | zero =>
      obtain rfl := List.length_eq_zero_iff.mp (Nat.le_zero.mp hfuel)
      exact hnil 0 pieces hcut
  | succ fuel ih =>
      cases s with
      | nil => exact hnil _ pieces hcut
      | cons c s =>
          rw [replaceLoop]
          split
          · rename_i hpre
            obtain ⟨rest, hrest⟩ := hpre
            obtain ⟨ps, hps⟩ := exists_leftmostCut hsrc rest
            have hlen := congrArg List.length hrest
            rw [List.length_append] at hlen
            have hcut' := LeftmostCut.cons (t := []) (fun i hi => absurd hi (Nat.not_lt_zero i)) hps
            rw [List.nil_append, hrest] at hcut'
            rw [← hrest, List.drop_left, ih (by omega) hps, hcut.unique hsrc hcut',
              List.intercalate_cons_of_ne_nil hps.ne_nil, List.nil_append]
          · rename_i hpre
            obtain ⟨ps, hps⟩ := exists_leftmostCut hsrc s
            obtain ⟨t, ps, rfl⟩ := List.exists_cons_of_ne_nil hps.ne_nil
            rw [List.length_cons] at hfuel
            rw [ih (by omega) hps, hcut.unique hsrc (hps.cons_char hpre),
              List.intercalate_cons_cons_left]

/-- From the beginning of the string, the loop computes what `Helpers.replaceInPlace` does. -/
theorem replaceInPlace_zero_run (src dst s : Bytes) {fuel : Nat} (hfuel : s.length < fuel) :
    (replaceInPlace fuel src dst 0).run s = pure ((), Helpers.replaceInPlace s src dst) := by
  by_cases hsrc : src = []
  · rw [replaceInPlace, if_pos hsrc, Helpers.replaceInPlace, if_pos (by simp [hsrc])]
    rfl
  · obtain ⟨pieces, hcut⟩ := exists_leftmostCut hsrc s
    rw [replaceInPlace_run hsrc dst (Nat.zero_le _) hcut hfuel, List.take_zero, List.nil_append,
      Helpers.replaceInPlace]
    by_cases hsame : src = dst
    · rw [if_pos (by simp [hsame]), ← hsame, hcut.joined]
    · rw [if_neg (by simp [hsrc, hsame]), replaceLoop_cut hsrc dst le_rfl hcut]

end StringHelpers

end SocialNetwork.Helpers
