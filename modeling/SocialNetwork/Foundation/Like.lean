import Mathlib.Data.List.Basic
import Mathlib.Data.List.Infix
import Mathlib.Data.List.TakeWhile

/-!
# `LIKE` patterns

The pattern language of SQL's `LIKE` over any alphabet: `any` matches every run of characters,
`one` any single character, and `esc` makes the next character stand for itself. A pattern that
ends in the escape character is an error.

`startsLike_iff`: appending `any` to a text gives a pattern that matches exactly the texts with
that literal prefix if and only if none of the three special characters occurs in the text. In one
direction the pattern is the text letter by letter (`parse_plain`). In the other, the first special
character leaves room for a match that does not have the text as a prefix: a match is never longer
than its pattern (`Item.fill`), and shorter where an `any` or an `esc` has been used up.
-/

namespace SocialNetwork.Foundation

/-- The special characters of a pattern. -/
structure Wildcards (α : Type*) where
  any : α
  one : α
  esc : α
  any_ne_one : any ≠ one
  any_ne_esc : any ≠ esc
  one_ne_esc : one ≠ esc

namespace Wildcards

/-- What a pattern consists of. -/
inductive Item (α : Type*)
  | literal (c : α)
  | one
  | any

variable {α : Type*} [DecidableEq α] (W : Wildcards α)

/-- The items of a pattern; `none` if it ends in the escape character. -/
def parse : List α → Option (List (Item α))
  | [] => some []
  | c :: p =>
      if c = W.any then (parse p).map (.any :: ·)
      else if c = W.one then (parse p).map (.one :: ·)
      else if c = W.esc then
        match p with
        | [] => none
        | x :: p => (parse p).map (.literal x :: ·)
      else (parse p).map (.literal c :: ·)

/-- Whether items match a text, all of it. -/
def Item.matches : List (Item α) → List α → Bool
  | [], t => t.isEmpty
  | .literal c :: items, t => t.head? = some c && Item.matches items t.tail
  | .one :: items, t => !t.isEmpty && Item.matches items t.tail
  | .any :: items, t => t.tails.any fun rest => Item.matches items rest

/-- `text LIKE pattern`; `none` is an error. -/
def like (pattern text : List α) : Option Bool :=
  (W.parse pattern).map fun items => Item.matches items text

/-- A character without a special meaning. -/
def Plain (c : α) : Prop := c ≠ W.any ∧ c ≠ W.one ∧ c ≠ W.esc

instance (c : α) : Decidable (W.Plain c) := by
  unfold Plain
  infer_instance

/-! ## Parsing -/

section parse

variable {W}

/-- A `%` stands for any run. -/
theorem parse_any (p : List α) : W.parse (W.any :: p) = (W.parse p).map (.any :: ·) := by
  rw [parse.eq_def]
  exact if_pos rfl

/-- A `_` stands for any character. -/
theorem parse_one (p : List α) : W.parse (W.one :: p) = (W.parse p).map (.one :: ·) := by
  rw [parse.eq_def]
  exact (if_neg W.any_ne_one.symm).trans (if_pos rfl)

/-- An escaped character stands for itself. -/
theorem parse_esc (x : α) (p : List α) :
    W.parse (W.esc :: x :: p) = (W.parse p).map (.literal x :: ·) := by
  rw [parse.eq_def]
  exact (if_neg W.any_ne_esc.symm).trans ((if_neg W.one_ne_esc.symm).trans (if_pos rfl))

/-- A plain character stands for itself. -/
theorem parse_plain_cons {c : α} (hc : W.Plain c) (p : List α) :
    W.parse (c :: p) = (W.parse p).map (.literal c :: ·) := by
  rw [parse.eq_def]
  exact (if_neg hc.1).trans ((if_neg hc.2.1).trans (if_neg hc.2.2))

/-- Plain characters stand for themselves. -/
theorem parse_plain {f : List α} (hf : ∀ c ∈ f, W.Plain c) (p : List α) :
    W.parse (f ++ p) = (W.parse p).map (f.map .literal ++ ·) := by
  induction f with
  | nil => simp
  | cons c f ih =>
      rw [List.cons_append, parse_plain_cons (hf c List.mem_cons_self),
        ih fun x hx => hf x (List.mem_cons_of_mem c hx), Option.map_map]
      rfl

end parse

/-! ## Matching -/

/-- A `%` takes some run, and the rest of the pattern takes the rest of the text. -/
theorem matches_any (items : List (Item α)) (t : List α) :
    Item.matches (.any :: items) t = true ↔ ∃ run rest, t = run ++ rest ∧
      Item.matches items rest = true := by
  simp only [Item.matches, List.any_eq_true, List.mem_tails]
  constructor
  · rintro ⟨rest, ⟨run, rfl⟩, h⟩
    exact ⟨run, rest, rfl, h⟩
  · rintro ⟨run, rest, rfl, h⟩
    exact ⟨rest, ⟨run, rfl⟩, h⟩

/-- Literal items match their letters and go on. -/
theorem matches_literals (f : List α) (items : List (Item α)) (t : List α) :
    Item.matches (f.map .literal ++ items) t = true ↔ ∃ rest, t = f ++ rest ∧
      Item.matches items rest = true := by
  induction f generalizing t with
  | nil => simp
  | cons c f ih =>
      simp only [List.map_cons, List.cons_append, Item.matches, Bool.and_eq_true,
        decide_eq_true_eq, ih]
      constructor
      · rintro ⟨hhead, rest, htail, h⟩
        refine ⟨rest, ?_, h⟩
        rw [← htail]
        exact (List.cons_head?_tail hhead).symm
      · rintro ⟨rest, rfl, h⟩
        exact ⟨rfl, rest, rfl, h⟩

/-- A trailing `any` matches whatever is left. -/
theorem matches_any_only (t : List α) : Item.matches [.any] t = true :=
  (matches_any [] t).mpr ⟨t, [], (List.append_nil t).symm, rfl⟩

/-- The shortest match: nothing for `any`, and `a` for `one`. -/
def Item.fill (a : α) : List (Item α) → List α
  | [] => []
  | .literal c :: items => c :: Item.fill a items
  | .one :: items => a :: Item.fill a items
  | .any :: items => Item.fill a items

/-- A pattern takes the text in which each of its wild cards is filled. -/
theorem matches_fill (a : α) (items : List (Item α)) :
    Item.matches items (Item.fill a items) = true := by
  induction items with
  | nil => rfl
  | cons item items ih =>
      cases item with
      | literal c => simp [Item.fill, Item.matches, ih]
      | one => simp [Item.fill, Item.matches, ih]
      | any => exact (matches_any _ _).mpr ⟨[], _, rfl, ih⟩

/-- A text with `any` at its end is a pattern, with a match that is not longer than the text. -/
theorem exists_parse_append_any (a : α) (f : List α) :
    ∃ items, W.parse (f ++ [W.any]) = some items ∧ (Item.fill a items).length ≤ f.length := by
  -- the escape character takes two letters at a time
  induction hn : f.length using Nat.strong_induction_on generalizing f with
  | _ n ih =>
      cases f with
      | nil => exact ⟨[.any], parse_any [], Nat.zero_le _⟩
      | cons c f =>
          simp only [List.length_cons] at hn
          obtain ⟨items, hparse, hlen⟩ := ih f.length (by omega) f rfl
          by_cases hplain : W.Plain c
          · refine ⟨.literal c :: items, ?_, by simp only [Item.fill, List.length_cons]; omega⟩
            rw [List.cons_append, parse_plain_cons hplain, hparse, Option.map_some]
          · by_cases hany : c = W.any
            · refine ⟨.any :: items, ?_, by simp only [Item.fill]; omega⟩
              rw [List.cons_append, hany, parse_any, hparse, Option.map_some]
            · by_cases hone : c = W.one
              · refine ⟨.one :: items, ?_, by simp only [Item.fill, List.length_cons]; omega⟩
                rw [List.cons_append, hone, parse_one, hparse, Option.map_some]
              · have hesc : c = W.esc := by
                  by_contra hne
                  exact hplain ⟨hany, hone, hne⟩
                cases f with
                | nil =>
                    refine ⟨[.literal W.any], ?_, by simp only [Item.fill, List.length_singleton]; omega⟩
                    rw [hesc]
                    exact parse_esc W.any []
                | cons x f =>
                    simp only [List.length_cons] at hn
                    obtain ⟨items, hparse, hlen⟩ := ih f.length (by omega) f rfl
                    refine ⟨.literal x :: items, ?_,
                      by simp only [Item.fill, List.length_cons]; omega⟩
                    rw [hesc, List.cons_append, List.cons_append, parse_esc, hparse,
                      Option.map_some]

/-! ## Prefix search -/

/-- A plain text with `any` at its end matches the texts it is a prefix of. -/
theorem like_plain {f : List α} (hf : ∀ c ∈ f, W.Plain c) (t : List α) :
    W.like (f ++ [W.any]) t = some (decide (f <+: t)) := by
  unfold like
  rw [parse_plain hf, parse_any, parse, Option.map_some, Option.map_some, Option.map_some,
    Option.some.injEq, Bool.eq_iff_iff, matches_literals, decide_eq_true_eq]
  constructor
  · rintro ⟨rest, rfl, -⟩
    exact List.prefix_append f rest
  · rintro ⟨rest, rfl⟩
    exact ⟨rest, rfl, matches_any_only rest⟩

/-- A text with a special character, and `any` at its end, matches a text it is not a prefix of. -/
theorem exists_like_not_prefix {f : List α} (hf : ¬∀ c ∈ f, W.Plain c) :
    ∃ t, W.like (f ++ [W.any]) t = some true ∧ ¬f <+: t := by
  -- `f` up to its first special character, that character, and the rest
  obtain ⟨pre, m, rest, rfl, hpre, hm⟩ : ∃ pre m rest, f = pre ++ m :: rest ∧
      (∀ c ∈ pre, W.Plain c) ∧ ¬W.Plain m := by
    have hne : f.dropWhile (fun c => W.Plain c) ≠ [] := by
      rw [Ne, List.dropWhile_eq_nil_iff]
      simpa using hf
    obtain ⟨m, rest, hdrop⟩ := List.exists_cons_of_ne_nil hne
    refine ⟨f.takeWhile (fun c => W.Plain c), m, rest, ?_, ?_, ?_⟩
    · rw [← hdrop, List.takeWhile_append_dropWhile]
    · intro c hc
      simpa using List.mem_takeWhile_imp hc
    · have hhead := List.head_dropWhile_not (fun c => decide (W.Plain c)) hne
      simpa [hdrop] using hhead
  -- a match of what follows the plain part is a match once that part is put before it
  have hmatch : ∀ {items t}, W.parse (m :: rest ++ [W.any]) = some items →
      Item.matches items t = true → W.like (pre ++ m :: rest ++ [W.any]) (pre ++ t) = some true := by
    intro items t hparse ht
    unfold like
    rw [List.append_assoc, parse_plain hpre, hparse, Option.map_some, Option.map_some,
      Option.some.injEq, matches_literals]
    exact ⟨t, rfl, ht⟩
  obtain ⟨items, hparse, hlen⟩ := W.exists_parse_append_any W.any rest
  by_cases hone : m = W.one
  · -- another character in place of `one`
    have hparse' : W.parse (m :: rest ++ [W.any]) = some (.one :: items) := by
      rw [hone, List.cons_append, parse_one, hparse, Option.map_some]
    refine ⟨pre ++ W.any :: Item.fill W.any items, hmatch hparse' ?_, ?_⟩
    · simp [Item.matches, matches_fill]
    · rw [List.prefix_append_right_inj, List.cons_prefix_cons]
      rintro ⟨heq, -⟩
      exact W.any_ne_one (heq.symm.trans hone)
  · -- a match that is too short
    have hshort : ∃ items, W.parse (m :: rest ++ [W.any]) = some items ∧
        ((Item.fill W.any items).length ≤ rest.length ∧ m ≠ W.esc ∨
          m = W.esc ∧ ((Item.fill W.any items).length ≤ rest.length ∨ rest = [] ∧
            Item.fill W.any items = [W.any])) := by
      by_cases hesc : m = W.esc
      · cases rest with
        | nil =>
            refine ⟨[.literal W.any], ?_, .inr ⟨hesc, .inr ⟨rfl, rfl⟩⟩⟩
            rw [hesc]
            exact parse_esc W.any []
        | cons x rest =>
            obtain ⟨items, hparse, hlen⟩ := W.exists_parse_append_any W.any rest
            refine ⟨.literal x :: items, ?_, .inr ⟨hesc, .inl ?_⟩⟩
            · rw [hesc, List.cons_append, List.cons_append, parse_esc, hparse, Option.map_some]
            · simp only [Item.fill, List.length_cons]
              omega
      · have hany : m = W.any := by
          by_contra hne
          exact hm ⟨hne, hone, hesc⟩
        refine ⟨.any :: items, ?_, .inl ⟨hlen, hesc⟩⟩
        rw [hany, List.cons_append, parse_any, hparse, Option.map_some]
    obtain ⟨items', hparse', hshort⟩ := hshort
    refine ⟨pre ++ Item.fill W.any items', hmatch hparse' (matches_fill W.any items'), ?_⟩
    rw [List.prefix_append_right_inj]
    intro hstart
    have hle := hstart.length_le
    rw [List.length_cons] at hle
    rcases hshort with ⟨hlen', -⟩ | ⟨hesc, hlen' | ⟨-, hfill⟩⟩
    · omega
    · omega
    · rw [hfill, List.cons_prefix_cons] at hstart
      exact W.any_ne_esc (hstart.1.symm.trans hesc)

/-- **`LIKE` as a prefix search**: with `any` appended, a text matches exactly the texts it is a
prefix of if and only if it has no special character. -/
theorem startsLike_iff (f : List α) :
    (∀ t, W.like (f ++ [W.any]) t = some (decide (f <+: t))) ↔ ∀ c ∈ f, W.Plain c := by
  refine ⟨fun h => ?_, W.like_plain⟩
  by_contra hf
  obtain ⟨t, hlike, hstart⟩ := W.exists_like_not_prefix hf
  rw [h t, Option.some.injEq, decide_eq_true_eq] at hlike
  exact hstart hlike

end Wildcards

end SocialNetwork.Foundation
