import Mathlib.Data.List.Infix

/-!
# Occurrences of a word

A word is searched for in a text from a position on (`findFrom`). Going from one occurrence found to
the next, each search starting where the last occurrence ends, cuts the text into pieces: between two
pieces stands the word, and no occurrence begins inside a piece (`LeftmostCut`). Occurrences may
overlap one that is cut out; they are passed over.

A text has at most one such cut (`LeftmostCut.unique`), so what is put together from its pieces is a
function of the text.
-/

namespace SocialNetwork.Foundation

variable {α : Type*} {src s rest t : List α} {pieces pieces' : List (List α)}

/-! ## Searching -/

section Search

variable [DecidableEq α]

/-- The first occurrence that begins at `start` or after it. -/
def findFrom (src s : List α) (start : Nat) : Option Nat :=
  (List.range' start (s.length + 1 - start)).find? fun pos => src <+: s.drop pos

/-- What is found: the first occurrence from the start on. -/
theorem findFrom_eq_some {start pos : Nat} (h : findFrom src s start = some pos) :
    start ≤ pos ∧ pos ≤ s.length ∧ src <+: s.drop pos ∧
      ∀ i, start ≤ i → i < pos → ¬src <+: s.drop i := by
  rw [findFrom, List.find?_range'_eq_some] at h
  obtain ⟨hocc, hmem, hfirst⟩ := h
  rw [List.mem_range'_1] at hmem
  refine ⟨hmem.1, by omega, of_decide_eq_true hocc, fun i hi hlt => ?_⟩
  simpa using hfirst i hi hlt

/-- The text around what is found. -/
theorem findFrom_split {start pos : Nat} (h : findFrom src s start = some pos) :
    s.drop start = (s.drop start).take (pos - start) ++ src ++ s.drop (pos + src.length) := by
  obtain ⟨hle, -, hocc, -⟩ := findFrom_eq_some h
  have hpos : start + (pos - start) = pos := Nat.add_sub_cancel' hle
  calc s.drop start
      = (s.drop start).take (pos - start) ++ (s.drop start).drop (pos - start) :=
        (List.take_append_drop _ _).symm
    _ = (s.drop start).take (pos - start) ++ (src ++ (s.drop pos).drop src.length) := by
        rw [List.drop_drop, hpos]
        exact congrArg _ (List.prefix_iff_eq_append.mp hocc).symm
    _ = _ := by rw [List.drop_drop, List.append_assoc]

/-- An occurrence ends within the text. -/
theorem findFrom_le {start pos : Nat} (h : findFrom src s start = some pos) :
    pos + src.length ≤ s.length := by
  obtain ⟨-, hle, hocc, -⟩ := findFrom_eq_some h
  have hlen := hocc.length_le
  rw [List.length_drop] at hlen
  omega

/-- If nothing is found, there is no occurrence from the start on. -/
theorem findFrom_eq_none {start : Nat} (h : findFrom src s start = none) {i : Nat}
    (hi : start ≤ i) (hle : i ≤ s.length) : ¬src <+: s.drop i := by
  rw [findFrom, List.find?_range'_eq_none] at h
  simpa using h i hi (by omega)

/-- Something is found in the whole text exactly if there is an occurrence. -/
theorem findFrom_zero_isSome : (findFrom src s 0).isSome ↔ src <:+: s := by
  constructor
  · intro h
    obtain ⟨pos, hfind⟩ := Option.isSome_iff_exists.mp h
    exact (findFrom_eq_some hfind).2.2.1.isInfix.trans (List.drop_suffix _ _).isInfix
  · rintro ⟨l, r, rfl⟩
    by_contra hnone
    rw [Option.not_isSome_iff_eq_none] at hnone
    refine findFrom_eq_none hnone (Nat.zero_le l.length) (by simp) ?_
    rw [List.append_assoc, List.drop_left]
    exact List.prefix_append _ _

end Search

/-! ## Cutting -/

/-- The pieces of a text between occurrences of `src`, none of which begins inside a piece. -/
structure LeftmostCut (src s : List α) (pieces : List (List α)) : Prop where
  ne_nil : pieces ≠ []
  joined : src.intercalate pieces = s
  avoids : ∀ before piece after, pieces = before ++ piece :: after → ∀ i < piece.length,
    ¬src <+: s.drop ((before.flatMap (· ++ src)).length + i)

/-- A text in which nothing occurs is one piece. -/
theorem LeftmostCut.last (h : ∀ i < s.length, ¬src <+: s.drop i) : LeftmostCut src s [s] where
  ne_nil := List.cons_ne_nil _ _
  joined := List.intercalate_singleton
  avoids before piece after hsplit i hi := by
    cases before with
    | nil =>
        obtain ⟨rfl, -⟩ := List.cons.inj hsplit
        simpa using h i hi
    | cons p before =>
        have hnil := (List.cons.inj hsplit).2
        exact absurd hnil (by simp)

/-- The text up to the first occurrence, and the pieces of the text after it. -/
theorem LeftmostCut.cons (h : ∀ i < t.length, ¬src <+: (t ++ src ++ rest).drop i)
    (hrest : LeftmostCut src rest pieces) :
    LeftmostCut src (t ++ src ++ rest) (t :: pieces) where
  ne_nil := List.cons_ne_nil _ _
  joined := by
    rw [List.intercalate_cons_of_ne_nil hrest.ne_nil, hrest.joined]
  avoids before piece after hsplit i hi := by
    cases before with
    | nil =>
        obtain ⟨rfl, -⟩ := List.cons.inj hsplit
        simpa using h i hi
    | cons p before =>
        obtain ⟨rfl, htail⟩ := List.cons.inj hsplit
        rw [List.flatMap_cons, List.length_append, Nat.add_assoc, List.drop_append,
          List.drop_eq_nil_of_le (by omega), List.nil_append, Nat.add_sub_cancel_left]
        exact hrest.avoids before piece after htail i hi

/-- A character at which nothing begins joins the first piece. -/
theorem LeftmostCut.cons_char {c : α} (h : ¬src <+: c :: s) (hcut : LeftmostCut src s (t :: pieces)) :
    LeftmostCut src (c :: s) ((c :: t) :: pieces) where
  ne_nil := List.cons_ne_nil _ _
  joined := by rw [List.intercalate_cons_cons_left, hcut.joined]
  avoids before piece after hsplit i hi := by
    cases before with
    | nil =>
        obtain ⟨rfl, -⟩ := List.cons.inj hsplit
        cases i with
        | zero => exact h
        | succ i =>
            have havoids := hcut.avoids [] t pieces rfl i (by simpa using hi)
            simpa using havoids
    | cons p before =>
        obtain ⟨rfl, rfl⟩ := List.cons.inj hsplit
        have havoids := hcut.avoids (t :: before) piece after rfl i hi
        rw [List.flatMap_cons, List.length_append, List.length_append, List.length_cons] at *
        have hpos : t.length + 1 + src.length + (before.flatMap (· ++ src)).length + i =
            t.length + src.length + (before.flatMap (· ++ src)).length + i + 1 := by omega
        rw [hpos, List.drop_succ_cons]
        exact havoids

/-- What is found goes between the text before it and the pieces of the text after it. -/
theorem LeftmostCut.of_find [DecidableEq α] {start pos : Nat}
    (hrest : LeftmostCut src (s.drop (pos + src.length)) pieces)
    (h : findFrom src s start = some pos) :
    LeftmostCut src (s.drop start) ((s.drop start).take (pos - start) :: pieces) := by
  obtain ⟨-, -, -, hfirst⟩ := findFrom_eq_some h
  have hsplit := findFrom_split h
  have hcut := LeftmostCut.cons (t := (s.drop start).take (pos - start)) (fun i hi => ?_) hrest
  · rwa [← hsplit] at hcut
  · rw [List.length_take] at hi
    rw [← hsplit, List.drop_drop]
    exact hfirst _ (Nat.le_add_right _ _) (by omega)

/-- Where nothing is found, the rest is one piece. -/
theorem LeftmostCut.of_not_find [DecidableEq α] {start : Nat} (h : findFrom src s start = none) :
    LeftmostCut src (s.drop start) [s.drop start] := by
  refine .last fun i hi => ?_
  rw [List.length_drop] at hi
  rw [List.drop_drop]
  exact findFrom_eq_none h (Nat.le_add_right _ _) (by omega)

/-- From any start, the text is cut at its leftmost occurrences. -/
theorem exists_leftmostCut_drop [DecidableEq α] (hsrc : src ≠ []) (s : List α) (start : Nat) :
    ∃ pieces, LeftmostCut src (s.drop start) pieces := by
  have hpos := List.length_pos_of_ne_nil hsrc
  induction hn : s.length - start using Nat.strong_induction_on generalizing start with
  | _ n ih =>
      cases hfind : findFrom src s start with
      | none => exact ⟨_, .of_not_find hfind⟩
      | some pos =>
          have hle := findFrom_le hfind
          have hstart := (findFrom_eq_some hfind).1
          obtain ⟨pieces, hcut⟩ := ih _ (by omega) (pos + src.length) rfl
          exact ⟨_, hcut.of_find hfind⟩

/-- Every text has a leftmost cut. -/
theorem exists_leftmostCut [DecidableEq α] (hsrc : src ≠ []) (s : List α) :
    ∃ pieces, LeftmostCut src s pieces := exists_leftmostCut_drop hsrc s 0

/-- Nothing begins inside the first piece. -/
theorem LeftmostCut.avoids_head (hcut : LeftmostCut src s (t :: pieces)) {i : Nat}
    (hi : i < t.length) : ¬src <+: s.drop i := by
  simpa using hcut.avoids [] t pieces rfl i hi

/-- The first piece is at the start of the text. -/
theorem LeftmostCut.head_prefix (hcut : LeftmostCut src s (t :: pieces)) : t <+: s := by
  rw [← hcut.joined]
  cases pieces with
  | nil => rw [List.intercalate_singleton]
  | cons p ps =>
      rw [List.intercalate_cons_cons, List.append_assoc]
      exact List.prefix_append _ _

/-- The pieces after the first cut the text after the first occurrence. -/
theorem LeftmostCut.tail {p : List α} (hcut : LeftmostCut src s (t :: p :: pieces)) :
    ∃ rest, s = t ++ src ++ rest ∧ LeftmostCut src rest (p :: pieces) := by
  have hjoined := hcut.joined
  rw [List.intercalate_cons_cons] at hjoined
  refine ⟨_, hjoined.symm, List.cons_ne_nil _ _, rfl, fun before piece after hsplit i hi => ?_⟩
  have havoids := hcut.avoids (t :: before) piece after (by rw [hsplit]; rfl) i hi
  rwa [← hjoined, List.flatMap_cons, List.length_append, Nat.add_assoc, List.drop_append,
    List.drop_eq_nil_of_le (by omega), List.nil_append, Nat.add_sub_cancel_left] at havoids

/-- The first piece ends at the first occurrence, so of two cuts neither has the shorter one. -/
theorem LeftmostCut.length_head_le {t' : List α}
    (hcut : LeftmostCut src s (t :: pieces)) (hcut' : LeftmostCut src s (t' :: pieces')) :
    t.length ≤ t'.length := by
  by_contra hlt
  rw [not_le] at hlt
  cases pieces' with
  | nil =>
      -- the one piece of the second cut is the whole text
      have hs : t' = s := List.intercalate_singleton.symm.trans hcut'.joined
      have hlen := congrArg List.length hcut.joined
      rw [hs, ← hlen] at hlt
      cases pieces with
      | nil => exact absurd hlt (by rw [List.intercalate_singleton]; exact lt_irrefl _)
      | cons p ps =>
          rw [List.intercalate_cons_cons, List.append_assoc, List.length_append] at hlt
          omega
  | cons p ps =>
      obtain ⟨rest, hrest, -⟩ := hcut'.tail
      refine hcut.avoids_head hlt ?_
      rw [hrest, List.append_assoc, List.drop_left]
      exact List.prefix_append _ _

/-- A cut with one piece only does not cut an occurrence out. -/
theorem LeftmostCut.singleton_ne (hsrc : src ≠ []) {p : List α} (hcut : LeftmostCut src s [t])
    (hcut' : LeftmostCut src s (t :: p :: pieces)) : False := by
  obtain ⟨rest, hrest, -⟩ := hcut'.tail
  have hs : t = s := List.intercalate_singleton.symm.trans hcut.joined
  have hlen := congrArg List.length hrest
  rw [← hs, List.append_assoc, List.length_append, List.length_append] at hlen
  have hpos := List.length_pos_of_ne_nil hsrc
  omega

/-- **A text has one leftmost cut.** -/
theorem LeftmostCut.unique (hsrc : src ≠ []) (hcut : LeftmostCut src s pieces)
    (hcut' : LeftmostCut src s pieces') : pieces = pieces' := by
  induction pieces generalizing s pieces' with
  | nil => exact absurd rfl hcut.ne_nil
  | cons t pieces ih =>
      obtain ⟨t', pieces', rfl⟩ := List.exists_cons_of_ne_nil hcut'.ne_nil
      have hlen : t.length = t'.length :=
        le_antisymm (hcut.length_head_le hcut') (hcut'.length_head_le hcut)
      have ht : t = t' := by
        rw [List.prefix_iff_eq_take.mp hcut.head_prefix, hlen,
          ← List.prefix_iff_eq_take.mp hcut'.head_prefix]
      subst ht
      cases pieces with
      | nil =>
          cases pieces' with
          | nil => rfl
          | cons p ps => exact (hcut.singleton_ne hsrc hcut').elim
      | cons q qs =>
          cases pieces' with
          | nil => exact (hcut'.singleton_ne hsrc hcut).elim
          | cons p ps =>
              obtain ⟨rest, hs, hrest⟩ := hcut.tail
              obtain ⟨rest', hs', hrest'⟩ := hcut'.tail
              obtain rfl : rest = rest' := List.append_cancel_left (hs.symm.trans hs')
              rw [ih hrest hrest']

end SocialNetwork.Foundation
