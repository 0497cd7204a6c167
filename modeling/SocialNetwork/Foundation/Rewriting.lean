import Mathlib.Data.List.Infix
import Mathlib.Logic.Relation

/-!
# Rewriting words

A rule replaces one occurrence of a word by another word. A rule with a shorter right side
terminates; what cannot be rewritten any more is a normal form. A rule whose right side is the left side
less some letters deletes only these (`Deletes.of_rewritesStar`). The last section takes a word apart at
a block of one letter.
-/

namespace SocialNetwork.Foundation

variable {α : Type*} {src dst s s' : List α}

/-! ## Rules -/

/-- One occurrence of `src` becomes `dst`. -/
def Rewrites (src dst s s' : List α) : Prop := ∃ l r, s = l ++ src ++ r ∧ s' = l ++ dst ++ r

/-- A step in a text is one in every longer text. -/
theorem Rewrites.append_left (t : List α) (h : Rewrites src dst s s') :
    Rewrites src dst (t ++ s) (t ++ s') := by
  obtain ⟨l, r, rfl, rfl⟩ := h
  exact ⟨t ++ l, r, by simp only [List.append_assoc], by simp only [List.append_assoc]⟩

/-- The pattern at the start can be rewritten. -/
theorem Rewrites.head (r : List α) : Rewrites src dst (src ++ r) (dst ++ r) := ⟨[], r, rfl, rfl⟩

/-- Steps in a text are steps in every longer text. -/
theorem rewritesStar_append_left (t : List α) (h : Relation.ReflTransGen (Rewrites src dst) s s') :
    Relation.ReflTransGen (Rewrites src dst) (t ++ s) (t ++ s') :=
  h.lift (t ++ ·) fun _ _ => Rewrites.append_left t

/-- Some steps in a text are some steps in every longer text. -/
theorem rewritesPlus_append_left (t : List α) (h : Relation.TransGen (Rewrites src dst) s s') :
    Relation.TransGen (Rewrites src dst) (t ++ s) (t ++ s') :=
  h.lift (t ++ ·) fun _ _ => Rewrites.append_left t

/-- A shorter replacement makes the text shorter. -/
theorem Rewrites.length_lt (hshort : dst.length < src.length) (h : Rewrites src dst s s') :
    s'.length < s.length := by
  obtain ⟨l, r, rfl, rfl⟩ := h
  simp only [List.length_append]
  omega

/-- A rule with a shorter right side terminates. -/
theorem rewritesPlus_length_lt (hshort : dst.length < src.length)
    (h : Relation.TransGen (Rewrites src dst) s s') : s'.length < s.length := by
  induction h with
  | single h => exact h.length_lt hshort
  | tail _ h ih => exact (h.length_lt hshort).trans ih

/-- A property that no rule application breaks. -/
theorem rewritesStar_induct {P : List α → Prop} (hstep : ∀ s s', P s → Rewrites src dst s s' → P s')
    (h : Relation.ReflTransGen (Rewrites src dst) s s') (hs : P s) : P s' := by
  induction h with
  | refl => exact hs
  | tail _ h ih => exact hstep _ _ ih h

/-! ## Deleting letters -/

/-- Some letters with `p` are deleted. -/
inductive Deletes (p : α → Prop) : List α → List α → Prop
  | nil : Deletes p [] []
  | keep (c : α) {s s' : List α} : Deletes p s s' → Deletes p (c :: s) (c :: s')
  | delete {c : α} {s s' : List α} : p c → Deletes p s s' → Deletes p (c :: s) s'

namespace Deletes

variable {p : α → Prop} {s'' t t' : List α}

/-- Nothing may be deleted. -/
theorem refl (s : List α) : Deletes p s s := by
  induction s with
  | nil => exact .nil
  | cons c s ih => exact .keep c ih

/-- Deletions may follow one another. -/
theorem trans (h : Deletes p s s') (h' : Deletes p s' s'') : Deletes p s s'' := by
  induction h generalizing s'' with
  | nil => exact h'
  | keep c _ ih =>
      cases h' with
      | keep _ h' => exact .keep c (ih h')
      | delete hc h' => exact .delete hc (ih h')
  | delete hc _ ih => exact .delete hc (ih h')

/-- Two texts may be deleted from side by side. -/
theorem append (h : Deletes p s s') (h' : Deletes p t t') : Deletes p (s ++ t) (s' ++ t') := by
  induction h with
  | nil => exact h'
  | keep c _ ih => exact .keep c ih
  | delete hc _ ih => exact .delete hc ih

/-- What is left is a part of the text. -/
theorem sublist (h : Deletes p s s') : List.Sublist s' s := by
  induction h with
  | nil => exact .slnil
  | keep c _ ih => exact ih.cons_cons c
  | delete _ _ ih => exact ih.cons _

/-- What is dropped from the front may be deleted. -/
theorem dropWhile {q : α → Bool} (h : ∀ c, q c = true → p c) (s : List α) :
    Deletes p s (s.dropWhile q) := by
  induction s with
  | nil => exact .nil
  | cons c s ih =>
      rw [List.dropWhile_cons]
      split
      · rename_i hc
        exact .delete (h c hc) ih
      · exact refl _

/-- A rule that deletes letters, applied any number of times. -/
theorem of_rewritesStar (hrule : Deletes p src dst)
    (h : Relation.ReflTransGen (Rewrites src dst) s s') : Deletes p s s' := by
  refine rewritesStar_induct (P := Deletes p s) (fun u u' hu hstep => hu.trans ?_) h (refl s)
  obtain ⟨l, r, rfl, rfl⟩ := hstep
  exact ((refl l).append hrule).append (refl r)

end Deletes

/-! ## Blocks -/

/-- A letter that occurs in one block only lies in that block. -/
theorem split_block {z : α} {x y a b : List α} {m : Nat} (ha : z ∉ a) (hb : z ∉ b)
    (h : x ++ z :: y = a ++ List.replicate m z ++ b) :
    ∃ i j, x = a ++ List.replicate i z ∧ y = List.replicate j z ++ b ∧ m = i + 1 + j := by
  induction a generalizing x with
  | nil =>
      induction m generalizing x with
      | zero =>
          have hmem : z ∈ x ++ z :: y := List.mem_append_right _ List.mem_cons_self
          rw [h] at hmem
          exact absurd hmem hb
      | succ m ih =>
          cases x with
          | nil => exact ⟨0, m, rfl, (List.cons.inj h).2, by omega⟩
          | cons c x =>
              obtain ⟨rfl, hrest⟩ := List.cons.inj h
              obtain ⟨i, j, hx, hy, hm⟩ := ih hrest
              exact ⟨i + 1, j, by rw [hx]; rfl, hy, by omega⟩
  | cons c a ih =>
      cases x with
      | nil => exact absurd ((List.cons.inj h).1 ▸ List.mem_cons_self) ha
      | cons d x =>
          obtain ⟨rfl, hrest⟩ := List.cons.inj h
          obtain ⟨i, j, hx, hy, hm⟩ := ih (fun hmem => ha (List.mem_cons_of_mem _ hmem)) hrest
          exact ⟨i, j, by rw [hx]; rfl, hy, hm⟩

/-- The same for several letters in a row. -/
theorem split_blocks {z : α} {x y a b : List α} {k m : Nat} (ha : z ∉ a) (hb : z ∉ b) (hk : 0 < k)
    (h : x ++ List.replicate k z ++ y = a ++ List.replicate m z ++ b) :
    ∃ i j, x = a ++ List.replicate i z ∧ y = List.replicate j z ++ b ∧ m = i + k + j := by
  induction k generalizing x with
  | zero => exact absurd hk (lt_irrefl 0)
  | succ k ih =>
      rw [List.replicate_succ, List.append_assoc, List.cons_append] at h
      obtain ⟨i, j, hx, hy, hm⟩ := split_block ha hb h
      by_cases hk : k = 0
      · subst hk
        exact ⟨i, j, hx, hy, hm⟩
      · have hnext : (x ++ [z]) ++ List.replicate k z ++ y = a ++ List.replicate m z ++ b := by
          rw [← h]
          simp
        obtain ⟨i', j', hx', hy', hm'⟩ := ih (by omega) hnext
        have hlen := congrArg List.length hx'
        rw [hx] at hlen
        simp only [List.length_append, List.length_replicate, List.length_singleton] at hlen
        exact ⟨i, j', hx, hy', by omega⟩

end SocialNetwork.Foundation
