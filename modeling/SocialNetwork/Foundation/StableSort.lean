import Mathlib.Data.List.Sort

/-!
# Stable sorting by a key

A stable sort keeps the order of the elements with one key (`filter_insertionSort`). So the first
element of the sorted list is the first one of the list among those with the least key
(`head?_insertionSort`).
-/

namespace SocialNetwork.Foundation

variable {α κ : Type*} [LinearOrder κ] {l : List α}

/-- **The elements with one key** stay in their order. -/
theorem filter_insertionSort (key : α → κ) (k : κ) (l : List α) :
    (l.insertionSort fun a b => key a ≤ key b).filter (fun a => key a = k) =
      l.filter fun a => key a = k := by
  have hsub : (l.filter fun a => key a = k).Sublist
      (l.insertionSort fun a b => key a ≤ key b) := by
    refine List.sublist_insertionSort ?_ List.filter_sublist
    refine List.pairwise_of_forall_mem_list fun a ha b hb => ?_
    have hka : key a = k := by simpa using (List.mem_filter.mp ha).2
    have hkb : key b = k := by simpa using (List.mem_filter.mp hb).2
    rw [hka, hkb]
  have hfilter : (l.filter fun a => key a = k).Sublist
      ((l.insertionSort fun a b => key a ≤ key b).filter fun a => key a = k) := by
    have hsub' := hsub.filter fun a => decide (key a = k)
    simpa only [List.filter_filter, Bool.and_self] using hsub'
  have hperm := (List.perm_insertionSort (fun a b => key a ≤ key b) l).filter
    fun a => decide (key a = k)
  exact (hfilter.eq_of_length hperm.length_eq.symm).symm

/-- **The first element after sorting** is the first one with the least key. -/
theorem head?_insertionSort (key : α → κ) {k : κ} (hmin : ∀ a ∈ l, k ≤ key a) (hex : ∃ a ∈ l, key a = k) :
    (l.insertionSort fun a b => key a ≤ key b).head? = l.find? fun a => key a = k := by
  obtain ⟨a, ha, hka⟩ := hex
  have hsorted := List.pairwise_insertionSort (fun a b => key a ≤ key b) l
  have hmem : a ∈ l.insertionSort fun a b => key a ≤ key b :=
    (List.mem_insertionSort fun a b => key a ≤ key b).mpr ha
  rw [← List.head?_filter, ← filter_insertionSort]
  cases hs : l.insertionSort fun a b => key a ≤ key b with
  | nil =>
      rw [hs] at hmem
      cases hmem
  | cons b rest =>
      rw [hs] at hsorted hmem
      have hb : b ∈ l := (List.mem_insertionSort fun a b => key a ≤ key b).mp (hs ▸ List.mem_cons_self)
      have hle : key b ≤ key a := by
        rcases List.mem_cons.mp hmem with rfl | hrest
        · exact le_rfl
        · exact List.rel_of_pairwise_cons hsorted hrest
      have hkb : key b = k := le_antisymm (hle.trans hka.le) (hmin b hb)
      rw [List.filter_cons_of_pos (by simpa using hkb), List.head?_cons, List.head?_cons]

end SocialNetwork.Foundation
