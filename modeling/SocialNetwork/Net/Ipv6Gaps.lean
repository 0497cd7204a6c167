import SocialNetwork.Net.Ipv6Trim

/-!
# Zero groups and gaps

Stripping makes zero groups empty, and merging makes a block of empty pieces a gap. What is left spells
the same address if its zero groups lie in one block (`spells_of_zerosTogether`), and none otherwise
(`zerosTogether_of_spells`).
-/

namespace SocialNetwork.Net

open Foundation

/-! ## Groups without leading zeros -/

/-- Only `0` is the digit zero. -/
theorem hexDigitValue_eq_zero (c : UInt8) : hexDigitValue c = some 0 ↔ c = chr '0' := by
  have hzero : (chr '0').toNat = 48 := by decide
  have ha : (chr 'a').toNat = 97 := by decide
  have hA : (chr 'A').toNat = 65 := by decide
  refine ⟨fun h => ?_, fun h => by rw [h]; decide⟩
  unfold hexDigitValue isDigit at h
  simp only [Bool.and_eq_true, decide_eq_true_eq, UInt8.le_iff_toNat_le] at h
  split at h
  · have hval := Option.some.inj h
    exact UInt8.toNat_inj.mp (by omega)
  · split at h
    · have hval := Option.some.inj h
      omega
    · split at h
      · have hval := Option.some.inj h
        omega
      · cases h

/-- A number is zero exactly if nothing is left of it without its leading zeros. -/
theorem foldl_eq_zero {piece : Bytes} (hdigits : ∀ c ∈ piece, (hexDigitValue c).isSome) (v : Nat) :
    piece.foldl (fun v c => v * 16 + (hexDigitValue c).getD 0) v = 0 ↔ v = 0 ∧ strip piece = [] := by
  induction piece generalizing v with
  | nil => simp [strip]
  | cons c piece ih =>
      obtain ⟨hc, hpiece⟩ := List.forall_mem_cons.mp hdigits
      obtain ⟨d, hd⟩ := Option.isSome_iff_exists.mp hc
      rw [List.foldl_cons, ih hpiece, hd, Option.getD_some]
      by_cases hzero : c = chr '0'
      · obtain rfl := Option.some.inj (hd.symm.trans ((hexDigitValue_eq_zero c).mpr hzero))
        rw [hzero, strip_zero]
        exact and_congr_left' (by omega)
      · have hne : d ≠ 0 := fun h => hzero ((hexDigitValue_eq_zero c).mp (h ▸ hd))
        rw [strip_of_ne hzero]
        simp [hne]

/-- A group is zero if nothing of it is left. -/
theorem groupValue_eq_zero {piece : Bytes} (h : Digits piece) :
    groupValue piece = 0 ↔ strip piece = [] := by
  rw [groupValue, foldl_eq_zero h.2]
  exact and_iff_right rfl

/-- Stripping keeps the value. -/
theorem groupValue_strip (piece : Bytes) : groupValue (strip piece) = groupValue piece := by
  induction piece with
  | nil => rfl
  | cons c piece ih =>
      by_cases hzero : c = chr '0'
      · rw [hzero, strip_zero, ih]
        rfl
      · rw [strip_of_ne hzero]

/-- Digits stay digits without the leading zeros. -/
theorem Digits.strip {piece : Bytes} (h : Digits piece) : Digits (strip piece) :=
  ⟨(List.dropWhile_suffix _).length_le.trans h.1,
    fun c hc => h.2 c ((List.dropWhile_suffix _).subset hc)⟩

/-- A stripped group that is not empty is a group other than zero. -/
theorem group_strip {piece : Bytes} (h : Digits piece) (hne : groupValue piece ≠ 0) :
    Group (strip piece) :=
  ⟨fun hnil => hne ((groupValue_eq_zero h).mpr hnil), h.strip⟩

/-! ## Merging a block -/

/-- The empty pieces of a gap: one, and one more at each end of the text. -/
def gapPieces (before after : List Bytes) : Nat :=
  1 + (if before = [] then 1 else 0) + (if after = [] then 1 else 0)

/-- The pieces around a gap: groups, the empty pieces of the gap, and groups. -/
theorem gap_eq (before after : List Bytes) :
    side before ++ [] :: side after =
      before ++ List.replicate (gapPieces before after) [] ++ after := by
  unfold gapPieces side
  split <;> split <;> simp_all [List.replicate]

variable {before after pieces pieces' : List Bytes}

/-- A block is a gap if at each end of the text it has a piece to spare. -/
theorem gapPieces_le_iff {m : Nat} : gapPieces before after ≤ m ↔
    ∃ i j, m = i + 1 + j ∧ (before = [] → 0 < i) ∧ (after = [] → 0 < j) := by
  unfold gapPieces
  constructor
  · intro h
    refine ⟨if before = [] then 1 else 0, m - 1 - (if before = [] then 1 else 0), ?_, ?_, ?_⟩
    · split at h <;> split at h <;> simp_all <;> omega
    · intro hnil
      rw [if_pos hnil]
      exact Nat.one_pos
    · intro hnil
      rw [if_pos hnil] at h
      omega
  · rintro ⟨i, j, rfl, hi, hj⟩
    split <;> split <;> simp_all <;> omega

/-- Merging takes one piece from a block, and leaves a gap. -/
theorem Merges.block {m : Nat} (hbefore : [] ∉ before) (hafter : [] ∉ after)
    (h : Merges (before ++ List.replicate m [] ++ after) pieces') :
    ∃ m', m = m' + 1 ∧ gapPieces before after ≤ m' ∧
      pieces' = before ++ List.replicate m' [] ++ after := by
  obtain ⟨x, y, hx, hy, hpieces, rfl⟩ := h
  have htwo : x ++ List.replicate 2 [] ++ y = before ++ List.replicate m [] ++ after := by
    rw [hpieces]
    simp [List.replicate]
  obtain ⟨i, j, rfl, rfl, rfl⟩ := split_blocks hbefore hafter (by decide) htwo
  refine ⟨i + 1 + j, by omega, gapPieces_le_iff.mpr ⟨i, j, rfl, ?_, ?_⟩, ?_⟩
  · rintro rfl
    exact Nat.pos_of_ne_zero fun h => hx (by rw [h]; rfl)
  · rintro rfl
    exact Nat.pos_of_ne_zero fun h => hy (by rw [h]; rfl)
  · rw [List.replicate_add, List.replicate_add]
    simp

/-- Before merging, the block was longer. -/
theorem Merges.block_before {m : Nat} (hbefore : [] ∉ before) (hafter : [] ∉ after)
    (h : Merges pieces (before ++ List.replicate m [] ++ after)) :
    0 < m ∧ pieces = before ++ List.replicate (m + 1) [] ++ after := by
  obtain ⟨x, y, -, -, rfl, hpieces⟩ := h
  obtain ⟨i, j, rfl, rfl, rfl⟩ := split_block hbefore hafter hpieces.symm
  refine ⟨by omega, ?_⟩
  rw [show i + 1 + j + 1 = i + 2 + j by omega, List.replicate_add, List.replicate_add]
  simp [List.replicate]

/-- A block that is longer than a gap is merged. -/
theorem exists_merges {m : Nat} (h : gapPieces before after < m) :
    ∃ next, Merges (before ++ List.replicate m [] ++ after) next := by
  -- what is to spare at each end of the text stays outside
  obtain ⟨i, j, hm, hi, hj⟩ := gapPieces_le_iff.mp (Nat.le_sub_one_of_lt h)
  refine ⟨_, before ++ List.replicate i [], List.replicate j [] ++ after, ?_, ?_, ?_, rfl⟩
  · intro hnil
    obtain ⟨hbefore, hrep⟩ := List.append_eq_nil_iff.mp hnil
    exact (hi hbefore).ne' (by simpa using hrep)
  · intro hnil
    obtain ⟨hrep, hafter⟩ := List.append_eq_nil_iff.mp hnil
    exact (hj hafter).ne' (by simpa using hrep)
  · rw [show m = i + 2 + j by omega, List.replicate_add, List.replicate_add]
    simp [List.replicate]

/-- Merging keeps what is not empty, and does nothing unless it leaves a gap. -/
theorem merged_block {m : Nat} (hbefore : [] ∉ before) (hafter : [] ∉ after)
    (h : Relation.ReflTransGen Merges (before ++ List.replicate m [] ++ after) pieces') :
    ∃ m', pieces' = before ++ List.replicate m' [] ++ after ∧
      (m' = m ∨ gapPieces before after ≤ m' ∧ m' ≤ m) := by
  induction h with
  | refl => exact ⟨m, rfl, .inl rfl⟩
  | tail _ hstep ih =>
      obtain ⟨m', rfl, hm'⟩ := ih
      obtain ⟨m'', hm'', hgap, rfl⟩ := hstep.block hbefore hafter
      exact ⟨m'', rfl, .inr ⟨hgap, by omega⟩⟩

/-- Merging only shortens the run of empty pieces in the middle. -/
theorem block_of_merged {m' : Nat} (hbefore : [] ∉ before) (hafter : [] ∉ after)
    (h : Relation.ReflTransGen Merges pieces (before ++ List.replicate m' [] ++ after)) :
    ∃ m, pieces = before ++ List.replicate m [] ++ after ∧ m' ≤ m ∧ (m' = 0 → m = 0) := by
  induction h using Relation.ReflTransGen.head_induction_on with
  | refl => exact ⟨m', rfl, le_rfl, id⟩
  | head hstep _ ih =>
      obtain ⟨m, rfl, hle, hzero⟩ := ih
      obtain ⟨hm, rfl⟩ := hstep.block_before hbefore hafter
      exact ⟨m + 1, rfl, by omega, fun h => absurd (hzero h) (by omega)⟩

/-! ## Zero groups in one block -/

/-- The zero groups lie in one block, and a single one is neither the first nor the last group. -/
def ZerosTogether (gs : List Nat) : Prop :=
  ∃ before zeros after, gs = before ++ List.replicate zeros 0 ++ after ∧ 0 ∉ before ∧ 0 ∉ after ∧
    (zeros = 1 → before ≠ [] ∧ after ≠ [])

/-- A block of zero groups is a block of empty pieces. -/
theorem map_strip_block {groups : List Bytes} {b a : List Nat} {n : Nat}
    (hgroups : ∀ g ∈ groups, Digits g) (hb : 0 ∉ b) (ha : 0 ∉ a)
    (h : groups.map groupValue = b ++ List.replicate n 0 ++ a) :
    ∃ before after, groups.map strip = before ++ List.replicate n [] ++ after ∧
      (∀ g ∈ before, Group g) ∧ (∀ g ∈ after, Group g) ∧
      before.map groupValue = b ∧ after.map groupValue = a := by
  obtain ⟨front, after, rfl, hfront, rfl⟩ := List.map_eq_append_iff.mp h
  obtain ⟨before, zeros, rfl, rfl, hzeros⟩ := List.map_eq_append_iff.mp hfront
  have hkeep : ∀ l : List Bytes, (l.map strip).map groupValue = l.map groupValue := fun l => by
    rw [List.map_map]
    exact List.map_congr_left fun p _ => groupValue_strip p
  have hall : ∀ {l : List Bytes}, 0 ∉ l.map groupValue → (∀ g ∈ l, Digits g) →
      ∀ g ∈ l.map strip, Group g := by
    intro l hl hdigits g hg
    obtain ⟨p, hp, rfl⟩ := List.mem_map.mp hg
    exact group_strip (hdigits p hp) fun hval => hl (List.mem_map.mpr ⟨p, hp, hval⟩)
  refine ⟨before.map strip, after.map strip, ?_, hall hb fun g hg => hgroups g (by simp [hg]),
    hall ha fun g hg => hgroups g (by simp [hg]), hkeep before, hkeep after⟩
  obtain ⟨hlen, hval⟩ := List.eq_replicate_iff.mp hzeros
  have hempty : zeros.map strip = List.replicate n [] := by
    refine List.eq_replicate_iff.mpr ⟨by simpa using hlen, fun g hg => ?_⟩
    obtain ⟨p, hp, rfl⟩ := List.mem_map.mp hg
    exact (groupValue_eq_zero (hgroups p (by simp [hp]))).mp (hval _ (List.mem_map_of_mem hp))
  rw [List.map_append, List.map_append, hempty]

/-- And the other way round. -/
theorem map_groupValue_block {groups : List Bytes} {n : Nat} (hgroups : ∀ g ∈ groups, Digits g)
    (hbefore : [] ∉ before) (hafter : [] ∉ after)
    (h : groups.map strip = before ++ List.replicate n [] ++ after) :
    groups.map groupValue =
        before.map groupValue ++ List.replicate n 0 ++ after.map groupValue ∧
      0 ∉ before.map groupValue ∧ 0 ∉ after.map groupValue := by
  have hne : ∀ {l : List Bytes}, [] ∉ l → (∀ g ∈ l, g ∈ groups.map strip) → 0 ∉ l.map groupValue := by
    intro l hl hsub hzero
    obtain ⟨g, hg, hval⟩ := List.mem_map.mp hzero
    obtain ⟨p, hp, rfl⟩ := List.mem_map.mp (hsub g hg)
    rw [groupValue_strip, groupValue_eq_zero (hgroups p hp)] at hval
    exact hl (hval ▸ hg)
  refine ⟨?_, hne hbefore fun g hg => h ▸ by simp [hg], hne hafter fun g hg => h ▸ by simp [hg]⟩
  have hkeep : groups.map groupValue = (groups.map strip).map groupValue := by
    rw [List.map_map]
    exact List.map_congr_left fun p _ => (groupValue_strip p).symm
  rw [hkeep, h, List.map_append, List.map_append, List.map_replicate]
  rfl

/-! ## One side of a gap -/

/-- The leading zeros are removed on each side of the gap by itself. -/
theorem map_strip_side (groups : List Bytes) : (side groups).map strip = side (groups.map strip) := by
  cases groups with
  | nil => rfl
  | cons g groups => rfl

/-- A side has a piece for each group, and at least one. -/
theorem length_side (groups : List Bytes) :
    groups.length ≤ (side groups).length ∧ 0 < (side groups).length := by
  cases groups with
  | nil => exact ⟨Nat.zero_le _, Nat.one_pos⟩
  | cons g groups => exact ⟨le_rfl, Nat.succ_pos _⟩

/-- A block at the end of the first side. -/
theorem side_before (before : List Bytes) (i : Nat) :
    ∃ i', side (before ++ List.replicate i []) = before ++ List.replicate i' [] ∧
      (before = [] → 0 < i') := by
  by_cases hnil : before ++ List.replicate i [] = []
  · obtain ⟨rfl, -⟩ := List.append_eq_nil_iff.mp hnil
    exact ⟨1, by rw [hnil, side_nil]; rfl, fun _ => Nat.one_pos⟩
  · refine ⟨i, side_of_ne_nil hnil, fun h => Nat.pos_of_ne_zero fun hi => hnil ?_⟩
    rw [h, hi]
    rfl

/-- A block at the start of the second side. -/
theorem side_after (after : List Bytes) (j : Nat) :
    ∃ j', side (List.replicate j [] ++ after) = List.replicate j' [] ++ after ∧
      (after = [] → 0 < j') := by
  by_cases hnil : List.replicate j [] ++ after = []
  · obtain ⟨-, rfl⟩ := List.append_eq_nil_iff.mp hnil
    exact ⟨1, by rw [hnil, side_nil]; rfl, fun _ => Nat.one_pos⟩
  · refine ⟨j, side_of_ne_nil hnil, fun h => Nat.pos_of_ne_zero fun hj => hnil ?_⟩
    rw [h, hj]
    rfl

/-- Empty pieces at the end of the side before the gap are empty groups. -/
theorem eq_of_side_before {groups : List Bytes} {i : Nat} (hbefore : [] ∉ before)
    (h : side groups = before ++ List.replicate i []) :
    ∃ i', groups = before ++ List.replicate i' [] := by
  by_cases hnil : groups = []
  · refine ⟨0, ?_⟩
    cases before with
    | nil => exact hnil
    | cons g before =>
        rw [hnil, side_nil] at h
        exact absurd ((List.cons.inj h).1 ▸ List.mem_cons_self) hbefore
  · exact ⟨i, (side_of_ne_nil hnil).symm.trans h⟩

/-- Empty pieces at the start of the side after the gap are empty groups. -/
theorem eq_of_side_after {groups : List Bytes} {j : Nat} (hafter : [] ∉ after)
    (h : side groups = List.replicate j [] ++ after) :
    ∃ j', groups = List.replicate j' [] ++ after := by
  by_cases hnil : groups = []
  · refine ⟨0, ?_⟩
    cases after with
    | nil => exact hnil
    | cons g after =>
        have hmem : g ∈ side groups := h ▸ by simp
        rw [hnil, side_nil] at hmem
        obtain rfl := List.mem_singleton.mp hmem
        exact absurd List.mem_cons_self hafter
  · exact ⟨j, (side_of_ne_nil hnil).symm.trans h⟩

/-! ## What is accepted after trimming -/

/-- If the zero groups lie together, so do the empty pieces, and there are enough of them. -/
theorem Spells.block {gs b a : List Nat} {n : Nat} (h : Spells pieces gs)
    (hgs : gs = b ++ List.replicate n 0 ++ a) (hb : 0 ∉ b) (ha : 0 ∉ a)
    (hend : n = 1 → b ≠ [] ∧ a ≠ []) :
    ∃ before m after, pieces.map strip = before ++ List.replicate m [] ++ after ∧
      (∀ g ∈ before, Group g) ∧ (∀ g ∈ after, Group g) ∧
      before.map groupValue = b ∧ after.map groupValue = a ∧
      (n = 0 → m = 0) ∧ (0 < n → gapPieces before after ≤ m) := by
  have hlength := h.length
  cases h with
  | full hgroups hlen =>
      obtain ⟨before, after, hstrip, hbefore, hafter, rfl, rfl⟩ :=
        map_strip_block (fun g hg => (hgroups g hg).2) hb ha hgs
      refine ⟨before, n, after, hstrip, hbefore, hafter, rfl, rfl, id, fun hn => ?_⟩
      rw [hgs] at hlength
      simp only [List.length_append, List.length_map, List.length_replicate] at hlength
      unfold gapPieces
      split <;> split <;> simp_all <;> omega
  | @gap P Q k hP hQ hk hlen =>
      obtain ⟨i, j, hleft, hright, rfl⟩ := split_blocks hb ha hk hgs
      obtain ⟨before, rest, hstrip, hbefore, -, rfl, hrest⟩ := map_strip_block
        (a := []) (fun g hg => (hP g hg).2) hb List.not_mem_nil (hleft.trans (List.append_nil _).symm)
      obtain ⟨rest', after, hstrip', -, hafter, hrest', rfl⟩ := map_strip_block
        (b := []) (fun g hg => (hQ g hg).2) List.not_mem_nil ha hright
      obtain rfl := List.map_eq_nil_iff.mp hrest
      obtain rfl := List.map_eq_nil_iff.mp hrest'
      obtain ⟨i', hi', hfirst⟩ := side_before before i
      obtain ⟨j', hj', hlast⟩ := side_after after j
      refine ⟨before, i' + 1 + j', after, ?_, hbefore, hafter, rfl, rfl, by omega, fun _ => ?_⟩
      · rw [List.map_append, List.map_cons, map_strip_side, map_strip_side, hstrip, hstrip',
          List.append_nil, List.nil_append, hi', hj', List.replicate_add, List.replicate_add]
        simp [strip]
      · exact gapPieces_le_iff.mpr ⟨i', j', rfl, hfirst, hlast⟩

/-- **Zero groups in one block are read back.** -/
theorem spells_of_zerosTogether {gs : List Nat} (h : Spells pieces gs) (hzeros : ZerosTogether gs)
    (hmerged : Relation.ReflTransGen Merges (pieces.map strip) pieces')
    (hnormal : ∀ next, ¬Merges pieces' next) : Spells pieces' gs := by
  obtain ⟨b, n, a, hgs, hb, ha, hend⟩ := hzeros
  obtain ⟨before, m, after, hstrip, hbefore, hafter, rfl, rfl, hnone, hsome⟩ := h.block hgs hb ha hend
  have hlength := h.length
  rw [hgs] at hlength
  simp only [List.length_append, List.length_map, List.length_replicate] at hlength
  rw [hstrip] at hmerged
  obtain ⟨m', rfl, hm'⟩ := merged_block (fun h => not_group_nil (hbefore [] h))
    (fun h => not_group_nil (hafter [] h)) hmerged
  by_cases hn : n = 0
  · obtain rfl : m' = 0 := by
      have hm := hnone hn
      omega
    rw [hgs, hn, List.replicate_zero, List.replicate_zero, List.append_nil, List.append_nil,
      ← List.map_append]
    refine .full (fun g hg => (List.mem_append.mp hg).elim (hbefore g) (hafter g)) ?_
    rw [List.length_append]
    omega
  · have hle : m' ≤ gapPieces before after := by
      by_contra hlt
      obtain ⟨next, hnext⟩ := exists_merges (not_le.mp hlt)
      exact hnormal next hnext
    obtain rfl : m' = gapPieces before after := by
      have hm := hsome (by omega)
      omega
    rw [hgs, ← gap_eq]
    exact .gap hbefore hafter (by omega) hlength

/-- **Zero groups in several blocks are not read back**, nor is a single one at an end. -/
theorem zerosTogether_of_spells {gs gs' : List Nat} (h : Spells pieces gs) (hlen : pieces.length ≤ 8)
    (hmerged : Relation.ReflTransGen Merges (pieces.map strip) pieces') (h' : Spells pieces' gs') :
    ZerosTogether gs := by
  obtain ⟨before, m', after, rfl, hbefore, hafter, hm'⟩ : ∃ before m' after,
      pieces' = before ++ List.replicate m' [] ++ after ∧ [] ∉ before ∧ [] ∉ after ∧
        (m' = 0 ∨ m' = gapPieces before after) := by
    cases h' with
    | full hgroups _ =>
        exact ⟨pieces', 0, [], by simp, fun h => not_group_nil (hgroups [] h), List.not_mem_nil,
          .inl rfl⟩
    | @gap P Q k hP hQ _ _ =>
        exact ⟨P, gapPieces P Q, Q, gap_eq P Q, fun h => not_group_nil (hP [] h),
          fun h => not_group_nil (hQ [] h), .inr rfl⟩
  obtain ⟨m, hstrip, hle, hzero⟩ := block_of_merged hbefore hafter hmerged
  cases h with
  | full hgroups _ =>
      obtain ⟨hgs, hb, ha⟩ := map_groupValue_block (fun g hg => (hgroups g hg).2) hbefore hafter hstrip
      refine ⟨_, m, _, hgs, hb, ha, fun hm => ?_⟩
      obtain ⟨i, j, hij, hi, hj⟩ :=
        gapPieces_le_iff.mp (show gapPieces before after ≤ 1 by omega)
      simp only [ne_eq, List.map_eq_nil_iff]
      exact ⟨fun hnil => absurd (hi hnil) (by omega), fun hnil => absurd (hj hnil) (by omega)⟩
  | @gap P Q k hP hQ hk hcount =>
      rw [List.map_append, List.map_cons, map_strip_side, map_strip_side] at hstrip
      obtain ⟨i, j, hleft, hright, -⟩ := split_block hbefore hafter hstrip
      obtain ⟨i', hi'⟩ := eq_of_side_before hbefore hleft
      obtain ⟨j', hj'⟩ := eq_of_side_after hafter hright
      have hfirst : P.map strip = before ++ List.replicate i' [] ++ [] := by rw [hi', List.append_nil]
      have hlast : Q.map strip = [] ++ List.replicate j' [] ++ after := by rw [hj', List.nil_append]
      obtain ⟨hP', hb, -⟩ :=
        map_groupValue_block (fun g hg => (hP g hg).2) hbefore List.not_mem_nil hfirst
      obtain ⟨hQ', -, ha⟩ :=
        map_groupValue_block (fun g hg => (hQ g hg).2) List.not_mem_nil hafter hlast
      refine ⟨before.map groupValue, i' + k + j', after.map groupValue, ?_, hb, ha, fun hone => ?_⟩
      · rw [hP', hQ']
        simp only [List.map_nil, List.append_nil, List.nil_append, List.append_assoc,
          List.replicate_add]
      · -- seven groups are written; a gap at an end would add two colons to them
        have hleft' := congrArg List.length hi'
        have hright' := congrArg List.length hj'
        obtain ⟨hsideP, hposP⟩ := length_side P
        obtain ⟨hsideQ, hposQ⟩ := length_side Q
        simp only [List.length_map, List.length_append, List.length_replicate, List.length_cons]
          at hleft' hright' hlen
        constructor
        · intro hnil
          have hnone := List.map_eq_nil_iff.mp hnil
          rw [hnone, List.length_nil] at hleft'
          omega
        · intro hnil
          have hnone := List.map_eq_nil_iff.mp hnil
          rw [hnone, List.length_nil] at hright'
          omega

end SocialNetwork.Net
