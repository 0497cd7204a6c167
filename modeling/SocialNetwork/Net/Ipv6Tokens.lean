import SocialNetwork.Net.InetPton

/-!
# `inet_pton` on the pieces between colons

A text without dots, cut at its colons. `inet_pton` reads it exactly if the pieces are eight groups, or
groups before and after a gap with room for another one (`inetPton6_colons_iff`); in both cases the
bytes are those of the groups, with zeros in the gap.
-/

namespace SocialNetwork.Net

open Foundation

/-! ## Pieces -/

/-- The pieces with colons between them. -/
def colons (pieces : List Bytes) : Bytes := [chr ':'].intercalate pieces

/-- A piece without separators. -/
def Piece (piece : Bytes) : Prop := chr ':' ∉ piece ∧ chr '.' ∉ piece

/-- What is scanned to its end: at most four hexadecimal digits. -/
def Digits (piece : Bytes) : Prop := piece.length ≤ 4 ∧ ∀ c ∈ piece, (hexDigitValue c).isSome

instance (piece : Bytes) : Decidable (Digits piece) := inferInstanceAs (Decidable (_ ∧ _))

/-- A group: from one to four hexadecimal digits. -/
def Group (piece : Bytes) : Prop := piece ≠ [] ∧ Digits piece

/-- What is scanned to its end holds nothing but hexadecimal digits. -/
theorem Digits.not_mem {piece : Bytes} (h : Digits piece) {c : UInt8} (hc : hexDigitValue c = none) :
    c ∉ piece := fun hmem => by simpa [hc] using h.2 c hmem

/-- What is scanned to its end has no separator. -/
theorem Digits.piece {piece : Bytes} (h : Digits piece) : Piece piece :=
  ⟨h.not_mem (by decide), h.not_mem (by decide)⟩

/-- The number that is read from a group. -/
def groupValue (piece : Bytes) : Nat := piece.foldl (fun v c => v * 16 + (hexDigitValue c).getD 0) 0

/-- The bytes of some groups. -/
def bytesOf (groups : List Bytes) : Bytes := (groups.map groupValue).flatMap groupBytes

/-- The pieces on one side of a gap. -/
def side (groups : List Bytes) : List Bytes := if groups = [] then [[]] else groups

/-- Nothing on one side of the gap is one empty piece. -/
theorem side_nil : side [] = [[]] := rfl

/-- Groups on one side of the gap are themselves the pieces. -/
theorem side_of_ne_nil {groups : List Bytes} (h : groups ≠ []) : side groups = groups := if_neg h

/-- There is always a piece. -/
theorem side_ne_nil (groups : List Bytes) : side groups ≠ [] := by
  unfold side
  split
  · exact List.cons_ne_nil _ _
  · assumption

/-- The first of several pieces, and a colon after it. -/
theorem colons_cons {piece : Bytes} {pieces : List Bytes} (h : pieces ≠ []) :
    colons (piece :: pieces) = piece ++ chr ':' :: colons pieces := by
  rw [colons, List.intercalate_cons_of_ne_nil h, ← colons]
  simp

/-- A single piece has no colon. -/
theorem colons_singleton (piece : Bytes) : colons [piece] = piece := List.intercalate_singleton

/-- Two lists of pieces meet in a colon. -/
theorem colons_append {x y : List Bytes} (hx : x ≠ []) (hy : y ≠ []) :
    colons (x ++ y) = colons x ++ chr ':' :: colons y := by
  induction x with
  | nil => exact absurd rfl hx
  | cons piece x ih =>
      by_cases hnil : x = []
      · rw [hnil, colons_singleton, List.singleton_append, colons_cons hy]
      · rw [List.cons_append, colons_cons (List.append_ne_nil_of_left_ne_nil hnil y), ih hnil,
          colons_cons hnil]
        simp

/-- The first character belongs to the first piece. -/
theorem colons_cons_cons (c : UInt8) (piece : Bytes) (pieces : List Bytes) :
    colons ((c :: piece) :: pieces) = c :: colons (piece :: pieces) := by
  cases pieces with
  | nil => rw [colons_singleton, colons_singleton]
  | cons next rest => rw [colons_cons (List.cons_ne_nil _ _), colons_cons (List.cons_ne_nil _ _)]; rfl

/-- The empty text is one empty piece. -/
theorem colons_eq_nil {pieces : List Bytes} (h : pieces ≠ []) : colons pieces = [] ↔ pieces = [[]] := by
  cases pieces with
  | nil => exact absurd rfl h
  | cons piece rest =>
      cases rest with
      | nil => simp [colons_singleton]
      | cons next rest =>
          rw [colons_cons (List.cons_ne_nil _ _)]
          simp

/-- The empty piece beside the gap has no text. -/
theorem colons_side (groups : List Bytes) : colons (side groups) = colons groups := by
  cases groups with
  | nil => rfl
  | cons g groups => rfl

/-- The text of a gap. -/
theorem colons_gap (before after : List Bytes) : colons (side before ++ [] :: side after) =
    colons before ++ chr ':' :: chr ':' :: colons after := by
  rw [colons_append (side_ne_nil before) (List.cons_ne_nil _ _), colons_cons (side_ne_nil after),
    colons_side, colons_side]
  rfl

/-- A text is cut at its colons. -/
theorem exists_pieces {text : Bytes} (hdot : chr '.' ∉ text) :
    ∃ pieces, pieces ≠ [] ∧ (∀ piece ∈ pieces, Piece piece) ∧ text = colons pieces := by
  induction text with
  | nil => exact ⟨[[]], List.cons_ne_nil _ _, by simp [Piece], rfl⟩
  | cons c text ih =>
      obtain ⟨pieces, hne, hpieces, rfl⟩ := ih fun h => hdot (List.mem_cons_of_mem _ h)
      by_cases hc : c = chr ':'
      · refine ⟨[] :: pieces, List.cons_ne_nil _ _, ?_, ?_⟩
        · exact List.forall_mem_cons.mpr ⟨by simp [Piece], hpieces⟩
        · rw [colons_cons hne, hc, List.nil_append]
      · cases pieces with
        | nil => exact absurd rfl hne
        | cons piece rest =>
            obtain ⟨hpiece, hrest⟩ := List.forall_mem_cons.mp hpieces
            have hcdot : chr '.' ≠ c := fun h => hdot (h ▸ List.mem_cons_self)
            refine ⟨(c :: piece) :: rest, List.cons_ne_nil _ _, ?_, ?_⟩
            · refine List.forall_mem_cons.mpr ⟨⟨?_, ?_⟩, hrest⟩
              · exact fun h => (List.mem_cons.mp h).elim (fun h => hc h.symm) hpiece.1
              · exact fun h => (List.mem_cons.mp h).elim hcdot hpiece.2
            · rw [colons_cons_cons]

/-- A digit is below sixteen. -/
theorem hexDigitValue_lt {c : UInt8} {d : Nat} (h : hexDigitValue c = some d) : d < 16 := by
  have hnine : (chr '9').toNat = 57 := by decide
  have hf : (chr 'f').toNat = 102 := by decide
  have hF : (chr 'F').toNat = 70 := by decide
  unfold hexDigitValue isDigit at h
  simp only [Bool.and_eq_true, decide_eq_true_eq, UInt8.le_iff_toNat_le] at h
  split at h
  · obtain rfl := Option.some.inj h
    omega
  · split at h
    · obtain rfl := Option.some.inj h
      omega
    · split at h
      · obtain rfl := Option.some.inj h
        omega
      · cases h

/-! ## Scanning the pieces -/

/-- A piece is scanned to its end if it consists of digits, and refused otherwise. -/
theorem Pton6.scan_piece_from {curtok tmp rest piece : Bytes} {colonp : Option Nat}
    (hpiece : Piece piece) {x v : Nat} (hx : x ≤ 4) (hv : v < 16 ^ x) :
    Pton6.scan curtok ⟨tmp, colonp, x, v⟩ (piece ++ rest) =
      if x + piece.length ≤ 4 && piece.all fun c => (hexDigitValue c).isSome then
        Pton6.scan curtok ⟨tmp, colonp, x + piece.length,
          piece.foldl (fun v c => v * 16 + (hexDigitValue c).getD 0) v⟩ rest
      else none := by
  induction piece generalizing x v with
  | nil => simp [hx]
  | cons c piece ih =>
      have hsub : Piece piece := ⟨fun h => hpiece.1 (List.mem_cons_of_mem _ h),
        fun h => hpiece.2 (List.mem_cons_of_mem _ h)⟩
      rw [List.cons_append, Pton6.scan]
      cases hdigit : hexDigitValue c with
      | none =>
          have hcolon : c ≠ chr ':' := fun h => hpiece.1 (h ▸ List.mem_cons_self)
          have hdot : c ≠ chr '.' := fun h => hpiece.2 (h ▸ List.mem_cons_self)
          simp [hcolon, hdot, hdigit]
      | some d =>
          have hd := hexDigitValue_lt hdigit
          simp only [List.length_cons, List.all_cons, hdigit, Option.isSome_some, Bool.true_and,
            List.foldl_cons, Option.getD_some]
          by_cases hfull : x = 4
          · rw [if_pos hfull, if_neg (by simp; omega)]
          · have hnew : v * 16 + d < 16 ^ (x + 1) := by
              rw [pow_succ]
              omega
            have hmax : 16 ^ (x + 1) ≤ 16 ^ 4 := Nat.pow_le_pow_right (by norm_num) (by omega)
            have hlt : v * 16 + d < 16 ^ 4 := hnew.trans_le hmax
            rw [if_neg hfull, if_neg (by omega), ih hsub (by omega) hnew,
              show x + 1 + piece.length = x + (piece.length + 1) by omega]

/-- A piece is scanned to its end if it has at most four digits, and refused otherwise. -/
theorem Pton6.scan_piece {curtok tmp rest piece : Bytes} {colonp : Option Nat} (hpiece : Piece piece) :
    Pton6.scan curtok ⟨tmp, colonp, 0, 0⟩ (piece ++ rest) =
      if Digits piece then Pton6.scan curtok ⟨tmp, colonp, piece.length, groupValue piece⟩ rest
      else none := by
  rw [Pton6.scan_piece_from hpiece (by norm_num) (by norm_num), Nat.zero_add]
  refine if_congr ?_ rfl rfl
  simp only [Bool.and_eq_true, decide_eq_true_eq, List.all_eq_true, Digits]

/-- What the loop and the end of `inet_pton6` make of pieces: after `tmp`, with the gap `colonp`. -/
def readPieces (tmp : Bytes) (colonp : Option Nat) : List Bytes → Option Bytes
  | [] => Pton6.finish ⟨tmp, colonp, 0, 0⟩
  | piece :: rest =>
      if ¬Digits piece then none
      else if piece = [] then
        if rest = [] then Pton6.finish ⟨tmp, colonp, 0, 0⟩
        else if colonp.isSome then none
        else readPieces tmp (some tmp.length) rest
      else if rest = [[]] then none
      else if tmp.length + 2 > 16 then none
      else readPieces (tmp ++ groupBytes (groupValue piece)) colonp rest

/-- The empty piece is scanned to its end. -/
theorem digits_nil : Digits [] := ⟨Nat.zero_le _, List.forall_mem_nil _⟩

/-- The end of the text after a group. -/
theorem Pton6.finish_group {tmp piece : Bytes} {colonp : Option Nat} (hne : piece ≠ []) :
    Pton6.finish ⟨tmp, colonp, piece.length, groupValue piece⟩ =
      if tmp.length + 2 > 16 then none
      else Pton6.finish ⟨tmp ++ groupBytes (groupValue piece), colonp, 0, 0⟩ := by
  have hpos : 0 < piece.length := List.length_pos_iff.mpr hne
  by_cases hroom : tmp.length + 2 > 16
  · simp only [Pton6.finish, Pton6.flush, hpos, hroom, gt_iff_lt, if_true]
  · simp only [Pton6.finish, Pton6.flush, hpos, hroom, if_true, gt_iff_lt, lt_irrefl, if_false]

/-- **The loop reads the pieces one after another.** -/
theorem Pton6.scan_colons {pieces : List Bytes} (hne : pieces ≠ [])
    (hpieces : ∀ piece ∈ pieces, Piece piece) (curtok tmp : Bytes) (colonp : Option Nat) :
    (Pton6.scan curtok ⟨tmp, colonp, 0, 0⟩ (colons pieces)).bind Pton6.finish =
      readPieces tmp colonp pieces := by
  induction pieces generalizing curtok tmp colonp with
  | nil => exact absurd rfl hne
  | cons piece pieces ih =>
      obtain ⟨hpiece, hrest⟩ := List.forall_mem_cons.mp hpieces
      rw [readPieces]
      by_cases hdigits : Digits piece
      · rw [if_neg (not_not.mpr hdigits)]
        cases pieces with
        | nil =>
            rw [colons_singleton, ← List.append_nil piece, Pton6.scan_piece hpiece, List.append_nil,
              if_pos hdigits]
            change Pton6.finish _ = _
            by_cases hnil : piece = []
            · rw [if_pos hnil, hnil]
              rfl
            · rw [if_neg hnil, Pton6.finish_group hnil]
              rfl
        | cons next rest =>
            have hne' : next :: rest ≠ [] := List.cons_ne_nil _ _
            rw [colons_cons hne', Pton6.scan_piece hpiece, if_pos hdigits, Pton6.scan, if_neg hne']
            simp only [show hexDigitValue (chr ':') = none by decide, if_true,
              List.length_eq_zero_iff, colons_eq_nil hne']
            by_cases hnil : piece = []
            · rw [if_pos hnil, if_pos hnil]
              split
              · rfl
              · rw [hnil]
                exact ih hne' hrest _ _ _
            · rw [if_neg hnil, if_neg hnil]
              split
              · rfl
              · split
                · rfl
                · exact ih hne' hrest _ _ _
      · rw [if_pos hdigits]
        cases pieces with
        | nil =>
            rw [colons_singleton, ← List.append_nil piece, Pton6.scan_piece hpiece, if_neg hdigits]
            rfl
        | cons next rest =>
            rw [colons_cons (List.cons_ne_nil _ _), Pton6.scan_piece hpiece, if_neg hdigits]
            rfl

/-! ## What is accepted -/

/-- What is refused has no bytes. -/
theorem refused_iff {b : Bytes} {P : Prop} (h : ¬P) : (none : Option Bytes) = some b ↔ P :=
  iff_of_false (fun hnone => by cases hnone) h

/-- The bytes after the loop, with zeros where the gap was seen. -/
def fill (colonp : Nat) (tmp : Bytes) : Bytes :=
  tmp.take colonp ++ List.replicate (16 - tmp.length) 0 ++ tmp.drop colonp

/-- At the end the gap is filled with zeros, and must not be empty. -/
theorem Pton6.finish_gap {tmp : Bytes} (colonp : Nat) (htmp : tmp.length ≤ 16) (b : Bytes) :
    Pton6.finish ⟨tmp, some colonp, 0, 0⟩ = some b ↔ tmp.length < 16 ∧ b = fill colonp tmp := by
  simp only [Pton6.finish, Pton6.flush, gt_iff_lt, lt_irrefl, if_false]
  by_cases hfull : tmp.length = 16
  · rw [if_pos hfull]
    exact refused_iff fun h => absurd hfull (Nat.ne_of_lt h.1)
  · rw [if_neg hfull]
    exact ⟨fun h => ⟨by omega, (Option.some.inj h).symm⟩, fun h => congrArg some h.2.symm⟩

/-- Without a gap there must be all sixteen bytes. -/
theorem Pton6.finish_full {tmp : Bytes} (b : Bytes) :
    Pton6.finish ⟨tmp, none, 0, 0⟩ = some b ↔ tmp.length = 16 ∧ b = tmp := by
  simp only [Pton6.finish, Pton6.flush, gt_iff_lt, lt_irrefl, if_false]
  by_cases hfull : tmp.length = 16
  · rw [if_pos hfull]
    exact ⟨fun h => ⟨hfull, (Option.some.inj h).symm⟩, fun h => congrArg some h.2.symm⟩
  · rw [if_neg hfull]
    exact refused_iff fun h => hfull h.1

/-- A group has two bytes. -/
theorem length_groupBytes (g : Nat) : (groupBytes g).length = 2 := rfl

/-- The bytes of the first group come first. -/
theorem bytesOf_cons (piece : Bytes) (groups : List Bytes) :
    bytesOf (piece :: groups) = groupBytes (groupValue piece) ++ bytesOf groups := rfl

/-- Two bytes for each group. -/
theorem length_bytesOf (groups : List Bytes) : (bytesOf groups).length = 2 * groups.length := by
  rw [bytesOf, length_flatMap_groupBytes, List.length_map]

/-- A group has a digit. -/
theorem not_group_nil : ¬Group [] := fun h => h.1 rfl

/-- An empty piece in front is not one of the groups before the gap. -/
theorem eq_nil_of_cons_nil {before rest tail : List Bytes} (h : [] :: rest = before ++ tail)
    (hbefore : ∀ g ∈ before, Group g) : before = [] := by
  cases before with
  | nil => rfl
  | cons g before =>
      obtain ⟨rfl, -⟩ := List.cons.inj h
      exact absurd (hbefore [] List.mem_cons_self) not_group_nil

/-- Pieces that are not one empty piece are the groups themselves. -/
theorem eq_of_side {pieces groups : List Bytes} (h : pieces = groups ∨ pieces = side groups)
    (hne : pieces ≠ [[]]) : pieces = groups := by
  refine h.elim id fun h => h.trans (side_of_ne_nil fun hnil => hne ?_)
  rw [h, hnil, side_nil]

/-- One group is read, with room for it, if something other than an empty last piece follows. -/
theorem readPieces_cons {tmp piece : Bytes} {colonp : Option Nat} {rest : List Bytes} {b : Bytes}
    (hne : piece ≠ []) :
    readPieces tmp colonp (piece :: rest) = some b ↔ Group piece ∧ rest ≠ [[]] ∧
      tmp.length + 2 ≤ 16 ∧ readPieces (tmp ++ groupBytes (groupValue piece)) colonp rest = some b := by
  rw [readPieces]
  by_cases hdigits : Digits piece
  · rw [if_neg (not_not.mpr hdigits), if_neg hne]
    by_cases hlast : rest = [[]]
    · rw [if_pos hlast]
      exact refused_iff fun h => h.2.1 hlast
    · rw [if_neg hlast]
      by_cases hroom : tmp.length + 2 > 16
      · rw [if_pos hroom]
        exact refused_iff fun h => absurd h.2.2.1 (by omega)
      · rw [if_neg hroom]
        exact ⟨fun h => ⟨⟨hne, hdigits⟩, hlast, by omega, h⟩, fun h => h.2.2.2⟩
  · rw [if_pos hdigits]
    exact refused_iff fun h => hdigits h.1.2

/-- **After a gap**, the pieces are groups, fewer than would fill the address. -/
theorem readPieces_gap (colonp : Nat) (pieces : List Bytes) {tmp : Bytes} (htmp : tmp.length ≤ 16)
    (b : Bytes) :
    readPieces tmp (some colonp) pieces = some b ↔
      ∃ groups, (pieces = groups ∨ pieces = side groups) ∧ (∀ g ∈ groups, Group g) ∧
        tmp.length + 2 * groups.length < 16 ∧ b = fill colonp (tmp ++ bytesOf groups) := by
  have hend : ∀ tmp : Bytes, tmp.length < 16 ∧ b = fill colonp tmp ↔
      tmp.length + 2 * ([] : List Bytes).length < 16 ∧ b = fill colonp (tmp ++ bytesOf []) := by
    simp [bytesOf]
  induction pieces generalizing tmp with
  | nil =>
      rw [readPieces, Pton6.finish_gap colonp htmp, hend]
      refine ⟨fun h => ⟨[], .inl rfl, List.forall_mem_nil _, h⟩, ?_⟩
      rintro ⟨groups, hpieces | hpieces, hgroups, h⟩
      · exact hpieces ▸ h
      · exact absurd hpieces.symm (side_ne_nil groups)
  | cons piece rest ih =>
      by_cases hnil : piece = []
      · subst hnil
        rw [readPieces, if_neg (not_not.mpr digits_nil), if_pos rfl]
        by_cases hrest : rest = []
        · rw [if_pos hrest, Pton6.finish_gap colonp htmp, hend, hrest]
          refine ⟨fun h => ⟨[], .inr rfl, List.forall_mem_nil _, h⟩, ?_⟩
          rintro ⟨groups, hpieces, hgroups, h⟩
          have hempty : groups = [] := by
            by_contra hne
            rw [side_of_ne_nil hne, or_self_iff] at hpieces
            exact not_group_nil (hgroups [] (hpieces ▸ List.mem_singleton_self _))
          exact hempty ▸ h
        · rw [if_neg hrest, if_pos Option.isSome_some]
          apply refused_iff
          rintro ⟨groups, hpieces, hgroups, -⟩
          have hgroup := eq_of_side hpieces fun h => hrest (List.cons.inj h).2
          exact not_group_nil (hgroups [] (hgroup ▸ List.mem_cons_self))
      · rw [readPieces_cons hnil]
        constructor
        · rintro ⟨hg, hlast, hroom, hread⟩
          obtain ⟨groups, hpieces, hgroups, hlt, rfl⟩ :=
            (ih (by simpa [length_groupBytes] using hroom)).mp hread
          have hrest := eq_of_side hpieces hlast
          refine ⟨piece :: groups, .inl (by rw [hrest]), List.forall_mem_cons.mpr ⟨hg, hgroups⟩, ?_, ?_⟩
          · rw [List.length_append, length_groupBytes] at hlt
            rw [List.length_cons]
            omega
          · rw [bytesOf_cons, List.append_assoc]
        · rintro ⟨groups, hpieces, hgroups, hlt, rfl⟩
          have hcons := eq_of_side hpieces fun h => hnil (List.cons.inj h).1
          subst hcons
          obtain ⟨hg, hgroups⟩ := List.forall_mem_cons.mp hgroups
          rw [List.length_cons] at hlt
          refine ⟨hg, ?_, by omega, ?_⟩
          · exact fun h => not_group_nil (hgroups [] (h ▸ List.mem_singleton_self _))
          · refine (ih ?_).mpr ⟨rest, .inl rfl, hgroups, ?_, ?_⟩
            · rw [List.length_append, length_groupBytes]
              omega
            · rw [List.length_append, length_groupBytes]
              omega
            · rw [bytesOf_cons, List.append_assoc]

/-- A group that is read before the others moves the gap. -/
theorem fill_bytesOf_cons (tmp piece : Bytes) (before after : List Bytes) :
    fill (tmp.length + 2 * (before.length + 1)) (tmp ++ bytesOf (piece :: before) ++ bytesOf after) =
      fill ((tmp ++ groupBytes (groupValue piece)).length + 2 * before.length)
        (tmp ++ groupBytes (groupValue piece) ++ bytesOf before ++ bytesOf after) := by
  have hgap : tmp.length + 2 * (before.length + 1) =
      (tmp ++ groupBytes (groupValue piece)).length + 2 * before.length := by
    rw [List.length_append, length_groupBytes]
    omega
  rw [hgap, bytesOf_cons]
  simp only [List.append_assoc]

/-- A gap is more than one empty piece. -/
theorem gap_ne_nil (before after : List Bytes) : before ++ [] :: side after ≠ [[]] := by
  intro h
  have hcount := congrArg List.length h
  have hside := List.length_pos_iff.mpr (side_ne_nil after)
  simp at hcount
  omega

/-- **Before a gap**, the pieces are groups that fill the address, or groups with a gap after them. -/
theorem readPieces_none {pieces : List Bytes} (hlast : pieces ≠ [[]]) {tmp : Bytes}
    (htmp : tmp.length ≤ 16) (b : Bytes) :
    readPieces tmp none pieces = some b ↔
      ((∀ g ∈ pieces, Group g) ∧ tmp.length + 2 * pieces.length = 16 ∧ b = tmp ++ bytesOf pieces) ∨
      ∃ before after, pieces = before ++ [] :: side after ∧ (∀ g ∈ before, Group g) ∧
        (∀ g ∈ after, Group g) ∧ tmp.length + 2 * (before.length + after.length) < 16 ∧
        b = fill (tmp.length + 2 * before.length) (tmp ++ bytesOf before ++ bytesOf after) := by
  induction pieces generalizing tmp with
  | nil =>
      rw [readPieces, Pton6.finish_full]
      refine ⟨fun h => .inl ⟨List.forall_mem_nil _, h.1, h.2.trans (List.append_nil _).symm⟩, ?_⟩
      rintro (⟨-, hfull, rfl⟩ | ⟨before, after, hpieces, -⟩)
      · exact ⟨hfull, List.append_nil _⟩
      · exact absurd hpieces.symm (by simp)
  | cons piece rest ih =>
      by_cases hnil : piece = []
      · subst hnil
        have hrest : rest ≠ [] := fun h => hlast (by rw [h])
        rw [readPieces, if_neg (not_not.mpr digits_nil), if_pos rfl, if_neg hrest, if_neg (by simp),
          readPieces_gap _ _ htmp]
        constructor
        · rintro ⟨groups, hpieces, hgroups, hlt, rfl⟩
          have hside : rest = side groups :=
            hpieces.elim (fun h => h.trans (side_of_ne_nil (h ▸ hrest)).symm) id
          exact .inr ⟨[], groups, by rw [hside, List.nil_append], List.forall_mem_nil _, hgroups,
            by simpa using hlt, by simp [bytesOf]⟩
        · rintro (⟨hgroups, -⟩ | ⟨before, after, hpieces, hbefore, hafter, hlt, rfl⟩)
          · exact absurd (hgroups [] List.mem_cons_self) not_group_nil
          · obtain rfl := eq_nil_of_cons_nil hpieces hbefore
            refine ⟨after, .inr (List.cons.inj hpieces).2, hafter, by simpa using hlt, ?_⟩
            simp [bytesOf]
      · rw [readPieces_cons hnil]
        have hlen : (tmp ++ groupBytes (groupValue piece)).length = tmp.length + 2 := by
          rw [List.length_append, length_groupBytes]
        constructor
        · rintro ⟨hg, hrest, hroom, hread⟩
          rcases (ih hrest (hlen ▸ hroom)).mp hread with
            ⟨hgroups, hfull, rfl⟩ | ⟨before, after, rfl, hbefore, hafter, hlt, rfl⟩
          · refine .inl ⟨List.forall_mem_cons.mpr ⟨hg, hgroups⟩, ?_, ?_⟩
            · rw [List.length_cons]
              omega
            · rw [bytesOf_cons, List.append_assoc]
          · refine .inr ⟨piece :: before, after, rfl, List.forall_mem_cons.mpr ⟨hg, hbefore⟩, hafter,
              ?_, ?_⟩
            · rw [List.length_cons]
              omega
            · rw [List.length_cons, fill_bytesOf_cons]
        · rintro (⟨hgroups, hfull, rfl⟩ | ⟨before, after, hpieces, hbefore, hafter, hlt, rfl⟩)
          · obtain ⟨hg, hgroups⟩ := List.forall_mem_cons.mp hgroups
            have hrest : rest ≠ [[]] := fun h =>
              not_group_nil (hgroups [] (h ▸ List.mem_singleton_self _))
            rw [List.length_cons] at hfull
            refine ⟨hg, hrest, by omega, (ih hrest (by omega)).mpr (.inl ⟨hgroups, by omega, ?_⟩)⟩
            rw [bytesOf_cons, List.append_assoc]
          · cases before with
            | nil => exact absurd (List.cons.inj hpieces).1 hnil
            | cons g before =>
                obtain ⟨rfl, rfl⟩ := List.cons.inj hpieces
                obtain ⟨hg, hbefore⟩ := List.forall_mem_cons.mp hbefore
                rw [List.length_cons] at hlt
                have hrest := gap_ne_nil before after
                refine ⟨hg, hrest, by omega, (ih hrest (by omega)).mpr (.inr ⟨before, after, rfl,
                  hbefore, hafter, by omega, ?_⟩)⟩
                rw [List.length_cons, fill_bytesOf_cons]

/-- What the pieces spell out: eight groups, or groups around a gap that stands for the others. -/
inductive Spells : List Bytes → List Nat → Prop
  | full {pieces : List Bytes} (hgroups : ∀ g ∈ pieces, Group g) (hlen : pieces.length = 8) :
      Spells pieces (pieces.map groupValue)
  | gap {before after : List Bytes} {k : Nat} (hbefore : ∀ g ∈ before, Group g)
      (hafter : ∀ g ∈ after, Group g) (hk : 0 < k) (hlen : before.length + k + after.length = 8) :
      Spells (side before ++ [] :: side after)
        (before.map groupValue ++ List.replicate k 0 ++ after.map groupValue)

/-- Pieces spell out eight groups. -/
theorem Spells.length {pieces : List Bytes} {gs : List Nat} (h : Spells pieces gs) :
    gs.length = 8 := by
  cases h with
  | full hgroups hlen => rw [List.length_map, hlen]
  | gap hbefore hafter hk hlen => simpa [Nat.add_assoc] using hlen

/-- No pieces spell out nothing. -/
theorem Spells.pieces_ne_nil {pieces : List Bytes} {gs : List Nat} (h : Spells pieces gs) :
    pieces ≠ [] := by
  cases h with
  | full hgroups hlen => exact List.ne_nil_of_length_pos (by omega)
  | gap hbefore hafter hk hlen => simp

/-- What is spelled out is digits: groups, and the empty pieces of the gap. -/
theorem Spells.digits {pieces : List Bytes} {gs : List Nat} (h : Spells pieces gs) :
    ∀ p ∈ pieces, Digits p := by
  have hside : ∀ {groups : List Bytes}, (∀ g ∈ groups, Group g) → ∀ p ∈ side groups, Digits p := by
    intro groups hgroups p hp
    unfold side at hp
    split at hp
    · exact (List.mem_singleton.mp hp) ▸ digits_nil
    · exact (hgroups p hp).2
  cases h with
  | full hgroups _ => exact fun p hp => (hgroups p hp).2
  | gap hbefore hafter _ _ =>
      intro p hp
      rcases List.mem_append.mp hp with hp | hp
      · exact hside hbefore p hp
      · rcases List.mem_cons.mp hp with rfl | hp
        · exact digits_nil
        · exact hside hafter p hp

/-- The zeros in the gap are the bytes of the groups that are not written. -/
theorem bytes_gap {before after : List Bytes} {k : Nat}
    (hlen : before.length + k + after.length = 8) :
    fill (2 * before.length) (bytesOf before ++ bytesOf after) =
      (before.map groupValue ++ List.replicate k 0 ++ after.map groupValue).flatMap groupBytes := by
  have hzeros : ∀ k, (List.replicate k 0).flatMap groupBytes = List.replicate (2 * k) 0 := by
    intro k
    induction k with
    | zero => rfl
    | succ k ih => rw [List.replicate_succ, List.flatMap_cons, ih]; rfl
  rw [List.flatMap_append, List.flatMap_append, hzeros, fill, ← length_bytesOf, List.take_left,
    List.drop_left, List.length_append, length_bytesOf, length_bytesOf,
    show 16 - (2 * before.length + 2 * after.length) = 2 * k by omega]
  rfl

/-- The loop starts at the first group, or at the second of two colons. -/
theorem inetPton6_colons {piece : Bytes} (pieces : List Bytes) (hpiece : Piece piece)
    (hpieces : ∀ p ∈ pieces, Piece p) :
    inetPton6 (colons (piece :: pieces)) =
      if piece ≠ [] then readPieces [] none (piece :: pieces)
      else if pieces.head? = some [] ∧ pieces ≠ [[]] then readPieces [] none pieces else none := by
  have hall : ∀ p ∈ piece :: pieces, Piece p := List.forall_mem_cons.mpr ⟨hpiece, hpieces⟩
  cases piece with
  | cons c piece =>
      have hc : c ≠ chr ':' := fun h => hpiece.1 (h ▸ List.mem_cons_self)
      rw [if_pos (List.cons_ne_nil _ _),
        ← Pton6.scan_colons (List.cons_ne_nil _ _) hall (colons ((c :: piece) :: pieces))]
      simp only [colons_cons_cons, inetPton6, if_neg hc]
  | nil =>
      rw [if_neg (not_not.mpr rfl)]
      cases pieces with
      | nil => rfl
      | cons next rest =>
          rw [colons_cons (List.cons_ne_nil _ _), List.nil_append]
          cases next with
          | cons c next =>
              obtain ⟨hnext, -⟩ := List.forall_mem_cons.mp hpieces
              have hc : c ≠ chr ':' := fun h => hnext.1 (h ▸ List.mem_cons_self)
              rw [if_neg fun h => List.cons_ne_nil c next (Option.some.inj h.1)]
              simp only [colons_cons_cons, inetPton6, if_true, if_neg hc]
          | nil =>
              cases rest with
              | nil => rfl
              | cons next rest =>
                  rw [if_pos ⟨rfl, by simp⟩, ← Pton6.scan_colons (List.cons_ne_nil _ _) hpieces
                    (colons ([] :: next :: rest)), colons_cons (List.cons_ne_nil _ _)]
                  simp only [inetPton6, List.nil_append, if_true]

/-- The bytes that some pieces spell out, in terms of the groups before and after the gap. -/
theorem exists_spells_iff {pieces : List Bytes} {b : Bytes} :
    (∃ gs, Spells pieces gs ∧ b = gs.flatMap groupBytes) ↔
      ((∀ g ∈ pieces, Group g) ∧ pieces.length = 8 ∧ b = bytesOf pieces) ∨
      ∃ before after, pieces = side before ++ [] :: side after ∧ (∀ g ∈ before, Group g) ∧
        (∀ g ∈ after, Group g) ∧ before.length + after.length < 8 ∧
        b = fill (2 * before.length) (bytesOf before ++ bytesOf after) := by
  constructor
  · rintro ⟨gs, hspells, rfl⟩
    cases hspells with
    | full hgroups hlen => exact .inl ⟨hgroups, hlen, rfl⟩
    | @gap before after k hbefore hafter hk hlen =>
        exact .inr ⟨before, after, rfl, hbefore, hafter, by omega, (bytes_gap hlen).symm⟩
  · rintro (⟨hgroups, hlen, rfl⟩ | ⟨before, after, rfl, hbefore, hafter, hlt, rfl⟩)
    · exact ⟨_, .full hgroups hlen, rfl⟩
    · exact ⟨_, .gap hbefore hafter (k := 8 - (before.length + after.length)) (by omega) (by omega),
        bytes_gap (by omega)⟩

/-- **`inet_pton` on a text without dots.** -/
theorem inetPton6_colons_iff {pieces : List Bytes} (hne : pieces ≠ [])
    (hpieces : ∀ piece ∈ pieces, Piece piece) (b : Bytes) :
    inetPton6 (colons pieces) = some b ↔ ∃ gs, Spells pieces gs ∧ b = gs.flatMap groupBytes := by
  have hroom : ∀ n, ([] : Bytes).length + 2 * n < 16 ↔ n < 8 := fun n => by
    rw [List.length_nil]
    omega
  have hfull : ∀ n, ([] : Bytes).length + 2 * n = 16 ↔ n = 8 := fun n => by
    rw [List.length_nil]
    omega
  rw [exists_spells_iff]
  cases pieces with
  | nil => exact absurd rfl hne
  | cons piece rest =>
      obtain ⟨hpiece, hrest⟩ := List.forall_mem_cons.mp hpieces
      rw [inetPton6_colons rest hpiece hrest]
      by_cases hnil : piece = []
      · subst hnil
        have hgroups : ¬∀ g ∈ [] :: rest, Group g := fun h => not_group_nil (h [] List.mem_cons_self)
        rw [if_neg (not_not.mpr rfl)]
        by_cases hstart : rest.head? = some [] ∧ rest ≠ [[]]
        · -- the gap is at the start: the loop sees the second colon only
          rw [if_pos hstart, readPieces_none hstart.2 (Nat.zero_le _)]
          obtain ⟨tail, rfl⟩ := List.head?_eq_some_iff.mp hstart.1
          constructor
          · rintro (⟨hall, -⟩ | ⟨before, after, hsides, hbefore, hafter, hlt, rfl⟩)
            · exact absurd (hall [] List.mem_cons_self) not_group_nil
            · obtain rfl := eq_nil_of_cons_nil hsides hbefore
              exact .inr ⟨[], after, by rw [hsides]; rfl, hbefore, hafter, (hroom _).mp hlt, by simp⟩
          · rintro (⟨hall, -⟩ | ⟨before, after, hsides, hbefore, hafter, hlt, rfl⟩)
            · exact absurd hall hgroups
            · cases before with
              | nil =>
                  exact .inr ⟨[], after, (List.cons.inj hsides).2, hbefore, hafter, (hroom _).mpr hlt,
                    by simp⟩
              | cons g before => cases eq_nil_of_cons_nil hsides hbefore
        · rw [if_neg hstart]
          apply refused_iff
          rintro (⟨hall, -⟩ | ⟨before, after, hsides, hbefore, -⟩)
          · exact hgroups hall
          · cases before with
            | nil =>
                obtain ⟨-, rfl⟩ := List.cons.inj hsides
                exact hstart ⟨rfl, fun h => side_ne_nil after (List.cons.inj h).2⟩
            | cons g before => cases eq_nil_of_cons_nil hsides hbefore
      · have hlast : piece :: rest ≠ [[]] := fun h => hnil (List.cons.inj h).1
        rw [if_pos hnil, readPieces_none hlast (Nat.zero_le _)]
        refine or_congr ⟨?_, ?_⟩ ⟨?_, ?_⟩
        · exact fun h => ⟨h.1, (hfull _).mp h.2.1, h.2.2⟩
        · exact fun h => ⟨h.1, (hfull _).mpr h.2.1, h.2.2⟩
        · rintro ⟨before, after, hsides, hbefore, hafter, hlt, rfl⟩
          have hne : before ≠ [] := fun h => hnil (by rw [h] at hsides; exact (List.cons.inj hsides).1)
          exact ⟨before, after, by rw [side_of_ne_nil hne, hsides], hbefore, hafter, (hroom _).mp hlt,
            by simp⟩
        · rintro ⟨before, after, hsides, hbefore, hafter, hlt, rfl⟩
          have hne : before ≠ [] := fun h => hnil (by rw [h] at hsides; exact (List.cons.inj hsides).1)
          rw [side_of_ne_nil hne] at hsides
          exact ⟨before, after, hsides, hbefore, hafter, (hroom _).mpr hlt, by simp⟩

/-! ## Reading printed groups -/

/-- A printed group is read as its number. -/
theorem groupValue_hex (g : Nat) : groupValue (hex g) = g := by
  by_cases hzero : g = 0
  · rw [hzero]
    rfl
  · have hfold : ∀ (ds : List Nat) (v : Nat), (∀ d ∈ ds, d < 16) →
        (ds.map hexByte).foldl (fun v c => v * 16 + (hexDigitValue c).getD 0) v =
          ds.foldl (fun v d => v * 16 + d) v := by
      intro ds
      induction ds with
      | nil => exact fun v _ => rfl
      | cons d ds ih =>
          intro v hds
          obtain ⟨hd, hds⟩ := List.forall_mem_cons.mp hds
          rw [List.map_cons, List.foldl_cons, List.foldl_cons, hexDigitValue_hexByte hd, ih _ hds]
          rfl
    rw [groupValue, hex_eq hzero, hfold, foldl_digits]
    exact fun d hd => Nat.digits_lt_base (by norm_num) (List.mem_reverse.mp hd)

/-- A number of 16 bits is printed as a group. -/
theorem group_hex {g : Nat} (hg : g < 16 ^ 4) : Group (hex g) := by
  refine ⟨hex_ne_nil g, length_hex_le (by norm_num) hg, fun c hc => ?_⟩
  obtain ⟨d, hd, rfl⟩ := mem_hex hc
  rw [hexDigitValue_hexByte hd]
  rfl

/-- The text of some groups has their digits for pieces. -/
theorem joinHex_eq_colons (gs : List Nat) : joinHex gs = colons (gs.map hex) := by
  induction gs with
  | nil => rfl
  | cons g gs ih =>
      cases gs with
      | nil => exact (List.append_nil _).trans (colons_singleton _).symm
      | cons h gs =>
          rw [List.map_cons, colons_cons (by simp), ← ih]
          rfl

/-- The digits of some groups, as pieces, are groups. -/
theorem groups_hex {gs : List Nat} (hgs : ∀ g ∈ gs, g < 16 ^ 4) : ∀ p ∈ gs.map hex, Group p := by
  intro p hp
  obtain ⟨g, hg, rfl⟩ := List.mem_map.mp hp
  exact group_hex (hgs g hg)

/-- The digits of some groups, as pieces, are read as these groups. -/
theorem groupValues_hex (gs : List Nat) : (gs.map hex).map groupValue = gs := by
  rw [List.map_map]
  exact (List.map_congr_left fun g _ => groupValue_hex g).trans (List.map_id _)

/-- **Eight groups are read back.** -/
theorem inetPton6_full {gs : List Nat} (hgs : ∀ g ∈ gs, g < 16 ^ 4) (hlen : gs.length = 8) :
    inetPton6 (joinHex gs) = some (gs.flatMap groupBytes) := by
  have hgroups := groups_hex hgs
  have hspells := Spells.full hgroups (by rw [List.length_map, hlen])
  rw [groupValues_hex] at hspells
  rw [joinHex_eq_colons]
  exact (inetPton6_colons_iff hspells.pieces_ne_nil (fun p hp => (hgroups p hp).2.piece) _).mpr
    ⟨gs, hspells, rfl⟩

/-- **A compressed address is read back**: `::` stands for the missing groups. -/
theorem inetPton6_compressed (pre post : List Nat) {k : Nat} (hk : 0 < k)
    (hlen : pre.length + k + post.length = 8) (hpre : ∀ g ∈ pre, g < 16 ^ 4)
    (hpost : ∀ g ∈ post, g < 16 ^ 4) :
    inetPton6 (joinHex pre ++ str "::" ++ joinHex post) =
      some ((pre ++ List.replicate k 0 ++ post).flatMap groupBytes) := by
  have hspells := Spells.gap (groups_hex hpre) (groups_hex hpost) hk (by simpa using hlen)
  rw [groupValues_hex, groupValues_hex] at hspells
  have htext : joinHex pre ++ str "::" ++ joinHex post =
      colons (side (pre.map hex) ++ [] :: side (post.map hex)) := by
    rw [colons_gap, joinHex_eq_colons, joinHex_eq_colons, List.append_assoc]
    rfl
  rw [htext]
  exact (inetPton6_colons_iff hspells.pieces_ne_nil (fun p hp => (hspells.digits p hp).piece) _).mpr
    ⟨_, hspells, rfl⟩

end SocialNetwork.Net
