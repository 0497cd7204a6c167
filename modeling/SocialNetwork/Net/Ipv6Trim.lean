import SocialNetwork.Foundation.Rewriting
import SocialNetwork.Net.GroupText
import SocialNetwork.Net.Ipv6Tokens

/-!
# `trim_v6_string` on the pieces between colons

The three loops of `trim_v6_string` as rewriting: zeros after a colon go, and of three colons in a row
one goes, until nothing is left to do. On the pieces between colons this strips leading zeros and merges
empty pieces (`trimV6String_spells`); what follows the last piece, a scope, is left alone.
-/

namespace SocialNetwork.Net

open Foundation Helpers

/-! ## Replacement as rewriting -/

/-- `replace_in_place` rewrites, at least once if the pattern occurs. -/
theorem replaceLoop_rewrites (src dst : Bytes) (fuel : Nat) (s : Bytes) :
    Relation.ReflTransGen (Rewrites src dst) s (replaceLoop src dst fuel s) := by
  induction fuel generalizing s with
  | zero => exact .refl
  | succ fuel ih =>
      cases s with
      | nil => exact .refl
      | cons c s =>
          rw [replaceLoop]
          split
          · rename_i hpre
            obtain ⟨rest, hrest⟩ := hpre
            rw [← hrest, List.drop_left]
            exact .head (Rewrites.head rest) (rewritesStar_append_left dst (ih rest))
          · exact rewritesStar_append_left [c] (ih s)

/-- The loop of `replace_in_place` rewrites the pattern, at least once where it occurs. -/
theorem replaceLoop_rewritesPlus {src dst : Bytes} {fuel : Nat} {s : Bytes} (hfuel : s.length ≤ fuel)
    (hsrc : src ≠ []) (h : src <:+: s) :
    Relation.TransGen (Rewrites src dst) s (replaceLoop src dst fuel s) := by
  induction fuel generalizing s with
  | zero =>
      obtain rfl := List.length_eq_zero_iff.mp (Nat.le_zero.mp hfuel)
      exact absurd (List.infix_nil.mp h) hsrc
  | succ fuel ih =>
      cases s with
      | nil => exact absurd (List.infix_nil.mp h) hsrc
      | cons c s =>
          rw [replaceLoop]
          split
          · rename_i hpre
            obtain ⟨rest, hrest⟩ := hpre
            rw [← hrest, List.drop_left]
            exact .head' (Rewrites.head rest)
              (rewritesStar_append_left dst (replaceLoop_rewrites src dst fuel rest))
          · rename_i hpre
            rw [List.length_cons] at hfuel
            refine rewritesPlus_append_left [c] (ih (by omega) ?_)
            exact (List.infix_cons_iff.mp h).resolve_left hpre

/-- **The loops of `trim_v6_string` rewrite to a normal form.** -/
theorem replaceWhile_rewrites {src dst : Bytes} (hshort : dst.length < src.length) (fuel : Nat)
    {s : Bytes} (hfuel : s.length ≤ fuel) :
    Relation.ReflTransGen (Rewrites src dst) s (IpAddress.replaceWhile src dst fuel s) ∧
      ¬src <:+: IpAddress.replaceWhile src dst fuel s := by
  have hsrc : src ≠ [] := List.ne_nil_of_length_pos (Nat.zero_lt_of_lt hshort)
  induction fuel generalizing s with
  | zero =>
      obtain rfl := List.length_eq_zero_iff.mp (Nat.le_zero.mp hfuel)
      exact ⟨.refl, fun h => hsrc (List.infix_nil.mp h)⟩
  | succ fuel ih =>
      rw [IpAddress.replaceWhile]
      split
      · rename_i h
        have hdst : src ≠ dst := fun h => absurd (h ▸ hshort) (lt_irrefl _)
        have hplus : Relation.TransGen (Rewrites src dst) s (replaceInPlace s src dst) := by
          rw [replaceInPlace, if_neg (by simp [hsrc, hdst])]
          exact replaceLoop_rewritesPlus le_rfl hsrc h
        have hlt := rewritesPlus_length_lt hshort hplus
        obtain ⟨hstar, hnormal⟩ := ih (s := replaceInPlace s src dst) (by omega)
        exact ⟨hplus.to_reflTransGen.trans hstar, hnormal⟩
      · rename_i h
        exact ⟨.refl, h⟩

/-! ## Cutting a text with something after the last piece -/

/-- A colon of the text is one between two pieces. -/
theorem exists_split {pieces : List Bytes} {suffix l r : Bytes}
    (hpieces : ∀ p ∈ pieces, chr ':' ∉ p) (hsuffix : chr ':' ∉ suffix)
    (h : colons pieces ++ suffix = l ++ chr ':' :: r) :
    ∃ x y, x ≠ [] ∧ y ≠ [] ∧ pieces = x ++ y ∧ l = colons x ∧ r = colons y ++ suffix := by
  induction pieces generalizing l with
  | nil =>
      have hmem : chr ':' ∈ colons [] ++ suffix := h ▸ List.mem_append_right l List.mem_cons_self
      exact absurd hmem hsuffix
  | cons piece pieces ih =>
      obtain ⟨hpiece, hpieces⟩ := List.forall_mem_cons.mp hpieces
      by_cases hnil : pieces = []
      · have hmem : chr ':' ∈ colons (piece :: pieces) ++ suffix :=
          h ▸ List.mem_append_right l List.mem_cons_self
        rw [hnil, colons_singleton] at hmem
        exact ((List.mem_append.mp hmem).elim hpiece hsuffix).elim
      · rw [colons_cons hnil, List.append_assoc, List.cons_append] at h
        rcases List.append_eq_append_iff.mp h with ⟨a, hl, hrest⟩ | ⟨a, hl, hrest⟩
        · cases a with
          | nil =>
              refine ⟨[piece], pieces, List.cons_ne_nil _ _, hnil, rfl, ?_, ?_⟩
              · rw [hl, List.append_nil, colons_singleton]
              · exact (List.cons.inj hrest).2.symm
          | cons c a =>
              obtain ⟨rfl, htail⟩ := List.cons.inj hrest
              obtain ⟨x, y, hx, hy, rfl, rfl, hr⟩ := ih hpieces htail
              exact ⟨piece :: x, y, List.cons_ne_nil _ _, hy, rfl, by rw [hl, colons_cons hx], hr⟩
        · cases a with
          | nil =>
              refine ⟨[piece], pieces, List.cons_ne_nil _ _, hnil, rfl, ?_, ?_⟩
              · rw [hl, List.append_nil, colons_singleton]
              · exact (List.cons.inj hrest).2
          | cons c a =>
              obtain ⟨rfl, -⟩ := List.cons.inj hrest
              exact absurd (hl ▸ List.mem_append_right l List.mem_cons_self) hpiece

/-- The first character of the pieces, with something after the last one. -/
theorem colons_eq_cons {piece : Bytes} {pieces : List Bytes} {suffix r : Bytes} {c : UInt8}
    (h : colons (piece :: pieces) ++ suffix = c :: r) (hsuffix : suffix.head? ≠ some c) :
    (piece = [] ∧ pieces ≠ [] ∧ c = chr ':' ∧ r = colons pieces ++ suffix) ∨
      ∃ piece', piece = c :: piece' ∧ r = colons (piece' :: pieces) ++ suffix := by
  cases piece with
  | nil =>
      by_cases hnil : pieces = []
      · rw [hnil, colons_singleton, List.nil_append] at h
        exact absurd (by rw [h]; rfl) hsuffix
      · rw [colons_cons hnil, List.nil_append, List.cons_append] at h
        obtain ⟨rfl, rfl⟩ := List.cons.inj h
        exact .inl ⟨rfl, hnil, rfl, rfl⟩
  | cons d piece =>
      rw [colons_cons_cons, List.cons_append] at h
      obtain ⟨rfl, rfl⟩ := List.cons.inj h
      exact .inr ⟨piece, rfl, rfl⟩

/-! ## Pieces without leading zeros -/

/-- A piece without leading zeros. -/
def strip (piece : Bytes) : Bytes := piece.dropWhile (· = chr '0')

/-- A zero in front is removed. -/
theorem strip_zero (piece : Bytes) : strip (chr '0' :: piece) = strip piece :=
  List.dropWhile_cons_of_pos (by simp)

/-- Another character in front is kept. -/
theorem strip_of_ne {c : UInt8} (hc : c ≠ chr '0') (piece : Bytes) : strip (c :: piece) = c :: piece :=
  List.dropWhile_cons_of_neg (by simpa using hc)

/-- A piece without a zero in front is kept. -/
theorem strip_of_head {piece : Bytes} (h : piece.head? ≠ some (chr '0')) : strip piece = piece := by
  cases piece with
  | nil => rfl
  | cons c piece => exact strip_of_ne (fun hc => h (by rw [hc]; rfl)) piece

/-- The loop for the first group. -/
theorem dropWhile_colons (piece : Bytes) (rest : List Bytes) {suffix : Bytes}
    (hzero : suffix.head? ≠ some (chr '0')) :
    (colons (piece :: rest) ++ suffix).dropWhile (· = chr '0') =
      colons (strip piece :: rest) ++ suffix := by
  induction piece with
  | nil =>
      by_cases hnil : rest = []
      · rw [hnil, strip, List.dropWhile_nil, colons_singleton, List.nil_append]
        exact strip_of_head hzero
      · rw [strip, List.dropWhile_nil, colons_cons hnil]
        rfl
  | cons c piece ih =>
      by_cases hc : c = chr '0'
      · rw [hc, colons_cons_cons, List.cons_append, List.dropWhile_cons_of_pos (by simp), ih,
          strip_zero]
      · rw [strip_of_ne hc, colons_cons_cons, List.cons_append,
          List.dropWhile_cons_of_neg (by simpa using hc)]

/-! ## Double colons -/

/-- A single colon does not count for `::`. -/
theorem countDoubleColons_colon {c : UInt8} (hc : c ≠ chr ':') (s : Bytes) :
    IpAddress.countDoubleColons (chr ':' :: c :: s) = IpAddress.countDoubleColons (c :: s) := by
  rw [IpAddress.countDoubleColons, if_neg fun h => hc h.2]

/-- There is no `::` between groups. -/
theorem countDoubleColons_groups {groups : List Bytes} (hgroups : ∀ g ∈ groups, g ≠ [])
    (hcolon : ∀ g ∈ groups, chr ':' ∉ g) (s : Bytes) :
    IpAddress.countDoubleColons (colons groups ++ s) = IpAddress.countDoubleColons s := by
  induction groups with
  | nil => rfl
  | cons g groups ih =>
      obtain ⟨hg, hcolon⟩ := List.forall_mem_cons.mp hcolon
      obtain ⟨-, hgroups⟩ := List.forall_mem_cons.mp hgroups
      cases groups with
      | nil => rw [colons_singleton, countDoubleColons_append hg]
      | cons next rest =>
          rw [colons_cons (List.cons_ne_nil _ _), List.append_assoc, countDoubleColons_append hg,
            ← ih hgroups hcolon]
          cases next with
          | nil => exact absurd rfl (hgroups [] List.mem_cons_self)
          | cons c next =>
              have hc : c ≠ chr ':' := fun h => hcolon _ List.mem_cons_self (h ▸ List.mem_cons_self)
              rw [colons_cons_cons, List.cons_append, List.cons_append, countDoubleColons_colon hc]

/-! ## The loops -/

section

variable {suffix : Bytes} (hsuffix : chr ':' ∉ suffix)

include hsuffix

/-- One application of the rule for zeros: a piece after the first one loses a zero. -/
theorem rewrites_zero {piece : Bytes} {pieces : List Bytes} {s : Bytes}
    (hzero : suffix.head? ≠ some (chr '0')) (hpieces : ∀ p ∈ piece :: pieces, chr ':' ∉ p)
    (h : Rewrites (str ":0") (str ":") (colons (piece :: pieces) ++ suffix) s) :
    ∃ pieces', (∀ p ∈ piece :: pieces', chr ':' ∉ p) ∧ pieces'.map strip = pieces.map strip ∧
      s = colons (piece :: pieces') ++ suffix := by
  obtain ⟨l, r, htext, rfl⟩ := h
  have hcut : colons (piece :: pieces) ++ suffix = l ++ chr ':' :: (chr '0' :: r) := by
    rw [htext, List.append_assoc]
    rfl
  obtain ⟨x, y, hx, hy, hxy, rfl, hr⟩ := exists_split hpieces hsuffix hcut
  cases y with
  | nil => exact absurd rfl hy
  | cons next y =>
      rcases colons_eq_cons hr.symm hzero with ⟨-, -, hcolon, -⟩ | ⟨next', rfl, rfl⟩
      · exact absurd hcolon (by decide)
      · cases x with
        | nil => exact absurd rfl hx
        | cons head x =>
            obtain ⟨rfl, rfl⟩ := List.cons.inj hxy
            refine ⟨x ++ next' :: y, ?_, ?_, ?_⟩
            · intro p hp hmem
              rcases List.mem_cons.mp hp with rfl | hp
              · exact hpieces p List.mem_cons_self hmem
              · rcases List.mem_append.mp hp with hp | hp
                · exact hpieces p (by simp [hp]) hmem
                · rcases List.mem_cons.mp hp with rfl | hp
                  · exact hpieces (chr '0' :: p) (by simp) (List.mem_cons_of_mem _ hmem)
                  · exact hpieces p (by simp [hp]) hmem
            · change _ = (x ++ (chr '0' :: next') :: y).map strip
              simp only [List.map_append, List.map_cons, strip_zero]
            · rw [← List.cons_append, colons_append hx (List.cons_ne_nil _ _)]
              simp [str]

/-- **The loop for zeros** strips all pieces after the first one. -/
theorem replaceWhile_zeros {piece : Bytes} {pieces : List Bytes}
    (hzero : suffix.head? ≠ some (chr '0')) (hpieces : ∀ p ∈ piece :: pieces, chr ':' ∉ p) :
    IpAddress.replaceWhile (str ":0") (str ":") (colons (piece :: pieces) ++ suffix).length
        (colons (piece :: pieces) ++ suffix) =
      colons (piece :: pieces.map strip) ++ suffix := by
  obtain ⟨hstar, hnormal⟩ := replaceWhile_rewrites
    (show (str ":").length < (str ":0").length by decide)
    (colons (piece :: pieces) ++ suffix).length le_rfl
  obtain ⟨pieces', hcolon, hstrip, htext⟩ := rewritesStar_induct (P := fun s =>
      ∃ pieces', (∀ p ∈ piece :: pieces', chr ':' ∉ p) ∧ pieces'.map strip = pieces.map strip ∧
        s = colons (piece :: pieces') ++ suffix)
    (by
      rintro s s' ⟨pieces', hcolon, hstrip, rfl⟩ hstep
      obtain ⟨pieces'', hcolon', hstrip', rfl⟩ := rewrites_zero hsuffix hzero hcolon hstep
      exact ⟨pieces'', hcolon', hstrip'.trans hstrip, rfl⟩)
    hstar ⟨pieces, hpieces, rfl, rfl⟩
  have hstripped : pieces'.map strip = pieces' := by
    refine (List.map_congr_left fun p hp => strip_of_head fun hhead => ?_).trans (List.map_id _)
    obtain ⟨a, b, rfl⟩ := List.append_of_mem hp
    obtain ⟨p', rfl⟩ := List.head?_eq_some_iff.mp hhead
    apply hnormal
    rw [htext, ← List.cons_append, colons_append (List.cons_ne_nil _ _) (List.cons_ne_nil _ _),
      colons_cons_cons]
    exact ⟨colons (piece :: a), colons (p' :: b) ++ suffix, by simp [str]⟩
  rw [htext, ← hstrip, hstripped]

/-- Of two empty pieces that are not at an end, one goes. -/
def Merges (pieces pieces' : List Bytes) : Prop :=
  ∃ x y, x ≠ [] ∧ y ≠ [] ∧ pieces = x ++ [] :: [] :: y ∧ pieces' = x ++ [] :: y

/-- The rule for colons. -/
theorem rewrites_colons {pieces : List Bytes} {s : Bytes} (hpieces : ∀ p ∈ pieces, chr ':' ∉ p)
    (h : Rewrites (str ":::") (str "::") (colons pieces ++ suffix) s) :
    ∃ pieces', (∀ p ∈ pieces', chr ':' ∉ p) ∧ Merges pieces pieces' ∧
      s = colons pieces' ++ suffix := by
  obtain ⟨l, r, htext, rfl⟩ := h
  have hcut : colons pieces ++ suffix = l ++ chr ':' :: (chr ':' :: chr ':' :: r) := by
    rw [htext, List.append_assoc]
    rfl
  have hhead : suffix.head? ≠ some (chr ':') := fun h => hsuffix (List.mem_of_mem_head? h)
  obtain ⟨x, y, hx, hy, rfl, rfl, hr⟩ := exists_split hpieces hsuffix hcut
  cases y with
  | nil => exact absurd rfl hy
  | cons first y =>
      rcases colons_eq_cons hr.symm hhead with ⟨rfl, hy, -, hr⟩ | ⟨first', rfl, -⟩
      · cases y with
        | nil => exact absurd rfl hy
        | cons second y =>
            rcases colons_eq_cons hr.symm hhead with ⟨rfl, hy, -, rfl⟩ | ⟨second', rfl, -⟩
            · refine ⟨x ++ [] :: y, ?_, ⟨x, y, hx, hy, rfl, rfl⟩, ?_⟩
              · intro p hp
                rcases List.mem_append.mp hp with hp | hp
                · exact hpieces p (by simp [hp])
                · rcases List.mem_cons.mp hp with rfl | hp
                  · exact List.not_mem_nil
                  · exact hpieces p (by simp [hp])
              · rw [colons_append hx (List.cons_ne_nil _ _), colons_cons hy]
                simp [str]
            · exact absurd List.mem_cons_self (hpieces (chr ':' :: second') (by simp))
      · exact absurd List.mem_cons_self (hpieces (chr ':' :: first') (by simp))

/-- **The loop for colons** merges empty pieces as long as two of them are not at an end. -/
theorem replaceWhile_colons {pieces : List Bytes} (hpieces : ∀ p ∈ pieces, chr ':' ∉ p) :
    ∃ pieces', Relation.ReflTransGen Merges pieces pieces' ∧ (∀ next, ¬Merges pieces' next) ∧
      IpAddress.replaceWhile (str ":::") (str "::") (colons pieces ++ suffix).length
        (colons pieces ++ suffix) = colons pieces' ++ suffix := by
  obtain ⟨hstar, hnormal⟩ := replaceWhile_rewrites
    (show (str "::").length < (str ":::").length by decide) (colons pieces ++ suffix).length le_rfl
  obtain ⟨pieces', hcolon, hmerged, htext⟩ := rewritesStar_induct (P := fun s =>
      ∃ pieces', (∀ p ∈ pieces', chr ':' ∉ p) ∧ Relation.ReflTransGen Merges pieces pieces' ∧
        s = colons pieces' ++ suffix)
    (by
      rintro s s' ⟨pieces', hcolon, hmerged, rfl⟩ hstep
      obtain ⟨pieces'', hcolon', hstep', rfl⟩ := rewrites_colons hsuffix hcolon hstep
      exact ⟨pieces'', hcolon', hmerged.tail hstep', rfl⟩)
    hstar ⟨pieces, hpieces, .refl, rfl⟩
  refine ⟨pieces', hmerged, ?_, htext⟩
  rintro next ⟨x, y, hx, hy, rfl, -⟩
  apply hnormal
  rw [htext, colons_append hx (List.cons_ne_nil _ _), colons_cons (List.cons_ne_nil _ _),
    colons_cons hy]
  exact ⟨colons x, colons y ++ suffix, by simp [str]⟩

/-- What `inet_pton` accepts has one `::` at most. -/
theorem countDoubleColons_le {pieces : List Bytes} {gs : List Nat} (h : Spells pieces gs) :
    IpAddress.countDoubleColons (colons pieces ++ suffix) ≤ 1 := by
  have hgroups : ∀ {groups : List Bytes}, (∀ g ∈ groups, Group g) → ∀ s,
      IpAddress.countDoubleColons (colons groups ++ s) = IpAddress.countDoubleColons s :=
    fun h => countDoubleColons_groups (fun g hg => (h g hg).1)
      fun g hg => (h g hg).2.not_mem (by decide)
  have hzero : IpAddress.countDoubleColons suffix = 0 := by
    rw [← List.append_nil suffix, countDoubleColons_append hsuffix]
    rfl
  cases h with
  | full hall hlen => rw [hgroups hall, hzero]; exact Nat.zero_le 1
  | @gap before after k hbefore hafter hk hlen =>
      rw [colons_gap, List.append_assoc, hgroups hbefore, List.cons_append, List.cons_append,
        IpAddress.countDoubleColons, if_pos ⟨rfl, rfl⟩, hgroups hafter, hzero]

/-- It ends in a group, in `::`, or in a scope. -/
theorem spells_ends {pieces : List Bytes} {gs : List Nat} (h : Spells pieces gs) :
    (∃ l w, w ≠ [] ∧ chr ':' ∉ w ∧ colons pieces ++ suffix = l ++ w) ∨
      ∃ l, colons pieces ++ suffix = l ++ str "::" := by
  by_cases hscope : suffix = []
  · have hgroups : ∀ x {groups : List Bytes}, groups ≠ [] → (∀ g ∈ groups, Group g) →
        ∃ l w, w ≠ [] ∧ chr ':' ∉ w ∧ colons (x ++ groups) = l ++ w := by
      intro x groups hne hall
      obtain ⟨init, g, rfl⟩ := List.eq_nil_or_concat' groups |>.resolve_left hne
      have hg := hall g (by simp)
      rw [← List.append_assoc]
      by_cases hnil : x ++ init = []
      · refine ⟨[], g, hg.1, hg.2.not_mem (by decide), ?_⟩
        rw [hnil, List.nil_append, colons_singleton]
        rfl
      · refine ⟨colons (x ++ init) ++ [chr ':'], g, hg.1, hg.2.not_mem (by decide), ?_⟩
        rw [colons_append hnil (List.cons_ne_nil _ _), colons_singleton]
        simp
    rw [hscope, List.append_nil]
    cases h with
    | full hall hlen =>
        exact .inl (hgroups [] (List.ne_nil_of_length_pos (by omega)) hall)
    | @gap before after k hbefore hafter hk hlen =>
        by_cases hnil : after = []
        · refine .inr ⟨colons before, ?_⟩
          rw [colons_gap, hnil]
          rfl
        · rw [side_of_ne_nil hnil, List.append_cons]
          exact .inl (hgroups _ hnil hafter)
  · exact .inl ⟨colons pieces, suffix, hscope, hsuffix, rfl⟩

/-- **`trim_v6_string` on what `inet_pton` accepts**, with a scope after it or without. -/
theorem trimV6String_spells {pieces : List Bytes} {gs : List Nat} (h : Spells pieces gs)
    (hcolon : ∀ p ∈ pieces, chr ':' ∉ p) (hzero : suffix.head? ≠ some (chr '0')) :
    ∃ pieces', Relation.ReflTransGen Merges (pieces.map strip) pieces' ∧
      (∀ next, ¬Merges pieces' next) ∧
      IpAddress.trimV6String (colons pieces ++ suffix) = colons pieces' ++ suffix := by
  have hguard : ¬(IpAddress.countDoubleColons (colons pieces ++ suffix) > 1 ||
      ((colons pieces ++ suffix).length ≥ 2 &&
        (colons pieces ++ suffix).getD ((colons pieces ++ suffix).length - 1) 0 = chr ':' &&
        (colons pieces ++ suffix).getD ((colons pieces ++ suffix).length - 2) 0 ≠ chr ':')) = true := by
    have hcount := countDoubleColons_le hsuffix h
    rw [no_lone_colon (spells_ends hsuffix h)]
    simpa using hcount
  have hstrip : ∀ p ∈ pieces.map strip, chr ':' ∉ p := by
    intro p hp hmem
    obtain ⟨p', hp', rfl⟩ := List.mem_map.mp hp
    exact hcolon p' hp' ((List.dropWhile_suffix _).subset hmem)
  cases pieces with
  | nil => exact absurd h.pieces_ne_nil (not_not.mpr rfl)
  | cons piece rest =>
      obtain ⟨-, hrest⟩ := List.forall_mem_cons.mp hcolon
      have hfirst : ∀ p ∈ strip piece :: rest, chr ':' ∉ p :=
        List.forall_mem_cons.mpr ⟨hstrip _ List.mem_cons_self, hrest⟩
      obtain ⟨pieces', hmerged, hnormal, htext⟩ := replaceWhile_colons hsuffix hstrip
      refine ⟨pieces', hmerged, hnormal, ?_⟩
      rw [IpAddress.trimV6String, if_neg hguard]
      simp only [dropWhile_colons piece rest hzero, replaceWhile_zeros hsuffix hzero hfirst]
      exact htext

end

end SocialNetwork.Net
