import SocialNetwork.Net.Ipv6Gaps
import SocialNetwork.Net.RoundTrip

/-!
# Which IPv6 texts `try_parse` reads

`inet_pton` reads more texts than `try_parse`. The family is guessed from the separators, so that a text
with a dotted tail or with eight colons is refused. Zeros are stripped from every group, whether or not
`::` is there already, so that zero groups in several places leave several gaps and a lone one at an end
leaves a lone colon. `ipv6_text_read_iff` says that there is nothing else.
-/

namespace SocialNetwork.Net

open Foundation Helpers

/-! ## Statements -/

/-- The text is parsed as the IPv6 address with these bytes. -/
def ReadsAs (text b : Bytes) : Prop :=
  ∃ ip, IpAddress.tryParse text = some ip ∧ ip.family = .v6 ∧ ip.data.toList = b

/-- The texts of an address that survive the guess of the family and the trimming. -/
def Readable (text b : Bytes) : Prop :=
  chr '.' ∉ text ∧ text.count (chr ':') ≤ 7 ∧ ZerosTogether (⟨.v6, toData b⟩ : IpAddress).groups

/-! ## The characters of the text -/

/-- A text of pieces has their characters and colons. -/
theorem mem_colons {pieces : List Bytes} {c : UInt8} (h : c ∈ colons pieces) :
    c = chr ':' ∨ ∃ p ∈ pieces, c ∈ p := by
  induction pieces with
  | nil => cases h
  | cons piece pieces ih =>
      by_cases hnil : pieces = []
      · rw [hnil, colons_singleton] at h
        exact .inr ⟨piece, List.mem_cons_self, h⟩
      · rw [colons_cons hnil] at h
        rcases List.mem_append.mp h with h | h
        · exact .inr ⟨piece, List.mem_cons_self, h⟩
        · rcases List.mem_cons.mp h with h | h
          · exact .inl h
          · apply (ih h).imp_right
            rintro ⟨p, hp, hc⟩
            exact ⟨p, List.mem_cons_of_mem _ hp, hc⟩

/-- A text of pieces has one colon less than there are pieces. -/
theorem count_colons {pieces : List Bytes} (hne : pieces ≠ []) (hcolon : ∀ p ∈ pieces, chr ':' ∉ p) :
    (colons pieces).count (chr ':') + 1 = pieces.length := by
  induction pieces with
  | nil => exact absurd rfl hne
  | cons piece pieces ih =>
      obtain ⟨hpiece, hpieces⟩ := List.forall_mem_cons.mp hcolon
      by_cases hnil : pieces = []
      · rw [hnil, colons_singleton, List.count_eq_zero.mpr hpiece]
        rfl
      · rw [colons_cons hnil, List.count_append, List.count_eq_zero.mpr hpiece, List.count_cons_self,
          Nat.zero_add, ih hnil hpieces, List.length_cons]

/-- Digits and colons only. -/
theorem not_mem_colons {pieces : List Bytes} (h : ∀ p ∈ pieces, Digits p) {c : UInt8}
    (hc : hexDigitValue c = none) (hcolon : c ≠ chr ':') : c ∉ colons pieces := fun hmem => by
  rcases mem_colons hmem with hmem | ⟨p, hp, hmem⟩
  · exact hcolon hmem
  · exact (h p hp).not_mem hc hmem

/-- Merging pieces brings in no new ones. -/
theorem merged_subset {pieces pieces' : List Bytes} (h : Relation.ReflTransGen Merges pieces pieces') :
    ∀ p ∈ pieces', p ∈ pieces := by
  induction h with
  | refl => exact fun p hp => hp
  | tail _ hstep ih =>
      obtain ⟨x, y, -, -, rfl, rfl⟩ := hstep
      refine fun p hp => ih p ?_
      simp only [List.mem_append, List.mem_cons] at hp ⊢
      tauto

/-- Trimmed pieces consist of digits. -/
theorem digits_of_merged {pieces pieces' : List Bytes} (h : ∀ p ∈ pieces, Digits p)
    (hmerged : Relation.ReflTransGen Merges (pieces.map strip) pieces') : ∀ p ∈ pieces', Digits p := by
  intro p hp
  obtain ⟨q, hq, rfl⟩ := List.mem_map.mp (merged_subset hmerged p hp)
  exact (h q hq).strip

/-! ## The family -/

section

variable {suffix : Bytes}

/-- A text that is parsed as one of a family gives an address of it. -/
theorem IpAddress.family_tryParseFamily {addr : Bytes} {family : Family} {ip : IpAddress}
    (h : IpAddress.tryParseFamily addr family = some ip) : ip.family = family := by
  unfold IpAddress.tryParseFamily at h
  simp only at h
  split at h
  · exact (Option.some.inj h) ▸ rfl
  · cases family with
    | v4 =>
        obtain ⟨bytes, -, rfl⟩ := Option.map_eq_some_iff.mp h
        rfl
    | v6 =>
        obtain ⟨bytes, -, rfl⟩ := Option.map_eq_some_iff.mp h
        rfl

/-- What is read as an IPv6 address looks like one. -/
theorem ReadsAs.family {text b : Bytes} (h : ReadsAs text b) :
    IpAddress.isV4Format text = false ∧ IpAddress.isV6Format text = true := by
  obtain ⟨ip, hparse, hfamily, -⟩ := h
  obtain ⟨family, htry, hip⟩ := Option.bind_eq_some_iff.mp hparse
  rw [IpAddress.family_tryParseFamily hip] at hfamily
  subst hfamily
  unfold IpAddress.tryFamily at htry
  cases h4 : IpAddress.isV4Format text <;> cases h6 : IpAddress.isV6Format text <;>
    simp [h4, h6] at htry ⊢

/-- With eight colons or more a text does not look like an IPv6 address. -/
theorem isV6Format_spells {pieces : List Bytes} {gs : List Nat} (h : Spells pieces gs)
    (hsuffix : chr ':' ∉ suffix) :
    IpAddress.isV6Format (colons pieces ++ suffix) = true ↔ (colons pieces).count (chr ':') ≤ 7 := by
  have hcount : (colons pieces ++ suffix).count (chr ':') = (colons pieces).count (chr ':') := by
    rw [List.count_append, List.count_eq_zero.mpr hsuffix, Nat.add_zero]
  have hlen := count_colons h.pieces_ne_nil fun p hp => (h.digits p hp).piece.1
  simp only [IpAddress.isV6Format, hcount, Bool.or_eq_true, Bool.and_eq_true, decide_eq_true_eq]
  cases h with
  | full _ hall => omega
  | @gap before after _ _ _ _ _ =>
      have hgap : str "::" <:+: colons (side before ++ [] :: side after) ++ suffix := by
        rw [colons_gap]
        exact ⟨colons before, colons after ++ suffix, by simp [str]⟩
      simp only [hgap, and_true]
      omega

/-! ## Parsing -/

/-- A text without white space is not trimmed. -/
theorem trim_eq_self {s : Bytes} (h : ∀ c ∈ s, isSpace c = false) : trim s = s := by
  have hdrop : ∀ {l : Bytes}, (∀ c ∈ l, isSpace c = false) → l.dropWhile isSpace = l := by
    intro l hl
    rw [List.dropWhile_eq_self_iff]
    intro hpos
    simpa using hl _ (List.getElem_mem hpos)
  rw [trim, hdrop h, hdrop fun c hc => h c (List.mem_reverse.mp hc), List.reverse_reverse]

/-- A text before `%` is not trimmed. -/
theorem trim_scope {s : Bytes} (hs : ∀ c ∈ s, isSpace c = false) (hne : s ≠ []) (scope : Bytes) :
    ∃ scope', trim (s ++ chr '%' :: scope) = s ++ chr '%' :: scope' ∧ ∀ c ∈ scope', c ∈ scope := by
  refine ⟨(scope.reverse.dropWhile isSpace).reverse, ?_, fun c hc => ?_⟩
  · have hfront : (s ++ chr '%' :: scope).dropWhile isSpace = s ++ chr '%' :: scope := by
      cases s with
      | nil => exact absurd rfl hne
      | cons c s =>
          exact List.dropWhile_cons_of_neg (by simp [hs c List.mem_cons_self])
    have hback : (scope.reverse ++ chr '%' :: s.reverse).dropWhile isSpace =
        scope.reverse.dropWhile isSpace ++ chr '%' :: s.reverse := by
      rw [List.dropWhile_append]
      split
      · rename_i hempty
        rw [List.isEmpty_iff.mp hempty, List.dropWhile_cons_of_neg (by decide)]
        rfl
      · rfl
    rw [trim, hfront, List.reverse_append, List.reverse_cons, List.append_assoc, List.singleton_append,
      hback]
    simp
  · exact List.mem_reverse.mp ((List.dropWhile_suffix _).subset (List.mem_reverse.mp hc))

/-- White space is neither a digit nor a colon. -/
theorem hexDigitValue_space {c : UInt8} (h : isSpace c = true) :
    hexDigitValue c = none ∧ c ≠ chr ':' := by
  have hnone : ∀ n < 33, hexDigitValue (UInt8.ofNat n) = none ∧ UInt8.ofNat n ≠ chr ':' := by decide
  have hlt : c.toNat < 33 := by
    simp only [isSpace, Bool.or_eq_true, Bool.and_eq_true, decide_eq_true_eq,
      UInt8.le_iff_toNat_le] at h
    rcases h with rfl | ⟨-, h⟩
    · decide
    · exact lt_of_le_of_lt h (by decide)
  simpa only [UInt8.ofNat_toNat] using hnone c.toNat hlt

/-- What `try_parse` trims away before it looks for `%`. -/
theorem trim_spells {pieces : List Bytes} (hdigits : ∀ p ∈ pieces, Digits p) (hne : colons pieces ≠ [])
    (hscope : suffix = [] ∨ ∃ scope, suffix = chr '%' :: scope ∧ chr ':' ∉ scope) :
    ∃ suffix', trim (colons pieces ++ suffix) = colons pieces ++ suffix' ∧
      (suffix' = [] ∨ ∃ scope, suffix' = chr '%' :: scope ∧ chr ':' ∉ scope) := by
  have hspace : ∀ c ∈ colons pieces, isSpace c = false := by
    intro c hc
    by_contra hsp
    rw [Bool.not_eq_false] at hsp
    exact not_mem_colons hdigits (hexDigitValue_space hsp).1 (hexDigitValue_space hsp).2 hc
  rcases hscope with rfl | ⟨scope, rfl, hcolon⟩
  · exact ⟨[], by rw [List.append_nil, trim_eq_self hspace], .inl rfl⟩
  · obtain ⟨scope', htrim, hsub⟩ := trim_scope hspace hne scope
    exact ⟨chr '%' :: scope', htrim, .inr ⟨scope', rfl, fun h => hcolon (hsub _ h)⟩⟩

/-- **`try_parse` hands the merged pieces to `inet_pton`.** -/
theorem tryParseFamily_spells {pieces : List Bytes} {gs : List Nat} (h : Spells pieces gs)
    (hne : colons pieces ≠ [])
    (hscope : suffix = [] ∨ ∃ scope, suffix = chr '%' :: scope ∧ chr ':' ∉ scope) :
    ∃ pieces', Relation.ReflTransGen Merges (pieces.map strip) pieces' ∧
      (∀ next, ¬Merges pieces' next) ∧
      IpAddress.tryParseFamily (colons pieces ++ suffix) .v6 =
        (inetPton6 (colons pieces')).map fun bytes => ⟨.v6, toData bytes⟩ := by
  obtain ⟨suffix', htrim, hscope'⟩ := trim_spells h.digits hne hscope
  have hcolon : chr ':' ∉ suffix' := by
    rcases hscope' with rfl | ⟨scope, rfl, hcolon⟩
    · exact List.not_mem_nil
    · exact fun hmem => hcolon ((List.mem_cons.mp hmem).resolve_left (by decide))
  have hhead : suffix'.head? ≠ some (chr '0') := by
    rcases hscope' with rfl | ⟨scope, rfl, -⟩
    · exact fun hnone => by cases hnone
    · exact fun hzero => absurd (Option.some.inj hzero) (by decide)
  obtain ⟨pieces', hmerged, hnormal, htext⟩ :=
    trimV6String_spells hcolon h (fun p hp => (h.digits p hp).piece.1) hhead
  have hdigits := digits_of_merged h.digits hmerged
  have hpercent : chr '%' ∉ colons pieces' := not_mem_colons hdigits (by decide) (by decide)
  have hbracket : chr '[' ∉ colons pieces' := not_mem_colons hdigits (by decide) (by decide)
  have hnul : (0 : UInt8) ∉ colons pieces' := not_mem_colons hdigits (by decide) (by decide)
  refine ⟨pieces', hmerged, hnormal, ?_⟩
  have hfull : colons pieces ++ suffix' ≠ [] := List.append_ne_nil_of_left_ne_nil hne _
  simp only [IpAddress.tryParseFamily, htrim, if_neg hfull, htext]
  rcases hscope' with rfl | ⟨scope, rfl, -⟩
  · rw [List.append_nil, if_neg hpercent, cStr_eq_self hnul]
  · have htake : (colons pieces' ++ chr '%' :: scope).takeWhile (· ≠ chr '%') = colons pieces' := by
      rw [List.takeWhile_append_of_pos, List.takeWhile_cons_of_neg (by simp), List.append_nil]
      intro c hc
      have hne : c ≠ chr '%' := fun hcp => hpercent (hcp ▸ hc)
      simpa using hne
    have hopen : (colons pieces' ++ chr '%' :: scope).head? ≠ some (chr '[') := by
      cases htxt : colons pieces' with
      | nil => exact fun hb => absurd (Option.some.inj hb) (by decide)
      | cons c text =>
          intro hb
          exact hbracket (htxt ▸ (Option.some.inj hb) ▸ List.mem_cons_self)
    rw [if_pos (by simp), htake, if_neg hopen, cStr_eq_self hnul]

end

/-! ## The groups of the address -/

/-- At most four digits are a number of 16 bits. -/
theorem groupValue_lt {piece : Bytes} (h : Digits piece) : groupValue piece < 16 ^ 4 := by
  have hfold : ∀ (p : Bytes) (v : Nat), (∀ c ∈ p, (hexDigitValue c).isSome) →
      p.foldl (fun v c => v * 16 + (hexDigitValue c).getD 0) v < (v + 1) * 16 ^ p.length := by
    intro p
    induction p with
    | nil => intro v _; simp
    | cons c p ih =>
        intro v hp
        obtain ⟨hc, hp⟩ := List.forall_mem_cons.mp hp
        obtain ⟨d, hd⟩ := Option.isSome_iff_exists.mp hc
        have hlt := hexDigitValue_lt hd
        rw [List.foldl_cons, hd, Option.getD_some]
        calc p.foldl (fun v c => v * 16 + (hexDigitValue c).getD 0) (v * 16 + d)
            < (v * 16 + d + 1) * 16 ^ p.length := ih _ hp
          _ ≤ (v + 1) * 16 * 16 ^ p.length := Nat.mul_le_mul_right _ (by omega)
          _ = (v + 1) * 16 ^ (c :: p).length := by rw [List.length_cons, pow_succ]; ring
  have hval := hfold piece 0 h.2
  rw [Nat.zero_add, Nat.one_mul] at hval
  exact hval.trans_le (Nat.pow_le_pow_right (by norm_num) h.1)

/-- The groups that are spelled out have 16 bits. -/
theorem Spells.lt {pieces : List Bytes} {gs : List Nat} (h : Spells pieces gs) :
    ∀ g ∈ gs, g < 16 ^ 4 := by
  have hall : ∀ {groups : List Bytes}, (∀ g ∈ groups, Group g) →
      ∀ v ∈ groups.map groupValue, v < 16 ^ 4 := by
    intro groups hgroups v hv
    obtain ⟨g, hg, rfl⟩ := List.mem_map.mp hv
    exact groupValue_lt (hgroups g hg).2
  cases h with
  | full hgroups _ => exact hall hgroups
  | gap hbefore hafter _ _ =>
      intro v hv
      rcases List.mem_append.mp hv with hv | hv
      · rcases List.mem_append.mp hv with hv | hv
        · exact hall hbefore v hv
        · rw [List.eq_of_mem_replicate hv]
          norm_num
      · exact hall hafter v hv

/-- Groups of 16 bits are determined by their bytes. -/
theorem flatMap_groupBytes_inj {gs gs' : List Nat} (hgs : ∀ g ∈ gs, g < 16 ^ 4)
    (hgs' : ∀ g ∈ gs', g < 16 ^ 4) (h : gs.flatMap groupBytes = gs'.flatMap groupBytes) : gs = gs' := by
  induction gs generalizing gs' with
  | nil =>
      cases gs' with
      | nil => rfl
      | cons g' gs' => cases h
  | cons g gs ih =>
      cases gs' with
      | nil => cases h
      | cons g' gs' =>
          obtain ⟨hg, hgs⟩ := List.forall_mem_cons.mp hgs
          obtain ⟨hg', hgs'⟩ := List.forall_mem_cons.mp hgs'
          rw [List.flatMap_cons, List.flatMap_cons] at h
          obtain ⟨hhead, htail⟩ := List.append_inj h rfl
          have hhigh := congrArg UInt8.toNat (List.cons.inj hhead).1
          have hlow := congrArg UInt8.toNat (List.cons.inj (List.cons.inj hhead).2).1
          simp only [UInt8.toNat_ofNat'] at hhigh hlow
          rw [ih hgs hgs' htail, show g = g' by omega]

/-- The groups of an address are those that its bytes were made of. -/
theorem groups_toData {gs : List Nat} (hlen : gs.length = 8) (hgs : ∀ g ∈ gs, g < 16 ^ 4) :
    (⟨.v6, toData (gs.flatMap groupBytes)⟩ : IpAddress).groups = gs := by
  have hbytes : ∀ {l : List Nat}, l.length = 8 → (l.flatMap groupBytes).length = 16 := by
    intro l hl
    rw [length_flatMap_groupBytes, hl]
  refine flatMap_groupBytes_inj (fun g hg => IpAddress.groups_lt _ hg) hgs ?_
  have hdata := congrArg Vector.toList (toData_groups (toData (gs.flatMap groupBytes)))
  rwa [toList_toData (hbytes (IpAddress.length_groups _)), toList_toData (hbytes hlen)] at hdata

/-! ## The result -/

/-- A text in the format of IPv6 alone is parsed as IPv6. -/
theorem IpAddress.tryParse_v6 {text : Bytes} (h4 : IpAddress.isV4Format text = false)
    (h6 : IpAddress.isV6Format text = true) :
    IpAddress.tryParse text = IpAddress.tryParseFamily text .v6 := by
  rw [IpAddress.tryParse, IpAddress.tryFamily, h4, h6]
  rfl

/-- A text with dots looks like an IPv4 address. -/
theorem not_readsAs_of_dot {t b suffix : Bytes} (h : inetPton6 t = some b) (hdot : chr '.' ∈ t)
    (hsuffix : chr '.' ∉ suffix) : ¬ReadsAs (t ++ suffix) b := by
  intro hreads
  have hthree : t.count (chr '.') = 3 :=
    (inetPton6_dots h).resolve_left (Nat.ne_of_gt (List.count_pos_iff.mpr hdot))
  have h4 := hreads.family.1
  rw [IpAddress.isV4Format, List.count_append, hthree, List.count_eq_zero.mpr hsuffix] at h4
  cases h4

/-- A text without dots, with a scope after it or without. -/
theorem readsAs_colons_iff {pieces : List Bytes} {gs : List Nat} {suffix : Bytes}
    (h : Spells pieces gs) (hne : colons pieces ≠ [])
    (hscope : suffix = [] ∨ ∃ scope, suffix = chr '%' :: scope ∧ chr ':' ∉ scope)
    (hdot : chr '.' ∉ suffix) :
    ReadsAs (colons pieces ++ suffix) (gs.flatMap groupBytes) ↔
      (colons pieces).count (chr ':') ≤ 7 ∧ ZerosTogether gs := by
  have hcolon : chr ':' ∉ suffix := by
    rcases hscope with rfl | ⟨scope, rfl, hcolon⟩
    · exact List.not_mem_nil
    · exact fun hmem => hcolon ((List.mem_cons.mp hmem).resolve_left (by decide))
  have hlen := count_colons h.pieces_ne_nil fun p hp => (h.digits p hp).piece.1
  have hformat := isV6Format_spells h hcolon
  obtain ⟨pieces', hmerged, hnormal, hparse⟩ := tryParseFamily_spells h hne hscope
  have hpieces := fun p hp => (digits_of_merged h.digits hmerged p hp).piece
  constructor
  · intro hreads
    obtain ⟨h4, h6⟩ := hreads.family
    obtain ⟨ip, htry, -⟩ := hreads
    rw [IpAddress.tryParse_v6 h4 h6, hparse] at htry
    obtain ⟨b, hread, -⟩ := Option.map_eq_some_iff.mp htry
    have hne' : pieces' ≠ [] := by
      rintro rfl
      cases hread
    obtain ⟨gs', hspells, -⟩ := (inetPton6_colons_iff hne' hpieces b).mp hread
    have hcount := hformat.mp h6
    exact ⟨hcount, zerosTogether_of_spells h (by omega) hmerged hspells⟩
  · rintro ⟨hcount, hzeros⟩
    have hspells := spells_of_zerosTogether h hzeros hmerged hnormal
    have hread := (inetPton6_colons_iff hspells.pieces_ne_nil hpieces _).mpr ⟨gs, hspells, rfl⟩
    have h4 : IpAddress.isV4Format (colons pieces ++ suffix) = false := by
      have hnone : chr '.' ∉ colons pieces := not_mem_colons h.digits (by decide) (by decide)
      rw [IpAddress.isV4Format, List.count_append, List.count_eq_zero.mpr hnone,
        List.count_eq_zero.mpr hdot]
      rfl
    refine ⟨⟨.v6, toData (gs.flatMap groupBytes)⟩, ?_, rfl, toList_toData ?_⟩
    · rw [IpAddress.tryParse_v6 h4 (hformat.mpr hcount), hparse, hread]
      rfl
    · rw [length_flatMap_groupBytes, h.length]

/-- A text that `inet_pton` accepts is read as the same address exactly if it is readable; a scope
behind it changes nothing. -/
theorem readsAs_iff {t b suffix : Bytes} (h : inetPton6 t = some b)
    (hscope : suffix = [] ∨ ∃ scope, suffix = chr '%' :: scope ∧ chr ':' ∉ scope)
    (hdot : chr '.' ∉ suffix) : ReadsAs (t ++ suffix) b ↔ Readable t b := by
  by_cases htail : chr '.' ∈ t
  · exact iff_of_false (not_readsAs_of_dot h htail hdot) fun hread => hread.1 htail
  · obtain ⟨pieces, hne, hpieces, rfl⟩ := exists_pieces htail
    obtain ⟨gs, hspells, rfl⟩ := (inetPton6_colons_iff hne hpieces b).mp h
    have htext : colons pieces ≠ [] := fun hnil => by
      rw [hnil] at h
      cases h
    rw [readsAs_colons_iff hspells htext hscope hdot, Readable,
      groups_toData hspells.length hspells.lt]
    exact (and_iff_right htail).symm

/-- **Which texts of `inet_pton` are read by `try_parse`**, with their value: those without dots, with
seven colons at most and with the zero groups together, whether or not a scope follows.
Source: `IpAddress::try_parse`, `try_family`, `trim_v6_string` -/
theorem ipv6_text_read_iff (t b : Bytes) (h : inetPton6 t = some b) :
    (ReadsAs t b ↔ Readable t b) ∧
      ∀ scope, chr ':' ∉ scope → chr '.' ∉ scope → chr '%' ∉ scope →
        (ReadsAs (t ++ chr '%' :: scope) b ↔ Readable t b) := by
  refine ⟨?_, fun scope hcolon hdot _ => ?_⟩
  · have hplain : ReadsAs (t ++ []) b ↔ Readable t b := readsAs_iff h (.inl rfl) List.not_mem_nil
    rwa [List.append_nil] at hplain
  · refine readsAs_iff h (.inr ⟨scope, rfl, hcolon⟩) fun hmem => ?_
    exact hdot ((List.mem_cons.mp hmem).resolve_left (by decide))

/-- A link-local address is read. -/
theorem ipv6_text_read_local :
    inetPton6 (str "fe80::1") = some ([254, 128] ++ List.replicate 13 0 ++ [1]) ∧
      ReadsAs (str "fe80::1") ([254, 128] ++ List.replicate 13 0 ++ [1]) ∧
      ReadsAs (str "fe80::1" ++ chr '%' :: str "eth0") ([254, 128] ++ List.replicate 13 0 ++ [1]) := by
  have hread : inetPton6 (str "fe80::1") = some ([254, 128] ++ List.replicate 13 0 ++ [1]) := by decide
  have hreadable : Readable (str "fe80::1") ([254, 128] ++ List.replicate 13 0 ++ [1]) :=
    ⟨by decide, by decide, [0xfe80], 6, [1], by decide, by decide, by decide, by decide⟩
  obtain ⟨hplain, hscope⟩ := ipv6_text_read_iff _ _ hread
  exact ⟨hread, hplain.mpr hreadable,
    (hscope (str "eth0") (by decide) (by decide) (by decide)).mpr hreadable⟩

/-- Two zero groups apart from each other become two gaps. -/
theorem not_ipv6_text_read_apart :
    inetPton6 (str "1:0:2:3:0:4:5:6") = some [0, 1, 0, 0, 0, 2, 0, 3, 0, 0, 0, 4, 0, 5, 0, 6] ∧
      ¬ReadsAs (str "1:0:2:3:0:4:5:6") [0, 1, 0, 0, 0, 2, 0, 3, 0, 0, 0, 4, 0, 5, 0, 6] := by
  have hnone : IpAddress.tryParse (str "1:0:2:3:0:4:5:6") = none := by decide
  refine ⟨by decide, ?_⟩
  rintro ⟨ip, hparse, -⟩
  rw [hnone] at hparse
  cases hparse

end SocialNetwork.Net
