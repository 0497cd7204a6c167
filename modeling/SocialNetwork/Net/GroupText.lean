import SocialNetwork.Net.AddressText
import SocialNetwork.Net.Ipv6Tokens

/-!
# IPv6 texts of groups

`groupsToString` in closed form (`spelled`), and the exact condition (`Plain`) under which
`tryParse` reads the text back. A group below `0x1000` is padded with blanks; only the first group
of a text is trimmed, so any other such group makes the text unreadable. A text that starts with
the group `0` is unreadable too: `trim_v6_string` takes the digit away and leaves a single colon.
-/

namespace SocialNetwork.Net

open Foundation Helpers

/-! ## The printed text in closed form -/

/-- `std::format("{:4x}", g)`. -/
def padGroup (g : Nat) : Bytes := padLeft 4 (hex g)

/-- Groups after the first one. -/
def padGroups (gs : List Nat) : Bytes := gs.flatMap fun g => chr ':' :: padGroup g

/-- Groups from the start of a text or after `::`. -/
def padJoin : List Nat → Bytes
  | [] => []
  | g :: gs => padGroup g ++ padGroups gs

/-- The groups before and after the first run of two or more zero groups, if there is one. -/
def runSplit : List Nat → Option (List Nat × List Nat)
  | [] => none
  | [_] => none
  | g :: h :: gs =>
      if g = 0 ∧ h = 0 then some ([], gs.dropWhile (· = 0))
      else (runSplit (h :: gs)).map fun split => (g :: split.1, split.2)

/-- The text of some groups: the first run of zero groups is compressed to `::`. -/
def spelled (gs : List Nat) : Bytes :=
  match runSplit gs with
  | none => padJoin gs
  | some (pre, post) => padJoin pre ++ str "::" ++ padJoin post

/-- Groups of a text that starts at the word `i`. -/
def lead (i : Nat) (gs : List Nat) : Bytes := if i > 0 then padGroups gs else padJoin gs

/-- The first group of such a text has a colon in front, unless the text starts with the word 0. -/
theorem lead_cons (i g : Nat) (gs : List Nat) :
    lead i (g :: gs) = (if i > 0 then str ":" else []) ++ padGroup g ++ padGroups gs := by
  unfold lead
  split <;> rfl

/-- A group is zero in either byte order. -/
theorem swap16_eq_zero {w : Nat} (hw : w < 65536) : swap16 w = 0 ↔ w = 0 := by
  unfold swap16
  omega

/-- A run of zero words is a run of zero groups. -/
theorem dropWhile_map_swap16 {ws : List Nat} (hws : ∀ w ∈ ws, w < 65536) :
    (ws.map swap16).dropWhile (· = 0) = (ws.dropWhile (· = 0)).map swap16 := by
  induction ws with
  | nil => rfl
  | cons w ws ih =>
      rw [List.map_cons, List.dropWhile_cons, List.dropWhile_cons,
        ih fun x hx => hws x (List.mem_cons_of_mem _ hx)]
      by_cases hw : w = 0
      · simp [hw, swap16]
      · simp [hw, (swap16_eq_zero (hws w List.mem_cons_self)).not.mpr hw]

/-- After `::` every word is printed. -/
theorem groupsToString_true (ws : List Nat) {fuel i : Nat} (hfuel : ws.length ≤ fuel)
    (hi : i > 0) : IpAddress.groupsToString fuel i true ws = padGroups (ws.map swap16) := by
  induction ws generalizing fuel i with
  | nil => cases fuel <;> rfl
  | cons w ws ih =>
      cases fuel with
      | zero => simp at hfuel
      | succ fuel =>
          simp only [IpAddress.groupsToString, Bool.not_true, Bool.false_and, Bool.false_eq_true,
            if_false, Nat.not_lt_zero, gt_iff_lt]
          rw [if_pos hi, ih (by simpa using hfuel) (Nat.succ_pos i)]
          rfl

/-- **The loop of `to_string` in closed form.** -/
theorem groupsToString_false (ws : List Nat) (hws : ∀ w ∈ ws, w < 65536) (fuel i : Nat)
    (hfuel : ws.length ≤ fuel) :
    IpAddress.groupsToString fuel i false ws =
      match runSplit (ws.map swap16) with
      | none => lead i (ws.map swap16)
      | some (pre, post) => lead i pre ++ str "::" ++ padJoin post := by
  induction ws generalizing fuel i with
  | nil => cases fuel <;> simp [IpAddress.groupsToString, runSplit, lead, padGroups, padJoin]
  | cons w ws ih =>
      obtain ⟨fuel, rfl⟩ : ∃ n, fuel = n + 1 := ⟨fuel - 1, by simp at hfuel; omega⟩
      cases ws with
      | nil =>
          have hone : ¬(if (!false && decide (w = 0)) = true then
              ([w].takeWhile (· = 0)).length else 0) > 1 := by
            split
            · simp [List.takeWhile_cons]
              split <;> simp
            · simp
          rw [IpAddress.groupsToString, if_neg hone]
          cases fuel <;> simp [IpAddress.groupsToString, runSplit, lead_cons, padGroups, padGroup]
      | cons v rest =>
          simp only [List.map_cons, runSplit, swap16_eq_zero (hws w (by simp)),
            swap16_eq_zero (hws v (by simp))]
          by_cases hrun : w = 0 ∧ v = 0
          · obtain ⟨rfl, rfl⟩ := hrun
            have hdrop : (0 :: 0 :: rest).drop ((0 :: 0 :: rest).takeWhile (· = 0)).length =
                rest.dropWhile (· = 0) := by
              conv_lhs => rw [← List.takeWhile_append_dropWhile (p := (· = 0)) (l := 0 :: 0 :: rest)]
              rw [List.drop_left' (by simp)]
              simp
            have hrest : ∀ x ∈ rest, x < 65536 := fun x hx => hws x (by simp [hx])
            have hlen : (rest.dropWhile (· = 0)).length ≤ rest.length :=
              (List.dropWhile_suffix _).length_le
            simp only [List.length_cons] at hfuel
            rw [IpAddress.groupsToString]
            simp only [Bool.not_false, Bool.true_and, decide_true, if_true, hdrop, and_self,
              dropWhile_map_swap16 hrest]
            rw [if_pos (by simp)]
            cases hpost : rest.dropWhile (· = 0) with
            | nil => simp [lead, padGroups, padJoin]; rfl
            | cons u us =>
                rw [hpost, List.length_cons] at hlen
                simp only
                rw [groupsToString_true us (by omega) (by omega)]
                simp [lead, padGroups, padJoin]
                rfl
          · have hone : ¬(if (!false && decide (w = 0)) = true then
                ((w :: v :: rest).takeWhile (· = 0)).length else 0) > 1 := by
              by_cases hw : w = 0
              · have hv : v ≠ 0 := fun hv => hrun ⟨hw, hv⟩
                simp [hw, hv]
              · simp [hw]
            have hih := ih (fun x hx => hws x (List.mem_cons_of_mem _ hx)) fuel (i + 1)
              (by simpa using hfuel)
            rw [IpAddress.groupsToString, if_neg hone, hih, if_neg hrun]
            simp only [List.map_cons]
            cases runSplit (swap16 v :: rest.map swap16) with
            | none =>
                simp only [Option.map_none, lead_cons]
                rfl
            | some split =>
                simp only [Option.map_some, lead_cons]
                simp [lead, padGroup]

/-- What the split cuts apart. -/
theorem runSplit_some {gs pre post : List Nat} (h : runSplit gs = some (pre, post)) :
    ∃ k, 2 ≤ k ∧ gs = pre ++ List.replicate k 0 ++ post := by
  induction gs generalizing pre with
  | nil => cases h
  | cons g gs ih =>
      cases gs with
      | nil => cases h
      | cons v rest =>
          rw [runSplit] at h
          split at h
          · rename_i hzero
            obtain ⟨rfl, rfl⟩ := hzero
            simp only [Option.some.injEq, Prod.mk.injEq] at h
            obtain ⟨rfl, rfl⟩ := h
            refine ⟨(rest.takeWhile (· = 0)).length + 2, by omega, ?_⟩
            have hrun : rest.takeWhile (· = 0) =
                List.replicate (rest.takeWhile (· = 0)).length 0 := by
              refine List.eq_replicate_iff.mpr ⟨rfl, fun x hx => ?_⟩
              simpa using List.mem_takeWhile_imp hx
            rw [List.nil_append, Nat.add_comm, List.replicate_add, ← hrun, List.append_assoc,
              List.takeWhile_append_dropWhile]
            rfl
          · obtain ⟨split, hsplit, heq⟩ := Option.map_eq_some_iff.mp h
            simp only [Prod.mk.injEq] at heq
            obtain ⟨rfl, rfl⟩ := heq
            obtain ⟨k, hk, heq⟩ := ih hsplit
            exact ⟨k, hk, by rw [heq]; rfl⟩

/-- A lone zero group before the run is followed by a non-zero one. -/
theorem runSplit_ne_singleton {gs post : List Nat} (h : runSplit gs = some ([0], post)) : False := by
  cases gs with
  | nil => cases h
  | cons g gs =>
      cases gs with
      | nil => cases h
      | cons v rest =>
          rw [runSplit] at h
          split at h
          · simp at h
          · rename_i hzero
            obtain ⟨split, hsplit, heq⟩ := Option.map_eq_some_iff.mp h
            simp only [Prod.mk.injEq, List.cons.injEq] at heq
            obtain ⟨⟨rfl, hnil⟩, rfl⟩ := heq
            obtain ⟨k, hk, heq⟩ := runSplit_some hsplit
            obtain ⟨k, rfl⟩ : ∃ n, k = n + 2 := ⟨k - 2, by omega⟩
            rw [hnil, List.nil_append, List.replicate_succ, List.cons_append] at heq
            exact hzero ⟨rfl, (List.cons.inj heq).1⟩

/-! ## Trimming the text -/

/-- The text of some groups without the blanks in front. -/
def tightJoin : List Nat → Bytes
  | [] => []
  | g :: gs => hex g ++ padGroups gs

/-- The text of some groups after `trim`. -/
def tight (gs : List Nat) : Bytes :=
  match runSplit gs with
  | none => tightJoin gs
  | some (pre, post) => tightJoin pre ++ str "::" ++ padJoin post

/-- A hexadecimal digit is no white space. -/
theorem hexByte_not_space {d : Nat} (h : d < 16) : isSpace (hexByte d) = false := by
  interval_cases d <;> decide

/-- Groups end in a digit. -/
theorem padGroups_concat (gs : List Nat) (g : Nat) :
    ∃ l, padGroups (gs ++ [g]) = l ++ hex g := by
  refine ⟨padGroups gs ++ chr ':' :: List.replicate (4 - (hex g).length) (chr ' '), ?_⟩
  simp [padGroups, padGroup, padLeft]

/-- The text of some groups ends in the digits of the last one. -/
theorem padJoin_ends {gs : List Nat} (h : gs ≠ []) : ∃ l g, padJoin gs = l ++ hex g := by
  cases gs with
  | nil => exact absurd rfl h
  | cons g gs =>
      rcases List.eq_nil_or_concat gs with rfl | ⟨gs, g', rfl⟩
      · exact ⟨List.replicate (4 - (hex g).length) (chr ' '), g, by simp [padJoin, padGroups, padGroup,
          padLeft]⟩
      · obtain ⟨l, hl⟩ := padGroups_concat gs g'
        exact ⟨padGroup g ++ l, g', by rw [padJoin, List.concat_eq_append, hl, List.append_assoc]⟩

/-- A text that ends in the digits of a group does not end in white space: `trim` keeps its end. -/
theorem getLast?_append_hex (l : Bytes) (g : Nat) {c : UInt8}
    (h : (l ++ hex g).getLast? = some c) : isSpace c = false := by
  rw [List.getLast?_append_of_ne_nil _ (hex_ne_nil g)] at h
  obtain ⟨d, hd, rfl⟩ := mem_hex (List.mem_of_getLast? h)
  exact hexByte_not_space hd

/-- A text of groups does not end in white space. -/
theorem spelled_ends {gs : List Nat} (h : gs ≠ []) {c : UInt8}
    (hc : (spelled gs).getLast? = some c) : isSpace c = false := by
  unfold spelled at hc
  split at hc
  · obtain ⟨l, g, hl⟩ := padJoin_ends h
    rw [hl] at hc
    exact getLast?_append_hex l g hc
  · rename_i pre post _
    cases post with
    | nil =>
        rw [padJoin, List.append_nil, List.getLast?_append_of_ne_nil _ (by decide)] at hc
        obtain rfl : chr ':' = c := Option.some.inj hc
        decide
    | cons g gs =>
        obtain ⟨l, g', hl⟩ := padJoin_ends (List.cons_ne_nil g gs)
        rw [hl, ← List.append_assoc] at hc
        exact getLast?_append_hex _ g' hc

/-- White space in front of a group is dropped. -/
theorem dropWhile_padGroup (g : Nat) (rest : Bytes) :
    (padGroup g ++ rest).dropWhile isSpace = hex g ++ rest := by
  rw [padGroup, padLeft, List.append_assoc, List.dropWhile_append_of_pos fun c hc => by
    rw [List.eq_of_mem_replicate hc]
    decide]
  cases hhex : hex g with
  | nil => exact absurd hhex (hex_ne_nil g)
  | cons c cs =>
      obtain ⟨d, hd, rfl⟩ := mem_hex (show c ∈ hex g by simp [hhex])
      simp [hexByte_not_space hd]

/-- **Trimming removes the padding of the first group and nothing else.** -/
theorem trim_spelled {gs : List Nat} (h : gs ≠ []) : trim (spelled gs) = tight gs := by
  rw [trim_eq_dropWhile fun c => spelled_ends h]
  unfold spelled tight
  split
  · cases gs with
    | nil => exact absurd rfl h
    | cons g gs => exact dropWhile_padGroup g _
  · rename_i pre post _
    cases pre with
    | nil =>
        change (chr ':' :: chr ':' :: padJoin post).dropWhile isSpace = _
        rw [List.dropWhile_cons_of_neg (by decide)]
        rfl
    | cons g pre =>
        simp only [padJoin, tightJoin, List.append_assoc]
        exact dropWhile_padGroup g _

/-! ## The family of the text -/

/-- Characters of a text of groups. -/
theorem mem_spelled {gs : List Nat} {c : UInt8} (h : c ∈ spelled gs) :
    c = chr ' ' ∨ c = chr ':' ∨ ∃ d < 16, c = hexByte d := by
  have hpad : ∀ g, c ∈ padGroup g → c = chr ' ' ∨ c = chr ':' ∨ ∃ d < 16, c = hexByte d := by
    intro g hg
    rcases List.mem_append.mp hg with hg | hg
    · exact .inl (List.eq_of_mem_replicate hg)
    · exact .inr (.inr (mem_hex hg))
  have hpads : ∀ gs, c ∈ padGroups gs → c = chr ' ' ∨ c = chr ':' ∨ ∃ d < 16, c = hexByte d := by
    intro gs hgs
    obtain ⟨g, -, hg⟩ := List.mem_flatMap.mp hgs
    rcases List.mem_cons.mp hg with rfl | hg
    · exact .inr (.inl rfl)
    · exact hpad g hg
  have hjoin : ∀ gs, c ∈ padJoin gs → c = chr ' ' ∨ c = chr ':' ∨ ∃ d < 16, c = hexByte d := by
    intro gs hgs
    cases gs with
    | nil => cases hgs
    | cons g gs => exact (List.mem_append.mp hgs).elim (hpad g) (hpads gs)
  unfold spelled at h
  split at h
  · exact hjoin _ h
  · rcases List.mem_append.mp h with h | h
    · rcases List.mem_append.mp h with h | h
      · exact hjoin _ h
      · exact .inr (.inl (by simpa [str] using h))
    · exact hjoin _ h

/-- Each group after the first one has its colon. -/
theorem count_colon_padGroups (gs : List Nat) : (padGroups gs).count (chr ':') = gs.length := by
  have hpad : ∀ g, (padGroup g).count (chr ':') = 0 := fun g => List.count_eq_zero.mpr fun h => by
    rcases List.mem_append.mp h with h | h
    · exact absurd (List.eq_of_mem_replicate h) (by decide)
    · exact not_mem_hex (fun d hd => hexByte_ne_colon hd) g h
  induction gs with
  | nil => rfl
  | cons g gs ih =>
      rw [padGroups, List.flatMap_cons, ← padGroups, List.count_append, ih, List.count_cons_self, hpad,
        List.length_cons]
      omega

/-- Between some groups there is one colon less than there are groups. -/
theorem count_colon_padJoin (gs : List Nat) : (padJoin gs).count (chr ':') = gs.length - 1 := by
  cases gs with
  | nil => rfl
  | cons g gs =>
      have hpad : (padGroup g).count (chr ':') = 0 := List.count_eq_zero.mpr fun h => by
        rcases List.mem_append.mp h with h | h
        · exact absurd (List.eq_of_mem_replicate h) (by decide)
        · exact not_mem_hex (fun d hd => hexByte_ne_colon hd) g h
      rw [padJoin, List.count_append, count_colon_padGroups, hpad, List.length_cons]
      omega

/-- A text of eight groups is taken for an IPv6 address. -/
theorem tryFamily_spelled {gs : List Nat} (hlen : gs.length = 8) :
    IpAddress.tryFamily (spelled gs) = some .v6 := by
  have hdot : (spelled gs).count (chr '.') = 0 := List.count_eq_zero.mpr fun h => by
    rcases mem_spelled h with h | h | ⟨d, hd, h⟩
    · exact absurd h (by decide)
    · exact absurd h (by decide)
    · interval_cases d <;> exact absurd h (by decide)
  have hformat : IpAddress.isV6Format (spelled gs) = true := by
    unfold spelled
    cases hsplit : runSplit gs with
    | none => simp [IpAddress.isV6Format, count_colon_padJoin, hlen]
    | some split =>
        obtain ⟨pre, post⟩ := split
        obtain ⟨k, hk, heq⟩ := runSplit_some hsplit
        have htotal := congrArg List.length heq
        simp only [hlen, List.length_append, List.length_replicate] at htotal
        have hinfix : str "::" <:+: padJoin pre ++ str "::" ++ padJoin post :=
          ⟨padJoin pre, padJoin post, rfl⟩
        have hcolons : (str "::").count (chr ':') = 2 := by decide
        simp only [IpAddress.isV6Format, List.count_append, count_colon_padJoin, hcolons, hinfix,
          decide_true, Bool.and_true, Bool.or_eq_true, decide_eq_true_eq]
        omega
  simp [IpAddress.tryFamily, IpAddress.isV4Format, hdot, hformat]

/-! ## What `trim_v6_string` does to the text -/

/-- Nothing for `trim_v6_string` to replace. -/
def Tidy (s : Bytes) : Prop := ¬str ":0" <:+: s ∧ ¬str ":::" <:+: s

/-- A character that is no colon leaves a text tidy. -/
theorem Tidy.cons_of_ne {c : UInt8} {s : Bytes} (hc : c ≠ chr ':') (h : Tidy s) :
    Tidy (c :: s) := by
  have hne : chr ':' ≠ c := Ne.symm hc
  constructor
  · intro hin
    rcases List.infix_cons_iff.mp hin with hp | hin
    · exact hne (List.cons_prefix_cons.mp hp).1
    · exact h.1 hin
  · intro hin
    rcases List.infix_cons_iff.mp hin with hp | hin
    · exact hne (List.cons_prefix_cons.mp hp).1
    · exact h.2 hin

/-- One or two colons in front of a digit other than `0`. -/
theorem Tidy.colon {c : UInt8} {s : Bytes} (hc : c ≠ chr ':') (hzero : c ≠ chr '0')
    (h : Tidy (c :: s)) : Tidy (chr ':' :: c :: s) ∧ Tidy (chr ':' :: chr ':' :: c :: s) := by
  have hne : chr ':' ≠ c := Ne.symm hc
  have hne' : chr '0' ≠ c := Ne.symm hzero
  have hcolon : chr '0' ≠ chr ':' := by decide
  have hone : Tidy (chr ':' :: c :: s) := by
    constructor
    · intro hin
      rcases List.infix_cons_iff.mp hin with hp | hin
      · exact hne' (List.cons_prefix_cons.mp (List.cons_prefix_cons.mp hp).2).1
      · exact h.1 hin
    · intro hin
      rcases List.infix_cons_iff.mp hin with hp | hin
      · exact hne (List.cons_prefix_cons.mp (List.cons_prefix_cons.mp hp).2).1
      · exact h.2 hin
  refine ⟨hone, fun hin => ?_, fun hin => ?_⟩
  · rcases List.infix_cons_iff.mp hin with hp | hin
    · exact hcolon (List.cons_prefix_cons.mp (List.cons_prefix_cons.mp hp).2).1
    · exact hone.1 hin
  · rcases List.infix_cons_iff.mp hin with hp | hin
    · exact hne (List.cons_prefix_cons.mp (List.cons_prefix_cons.mp
        (List.cons_prefix_cons.mp hp).2).2).1
    · exact hone.2 hin

/-- A text without colons in front of a tidy one leaves it tidy. -/
theorem Tidy.append {l s : Bytes} (hl : chr ':' ∉ l) (h : Tidy s) : Tidy (l ++ s) := by
  induction l with
  | nil => exact h
  | cons c l ih =>
      exact (ih fun hm => hl (List.mem_cons_of_mem _ hm)).cons_of_ne
        fun hc => hl (hc ▸ List.mem_cons_self)

/-- The digits of a group are no colons. -/
theorem colon_not_mem_hex (g : Nat) : chr ':' ∉ hex g :=
  not_mem_hex (fun _ hd => hexByte_ne_colon hd) g

/-- Groups that are not zero leave the text after them tidy. -/
theorem Tidy.groupsText {gs : List Nat} (hgs : ∀ g ∈ gs, g ≠ 0) {s : Bytes} (h : Tidy s) :
    Tidy (groupsText gs ++ s) := by
  induction gs with
  | nil => exact h
  | cons g gs ih =>
      obtain ⟨d, cs, hpos, hd, hhex⟩ := head_hex (hgs g List.mem_cons_self)
      have htail := (ih fun x hx => hgs x (List.mem_cons_of_mem _ hx)).append (colon_not_mem_hex g)
      rw [hhex, List.cons_append] at htail
      rw [Net.groupsText, List.flatMap_cons, ← Net.groupsText, List.cons_append, List.cons_append,
        List.append_assoc, hhex, List.cons_append]
      exact (Tidy.colon (hexByte_ne_colon hd) (by interval_cases d <;> decide) htail).1

/-- So do they when the first of them, which may be zero, has no colon in front. -/
theorem Tidy.joinHex {gs : List Nat} (hgs : ∀ g ∈ gs.tail, g ≠ 0) {s : Bytes} (h : Tidy s) :
    Tidy (joinHex gs ++ s) := by
  cases gs with
  | nil => exact h
  | cons g gs =>
      rw [Net.joinHex, List.append_assoc]
      exact (Tidy.groupsText hgs h).append (colon_not_mem_hex g)

/-- The empty text is tidy. -/
theorem Tidy.nil : Tidy [] := ⟨by decide, by decide⟩

/-- `::` and groups after it. -/
theorem Tidy.double {gs : List Nat} (hgs : ∀ g ∈ gs, g ≠ 0) : Tidy (str "::" ++ Net.joinHex gs) := by
  cases gs with
  | nil => exact ⟨by decide, by decide⟩
  | cons g gs =>
      obtain ⟨d, cs, hpos, hd, hhex⟩ := head_hex (hgs g List.mem_cons_self)
      have hjoin : Tidy (Net.joinHex (g :: gs) ++ []) := by
        refine Tidy.joinHex ?_ Tidy.nil
        exact fun x hx => hgs x (List.mem_cons_of_mem g hx)
      rw [List.append_nil, Net.joinHex, hhex, List.cons_append] at hjoin
      rw [Net.joinHex, hhex, List.cons_append]
      exact (Tidy.colon (hexByte_ne_colon hd) (by interval_cases d <;> decide) hjoin).2

/-- `replace_in_place`, repeated as `trim_v6_string` does, leaves a text alone in which the pattern
does not occur. -/
theorem replaceWhile_of_not_infix {src dst s : Bytes} (h : ¬src <:+: s) (fuel : Nat) :
    IpAddress.replaceWhile src dst fuel s = s := by
  cases fuel with
  | zero => rfl
  | succ fuel => rw [IpAddress.replaceWhile, if_neg h]

/-- A tidy text without a leading zero is left alone. -/
theorem trimV6String_of_tidy {s : Bytes} (h : Tidy s) (hzero : s.head? ≠ some (chr '0')) :
    IpAddress.trimV6String s = s := by
  unfold IpAddress.trimV6String
  split
  · rfl
  · have hdrop : s.dropWhile (· = chr '0') = s := by
      cases s with
      | nil => rfl
      | cons c s =>
          have hc : c ≠ chr '0' := fun hc => hzero (by rw [hc]; rfl)
          rw [List.dropWhile_cons_of_neg (by simpa using hc)]
    simp only [hdrop, replaceWhile_of_not_infix h.1, replaceWhile_of_not_infix h.2]

/-- The repeated replacement keeps the characters that do not occur in the pattern. -/
theorem mem_replaceWhile {src dst : Bytes} {c : UInt8} (hc : c ∉ src) (fuel : Nat) {s : Bytes}
    (hs : c ∈ s) : c ∈ IpAddress.replaceWhile src dst fuel s := by
  induction fuel generalizing s with
  | zero => exact hs
  | succ fuel ih =>
      rw [IpAddress.replaceWhile]
      split
      · exact ih (mem_replaceInPlace hc hs)
      · exact hs

/-- `trim_v6_string` takes no blank away. -/
theorem blank_mem_trimV6String {s : Bytes} (h : chr ' ' ∈ s) :
    chr ' ' ∈ IpAddress.trimV6String s := by
  unfold IpAddress.trimV6String
  split
  · exact h
  · have hdrop : chr ' ' ∈ s.dropWhile (· = chr '0') := by
      rw [← List.takeWhile_append_dropWhile (p := (· = chr '0')) (l := s)] at h
      refine (List.mem_append.mp h).resolve_left fun htake => ?_
      exact absurd (List.mem_takeWhile_imp htake) (by decide)
    exact mem_replaceWhile (by decide) _ (mem_replaceWhile (by decide) _ hdrop)

/-- `trim_v6_string` brings in nothing but colons. -/
theorem mem_of_mem_trimV6String {s : Bytes} {c : UInt8} (hc : c ≠ chr ':')
    (h : c ∈ IpAddress.trimV6String s) : c ∈ s := by
  have hwhile : ∀ (src dst : Bytes), c ∉ dst → ∀ fuel s,
      c ∈ IpAddress.replaceWhile src dst fuel s → c ∈ s := by
    intro src dst hdst fuel
    induction fuel with
    | zero => exact fun s h => h
    | succ fuel ih =>
        intro s h
        rw [IpAddress.replaceWhile] at h
        split at h
        · exact (mem_of_mem_replaceInPlace (ih _ h)).resolve_right hdst
        · exact h
  have hone : c ∉ str ":" := by simpa [str] using hc
  have htwo : c ∉ str "::" := by simpa [str] using hc
  unfold IpAddress.trimV6String at h
  split at h
  · exact h
  · exact (List.dropWhile_suffix _).subset (hwhile _ _ hone _ _ (hwhile _ _ htwo _ _ h))

/-! ### One `::` -/

/-- A character that is no colon does not count for `::`. -/
theorem countDoubleColons_cons {c : UInt8} (hc : c ≠ chr ':') (s : Bytes) :
    IpAddress.countDoubleColons (c :: s) = IpAddress.countDoubleColons s := by
  cases s with
  | nil => rfl
  | cons b s => rw [IpAddress.countDoubleColons, if_neg fun h => hc h.1]

/-- A text without colons does not count for `::`. -/
theorem countDoubleColons_append {l : Bytes} (hl : chr ':' ∉ l) (s : Bytes) :
    IpAddress.countDoubleColons (l ++ s) = IpAddress.countDoubleColons s := by
  induction l with
  | nil => rfl
  | cons c l ih =>
      rw [List.cons_append, countDoubleColons_cons fun hc => hl (hc ▸ List.mem_cons_self)]
      exact ih fun hm => hl (List.mem_cons_of_mem _ hm)

/-- Groups with single colons in front of them do not count for `::`. -/
theorem countDoubleColons_groupsText (gs : List Nat) (s : Bytes) :
    IpAddress.countDoubleColons (groupsText gs ++ s) = IpAddress.countDoubleColons s := by
  induction gs with
  | nil => rfl
  | cons g gs ih =>
      rw [groupsText, List.flatMap_cons, ← groupsText, List.cons_append, List.cons_append,
        List.append_assoc]
      cases hhex : hex g with
      | nil => exact absurd hhex (hex_ne_nil g)
      | cons c cs =>
          have hc : c ≠ chr ':' := fun he => colon_not_mem_hex g (by simp [hhex, he])
          rw [List.cons_append, IpAddress.countDoubleColons, if_neg fun h => hc h.2,
            ← List.cons_append, ← hhex, countDoubleColons_append (colon_not_mem_hex g), ih]

/-- Groups alone have no `::`. -/
theorem countDoubleColons_joinHex (gs : List Nat) :
    IpAddress.countDoubleColons (joinHex gs) = 0 := by
  cases gs with
  | nil => rfl
  | cons g gs =>
      rw [joinHex, countDoubleColons_append (colon_not_mem_hex g), ← List.append_nil (groupsText gs),
        countDoubleColons_groupsText]
      rfl

/-! ## The exact condition -/

/-- The groups that follow another group or `::` in the text. -/
def innerGroups (gs : List Nat) : List Nat :=
  match runSplit gs with
  | none => gs.tail
  | some (pre, post) => pre.tail ++ post

/-- The group a text starts with; `none` where it starts with `::`. -/
def firstGroup (gs : List Nat) : Option Nat :=
  match runSplit gs with
  | none => gs.head?
  | some (pre, _) => pre.head?

/-- The text of the groups needs no padding where it cannot be trimmed, and does not start with the
group `0`. -/
def Plain (gs : List Nat) : Prop := firstGroup gs ≠ some 0 ∧ ∀ g ∈ innerGroups gs, 0x1000 ≤ g

instance (gs : List Nat) : Decidable (Plain gs) := inferInstanceAs (Decidable (_ ∧ _))

/-- A group of four digits is not padded. -/
theorem padGroup_eq_hex {g : Nat} (h : 0x1000 ≤ g) (h' : g < 16 ^ 4) : padGroup g = hex g := by
  simp [padGroup, padLeft, length_hex h h']

/-- Groups of four digits are printed without blanks. -/
theorem padGroups_eq_groupsText {gs : List Nat} (h : ∀ g ∈ gs, 0x1000 ≤ g ∧ g < 16 ^ 4) :
    padGroups gs = groupsText gs := by
  induction gs with
  | nil => rfl
  | cons g gs ih =>
      obtain ⟨hg, hg'⟩ := h g List.mem_cons_self
      rw [padGroups, groupsText, List.flatMap_cons, List.flatMap_cons, ← padGroups, ← groupsText,
        ih fun x hx => h x (List.mem_cons_of_mem _ hx), padGroup_eq_hex hg hg']

/-- After `trim` a text whose other groups have four digits has no blanks. -/
theorem tightJoin_eq_joinHex {gs : List Nat} (h : ∀ g ∈ gs.tail, 0x1000 ≤ g ∧ g < 16 ^ 4) :
    tightJoin gs = joinHex gs := by
  cases gs with
  | nil => rfl
  | cons g gs => exact congrArg (hex g ++ ·) (padGroups_eq_groupsText h)

/-- Before `trim` a text whose groups all have four digits has no blanks. -/
theorem padJoin_eq_joinHex {gs : List Nat} (h : ∀ g ∈ gs, 0x1000 ≤ g ∧ g < 16 ^ 4) :
    padJoin gs = joinHex gs := by
  cases gs with
  | nil => rfl
  | cons g gs =>
      obtain ⟨hg, hg'⟩ := h g List.mem_cons_self
      rw [padJoin, joinHex, padGroup_eq_hex hg hg',
        padGroups_eq_groupsText fun x hx => h x (List.mem_cons_of_mem _ hx)]

/-- A group below `0x1000` is padded. -/
theorem blank_mem_padGroup {g : Nat} (h : g < 0x1000) : chr ' ' ∈ padGroup g := by
  have hlen : (hex g).length ≤ 3 := length_hex_le (by norm_num) h
  refine List.mem_append_left _ (List.mem_replicate.mpr ⟨?_, rfl⟩)
  omega

/-- A shorter group among those after a colon brings a blank. -/
theorem blank_mem_padGroups {gs : List Nat} {g : Nat} (hg : g ∈ gs) (h : g < 0x1000) :
    chr ' ' ∈ padGroups gs :=
  List.mem_flatMap.mpr ⟨g, hg, List.mem_cons_of_mem _ (blank_mem_padGroup h)⟩

/-- Before `trim` a shorter group anywhere brings a blank. -/
theorem blank_mem_padJoin {gs : List Nat} {g : Nat} (hg : g ∈ gs) (h : g < 0x1000) :
    chr ' ' ∈ padJoin gs := by
  cases gs with
  | nil => cases hg
  | cons x gs =>
      rw [padJoin]
      rcases List.mem_cons.mp hg with rfl | hg
      · exact List.mem_append_left _ (blank_mem_padGroup h)
      · exact List.mem_append_right _ (blank_mem_padGroups hg h)

/-- After `trim` a shorter group anywhere but at the start brings a blank. -/
theorem blank_mem_tightJoin {gs : List Nat} {g : Nat} (hg : g ∈ gs.tail) (h : g < 0x1000) :
    chr ' ' ∈ tightJoin gs := by
  cases gs with
  | nil => cases hg
  | cons x gs => exact List.mem_append_right _ (blank_mem_padGroups hg h)

/-- A padded inner group leaves a blank in the trimmed text. -/
theorem blank_mem_tight {gs : List Nat} {g : Nat} (hg : g ∈ innerGroups gs) (h : g < 0x1000) :
    chr ' ' ∈ tight gs := by
  unfold innerGroups at hg
  unfold tight
  split
  · rename_i hsplit
    rw [hsplit] at hg
    exact blank_mem_tightJoin hg h
  · rename_i pre post hsplit
    rw [hsplit] at hg
    rcases List.mem_append.mp hg with hg | hg
    · exact List.mem_append_left _ (List.mem_append_left _ (blank_mem_tightJoin hg h))
    · exact List.mem_append_right _ (blank_mem_padJoin hg h)

/-- A text that is not plain contains a blank. -/
theorem blank_mem_spelled {gs : List Nat} (h : ¬Plain gs) : chr ' ' ∈ spelled gs := by
  have hzero : chr ' ' ∈ padGroup 0 := blank_mem_padGroup (by norm_num)
  by_cases hinner : ∀ g ∈ innerGroups gs, 0x1000 ≤ g
  · have hfirst : firstGroup gs = some 0 := by
      by_contra hne
      exact h ⟨hne, hinner⟩
    unfold firstGroup at hfirst
    unfold spelled
    split
    · rename_i hsplit
      rw [hsplit] at hfirst
      cases gs with
      | nil => cases hfirst
      | cons g gs =>
          obtain rfl : g = 0 := Option.some.inj hfirst
          exact List.mem_append_left _ hzero
    · rename_i pre post hsplit
      rw [hsplit] at hfirst
      cases pre with
      | nil => cases hfirst
      | cons g pre =>
          obtain rfl : g = 0 := Option.some.inj hfirst
          exact List.mem_append_left _ (List.mem_append_left _ (List.mem_append_left _ hzero))
  · push Not at hinner
    obtain ⟨g, hg, hlt⟩ := hinner
    unfold innerGroups at hg
    unfold spelled
    split
    · rename_i hsplit
      rw [hsplit] at hg
      exact blank_mem_padJoin (List.mem_of_mem_tail hg) hlt
    · rename_i pre post hsplit
      rw [hsplit] at hg
      rcases List.mem_append.mp hg with hg | hg
      · exact List.mem_append_left _ (List.mem_append_left _
          (blank_mem_padJoin (List.mem_of_mem_tail hg) hlt))
      · exact List.mem_append_right _ (blank_mem_padJoin hg hlt)

/-! ## Reading the text back -/

/-- The text of groups without padding. -/
def compact (gs : List Nat) : Bytes :=
  match runSplit gs with
  | none => joinHex gs
  | some (pre, post) => joinHex pre ++ str "::" ++ joinHex post

/-- The groups inside the text are groups of the address. -/
theorem innerGroups_subset {gs : List Nat} {g : Nat} (h : g ∈ innerGroups gs) : g ∈ gs := by
  unfold innerGroups at h
  split at h
  · exact List.mem_of_mem_tail h
  · rename_i hsplit
    obtain ⟨k, -, heq⟩ := runSplit_some hsplit
    rw [heq]
    rcases List.mem_append.mp h with h | h
    · exact List.mem_append_left _ (List.mem_append_left _ (List.mem_of_mem_tail h))
    · exact List.mem_append_right _ h

/-- Without padded inner groups the trimmed text is compact. -/
theorem tight_eq_compact {gs : List Nat} (hinner : ∀ g ∈ innerGroups gs, 0x1000 ≤ g)
    (hgs : ∀ g ∈ gs, g < 16 ^ 4) : tight gs = compact gs := by
  have hboth : ∀ g ∈ innerGroups gs, 0x1000 ≤ g ∧ g < 16 ^ 4 := fun g hg =>
    ⟨hinner g hg, hgs g (innerGroups_subset hg)⟩
  unfold innerGroups at hboth
  unfold tight compact
  split
  · rename_i hsplit
    rw [hsplit] at hboth
    exact tightJoin_eq_joinHex hboth
  · rename_i pre post hsplit
    rw [hsplit] at hboth
    rw [tightJoin_eq_joinHex fun g hg => hboth g (List.mem_append_left _ hg),
      padJoin_eq_joinHex fun g hg => hboth g (List.mem_append_right _ hg)]

/-- A text whose inner groups have four digits is tidy: there is nothing to trim in it. -/
theorem tidy_compact {gs : List Nat} (hinner : ∀ g ∈ innerGroups gs, 0x1000 ≤ g) :
    Tidy (compact gs) := by
  have hne : ∀ g ∈ innerGroups gs, g ≠ 0 := fun g hg => by
    have := hinner g hg
    omega
  unfold innerGroups at hne
  unfold compact
  split
  · rename_i hsplit
    rw [hsplit] at hne
    rw [← List.append_nil (joinHex gs)]
    exact Tidy.joinHex hne Tidy.nil
  · rename_i pre post hsplit
    rw [hsplit] at hne
    rw [List.append_assoc]
    exact Tidy.joinHex (fun g hg => hne g (List.mem_append_left _ hg))
      (Tidy.double fun g hg => hne g (List.mem_append_right _ hg))

/-- `inet_pton` reads the compact text of eight groups. -/
theorem inetPton6_compact {gs : List Nat} (hlen : gs.length = 8) (hgs : ∀ g ∈ gs, g < 16 ^ 4) :
    inetPton6 (compact gs) = some (gs.flatMap groupBytes) := by
  unfold compact
  split
  · exact inetPton6_full hgs hlen
  · rename_i pre post hsplit
    obtain ⟨k, hk, heq⟩ := runSplit_some hsplit
    have htotal := congrArg List.length heq
    simp only [hlen, List.length_append, List.length_replicate] at htotal
    rw [inetPton6_compressed pre post (k := k) (by omega) (by omega)
      (fun g hg => hgs g (by rw [heq]; simp [hg])) (fun g hg => hgs g (by rw [heq]; simp [hg])), heq]

/-- A text that does not start with the group `0` does not start with the digit. -/
theorem head_compact {gs : List Nat} (h : firstGroup gs ≠ some 0) :
    (compact gs).head? ≠ some (chr '0') := by
  have hjoin : ∀ (g : Nat) (gs : List Nat) (rest : Bytes), g ≠ 0 →
      (joinHex (g :: gs) ++ rest).head? ≠ some (chr '0') := by
    intro g gs rest hg
    obtain ⟨d, cs, hpos, hd, hhex⟩ := head_hex hg
    rw [joinHex, hhex]
    intro heq
    have : hexByte d = chr '0' := Option.some.inj heq
    interval_cases d <;> exact absurd this (by decide)
  unfold firstGroup at h
  unfold compact
  split
  · rename_i hsplit
    rw [hsplit] at h
    cases gs with
    | nil => exact fun h => by cases h
    | cons g gs =>
        rw [← List.append_nil (joinHex (g :: gs))]
        exact hjoin g gs [] fun hg => h (by rw [hg]; rfl)
  · rename_i pre post hsplit
    rw [hsplit] at h
    cases pre with
    | nil => exact fun h => absurd (Option.some.inj h) (by decide)
    | cons g pre =>
        rw [List.append_assoc]
        exact hjoin g pre _ fun hg => h (by rw [hg]; rfl)

/-- A text that starts with the group `0` goes on with a single colon. -/
theorem compact_of_firstGroup {gs : List Nat} (hlen : gs.length = 8)
    (hinner : ∀ g ∈ innerGroups gs, 0x1000 ≤ g) (h : firstGroup gs = some 0) :
    ∃ g gs' s, compact gs = chr '0' :: (groupsText (g :: gs') ++ s) ∧
      (s = [] ∨ ∃ post, s = str "::" ++ joinHex post) := by
  unfold firstGroup at h
  unfold innerGroups at hinner
  unfold compact
  split
  · rename_i hsplit
    rw [hsplit] at h hinner
    cases gs with
    | nil => cases hlen
    | cons g gs =>
        obtain rfl : g = 0 := Option.some.inj h
        cases gs with
        | nil => simp at hlen
        | cons g gs =>
            exact ⟨g, gs, [], by simp [joinHex, hex], .inl rfl⟩
  · rename_i pre post hsplit
    rw [hsplit] at h hinner
    cases pre with
    | nil => cases h
    | cons g pre =>
        obtain rfl : g = 0 := Option.some.inj h
        cases pre with
        | nil => exact (runSplit_ne_singleton hsplit).elim
        | cons g pre =>
            exact ⟨g, pre, str "::" ++ joinHex post, by simp [joinHex, hex], .inr ⟨post, rfl⟩⟩

/-! ## What is read back -/

/-- The last two characters of a text that ends in something other than a colon or in `::`, where
the guard of `trim_v6_string` looks for a single colon. -/
theorem no_lone_colon {s : Bytes}
    (h : (∃ l w, w ≠ [] ∧ chr ':' ∉ w ∧ s = l ++ w) ∨ ∃ l, s = l ++ str "::") :
    (s.length ≥ 2 && s.getD (s.length - 1) 0 = chr ':' &&
      s.getD (s.length - 2) 0 ≠ chr ':') = false := by
  rcases h with ⟨l, w, hne, hcolon, rfl⟩ | ⟨l, rfl⟩
  · have hlast : (l ++ w).getD ((l ++ w).length - 1) 0 ≠ chr ':' := by
      rw [List.getD_eq_getElem?_getD, ← List.getLast?_eq_getElem?,
        List.getLast?_append_of_ne_nil _ hne]
      cases hget : w.getLast? with
      | none => simp [hne] at hget
      | some c => exact fun hc => hcolon (hc ▸ List.mem_of_getLast? hget)
    simp only [hlast, decide_false, Bool.and_false, Bool.false_and]
  · have hlast : (l ++ str "::").getD ((l ++ str "::").length - 2) 0 = chr ':' := by
      rw [List.getD_eq_getElem?_getD, List.length_append,
        show l.length + (str "::").length - 2 = l.length by
          rw [show (str "::").length = 2 from rfl]; omega,
        List.getElem?_append_right (le_refl _), Nat.sub_self]
      rfl
    simp only [hlast, ne_eq, not_true_eq_false, decide_false, Bool.and_false]

/-- Groups after colons end in the digits of the last one. -/
theorem groupsText_ends (g : Nat) (gs : List Nat) : ∃ l g', groupsText (g :: gs) = l ++ hex g' := by
  rcases List.eq_nil_or_concat (g :: gs) with h | ⟨gs', g', h⟩
  · cases h
  · refine ⟨groupsText gs' ++ [chr ':'], g', ?_⟩
    rw [h, List.concat_eq_append, groupsText, List.flatMap_append, ← groupsText]
    simp

/-- Groups from the start of a text end in the digits of the last one. -/
theorem joinHex_ends {gs : List Nat} (h : gs ≠ []) : ∃ l g, joinHex gs = l ++ hex g := by
  cases gs with
  | nil => exact absurd rfl h
  | cons g gs =>
      cases gs with
      | nil => exact ⟨[], g, by simp [joinHex, groupsText]⟩
      | cons g' gs =>
          obtain ⟨l, x, hl⟩ := groupsText_ends g' gs
          exact ⟨hex g ++ l, x, by rw [joinHex, hl, List.append_assoc]⟩

/-- A text that goes on with a single colon is not an IPv6 address. -/
theorem inetPton6_lone_colon (g : Nat) (gs : List Nat) (s : Bytes) :
    inetPton6 (groupsText (g :: gs) ++ s) = none := by
  rw [groupsText, List.flatMap_cons, List.cons_append, List.cons_append]
  cases hhex : hex g with
  | nil => exact absurd hhex (hex_ne_nil g)
  | cons c cs =>
      have hc : c ≠ chr ':' := fun he => colon_not_mem_hex g (by simp [hhex, he])
      simp [inetPton6, hc]

/-- A leading group `0` loses its digit, and the text then starts with a single colon. -/
theorem trimV6String_leading_zero {g : Nat} {gs : List Nat} {s : Bytes}
    (hs : s = [] ∨ ∃ post, s = str "::" ++ joinHex post)
    (htidy : Tidy (groupsText (g :: gs) ++ s)) :
    IpAddress.trimV6String (chr '0' :: (groupsText (g :: gs) ++ s)) =
      groupsText (g :: gs) ++ s := by
  have hcount : ¬IpAddress.countDoubleColons (chr '0' :: (groupsText (g :: gs) ++ s)) > 1 := by
    rw [countDoubleColons_cons (by decide), countDoubleColons_groupsText]
    rcases hs with rfl | ⟨post, rfl⟩
    · simp [IpAddress.countDoubleColons]
    · simp [str, IpAddress.countDoubleColons, countDoubleColons_joinHex]
  have hend : (∃ l w, w ≠ [] ∧ chr ':' ∉ w ∧ chr '0' :: (groupsText (g :: gs) ++ s) = l ++ w) ∨
      ∃ l, chr '0' :: (groupsText (g :: gs) ++ s) = l ++ str "::" := by
    rcases hs with rfl | ⟨post, rfl⟩
    · obtain ⟨l, g', hl⟩ := groupsText_ends g gs
      exact .inl ⟨chr '0' :: l, hex g', hex_ne_nil g', colon_not_mem_hex g',
        by rw [hl, List.append_nil, List.cons_append]⟩
    · cases post with
      | nil => exact .inr ⟨chr '0' :: groupsText (g :: gs), by simp [joinHex]⟩
      | cons x post =>
          obtain ⟨l, g', hl⟩ := joinHex_ends (List.cons_ne_nil x post)
          exact .inl ⟨chr '0' :: (groupsText (g :: gs) ++ (str "::" ++ l)), hex g', hex_ne_nil g',
            colon_not_mem_hex g', by simp [hl]⟩
  have hdrop : (chr '0' :: (groupsText (g :: gs) ++ s)).dropWhile (· = chr '0') =
      groupsText (g :: gs) ++ s := by
    rw [List.dropWhile_cons_of_pos (by simp), groupsText, List.flatMap_cons, List.cons_append,
      List.cons_append, List.dropWhile_cons_of_neg (by decide)]
  rw [IpAddress.trimV6String, if_neg]
  · simp only [hdrop, replaceWhile_of_not_infix htidy.1, replaceWhile_of_not_infix htidy.2]
  · rw [no_lone_colon hend]
    simpa using hcount

/-- Characters that occur in no text of groups. -/
theorem not_mem_tight {gs : List Nat} (hne : gs ≠ []) {c : UInt8} (hblank : c ≠ chr ' ')
    (hcolon : c ≠ chr ':') (hhex : ∀ d < 16, c ≠ hexByte d) : c ∉ tight gs := fun h => by
  have hmem : c ∈ spelled gs := by
    rw [← trim_spelled hne] at h
    have hdrop := List.mem_reverse.mp h
    exact (List.dropWhile_suffix _).subset
      (List.mem_reverse.mp ((List.dropWhile_suffix _).subset hdrop))
  rcases mem_spelled hmem with h | h | ⟨d, hd, h⟩
  · exact hblank h
  · exact hcolon h
  · exact hhex d hd h

/-- Some groups give some text, also after `trim`. -/
theorem tight_ne_nil {gs : List Nat} (hne : gs ≠ []) : tight gs ≠ [] := by
  unfold tight
  split
  · cases gs with
    | nil => exact absurd rfl hne
    | cons g gs => simp [tightJoin, hex_ne_nil]
  · simp [str]

/-- **The texts of groups that are read back.** -/
theorem IpAddress.tryParse_spelled {gs : List Nat} (hlen : gs.length = 8)
    (hgs : ∀ g ∈ gs, g < 16 ^ 4) :
    IpAddress.tryParse (spelled gs) =
      if Plain gs then some ⟨.v6, toData (gs.flatMap groupBytes)⟩ else none := by
  have hne : gs ≠ [] := List.ne_nil_of_length_pos (by omega)
  have hpercent : chr '%' ∉ IpAddress.trimV6String (tight gs) := fun h =>
    not_mem_tight hne (by decide) (by decide) (fun d hd => by interval_cases d <;> decide)
      (mem_of_mem_trimV6String (by decide) h)
  have hnul : (0 : UInt8) ∉ IpAddress.trimV6String (tight gs) := fun h =>
    not_mem_tight hne (by decide) (by decide) (fun d hd => by interval_cases d <;> decide)
      (mem_of_mem_trimV6String (by decide) h)
  have hparse : IpAddress.tryParse (spelled gs) =
      (inetPton6 (IpAddress.trimV6String (tight gs))).map fun bytes => ⟨.v6, toData bytes⟩ := by
    rw [IpAddress.tryParse, tryFamily_spelled hlen, Option.bind_some, IpAddress.tryParseFamily,
      trim_spelled hne]
    simp only [tight_ne_nil hne, if_false, hpercent, cStr_eq_self hnul]
  rw [hparse]
  by_cases hinner : ∀ g ∈ innerGroups gs, 0x1000 ≤ g
  · rw [tight_eq_compact hinner hgs]
    by_cases hfirst : firstGroup gs = some 0
    · -- the text is `0:g:…`
      have hplain : ¬Plain gs := fun h => h.1 hfirst
      obtain ⟨g, gs', s, heq, hs⟩ := compact_of_firstGroup hlen hinner hfirst
      have htidy : Tidy (chr '0' :: (groupsText (g :: gs') ++ s)) := heq ▸ tidy_compact hinner
      have htail : Tidy (groupsText (g :: gs') ++ s) :=
        ⟨fun h => htidy.1 (List.infix_cons h), fun h => htidy.2 (List.infix_cons h)⟩
      rw [heq, trimV6String_leading_zero hs htail, inetPton6_lone_colon, if_neg hplain]
      rfl
    · have hplain : Plain gs := ⟨hfirst, hinner⟩
      rw [trimV6String_of_tidy (tidy_compact hinner) (head_compact hfirst),
        inetPton6_compact hlen hgs, if_pos hplain]
      rfl
  · have hplain : ¬Plain gs := fun h => hinner h.2
    push Not at hinner
    obtain ⟨g, hg, hlt⟩ := hinner
    rw [inetPton6_blank (blank_mem_trimV6String (blank_mem_tight hg hlt)), if_neg hplain]
    rfl

end SocialNetwork.Net
