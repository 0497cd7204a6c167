import SocialNetwork.Helpers.Replacement
import SocialNetwork.Net.Ipv6Trim

/-!
# `trim_v6_string` as loops

`trim_v6_string` with its four loops, each with a measure: the text behind the position for the count
of `::`, the length of the string for the others. They leave within one pass more than the string is
long, with what `trimV6String` computes (`trimV6StringLoops_run`).

Where the function does not return early, the first loop that rewrites removes the zeros at the
beginning, the second the zeros after a colon, the third every third colon in a row. No later loop
brings back what an earlier one removed (`trimV6String_trimmed`).
-/

namespace SocialNetwork.Net

open Foundation Helpers StringHelpers

namespace IpAddress

/-! ## The loops -/

/-- `a - b` on `size_t`. -/
def sizeSub (a b : Nat) : Nat := if b ≤ a then a - b else 2 ^ 64 + a - b

/-- `(pos <= len-2) && (pos != npos)`, on `double_separators` and `pos`; `none` is `npos`. -/
def separatorFound (addr : Bytes) (st : Nat × Option Nat) : Bool :=
  match st.2 with
  | some pos => pos ≤ sizeSub addr.length 2
  | none => false

/-- The body of the loop that counts `::`. -/
def countSeparator (addr : Bytes) (st : Nat × Option Nat) : Nat × Option Nat :=
  (st.1 + 1, st.2.bind fun pos => findFrom (str "::") addr (pos + 2))

/-- The loop that counts `::`. The counter is an `int`; to overflow it takes a text of 4 GiB, for which
C++ says nothing. -/
def doubleSeparatorsLoop (fuel : Nat) (addr : Bytes) : OptionT (Except OutOfRange) Nat := do
  let (doubleSeparators, _) ← whileLoop (separatorFound addr) (fun st => pure (countSeparator addr st))
    fuel (0, findFrom (str "::") addr 0)
  pure doubleSeparators

/-- The condition under which `trim_v6_string` gives its argument back. -/
def returnsEarly (doubleSeparators : Nat) (addr : Bytes) : Bool :=
  doubleSeparators > 1 ||
    (addr.length ≥ 2 && addr.getD (addr.length - 1) 0 = chr ':' &&
      addr.getD (addr.length - 2) 0 ≠ chr ':')

/-- `while (v6_addr.size() && v6_addr[0] == '0') v6_addr.erase(v6_addr.begin())`. -/
def eraseZerosLoop : Nat → Bytes → OptionT (Except OutOfRange) Bytes :=
  whileLoop (fun v6Addr => v6Addr.head? = some (chr '0')) fun v6Addr => pure v6Addr.tail

/-- `while (v6_addr.find(src) != npos) replace_in_place(v6_addr, src, dst)`. -/
def replaceWhileLoop (src dst : Bytes) (fuel : Nat) : Bytes → OptionT (Except OutOfRange) Bytes :=
  whileLoop (fun v6Addr => (findFrom src v6Addr 0).isSome)
    (fun v6Addr => Prod.snd <$> (StringHelpers.replaceInPlace fuel src dst 0).run v6Addr) fuel

/-- `IpAddress::trim_v6_string`, pass by pass. -/
def trimV6StringLoops (fuel : Nat) (addr : Bytes) : OptionT (Except OutOfRange) Bytes := do
  let doubleSeparators ← doubleSeparatorsLoop fuel addr
  if returnsEarly doubleSeparators addr then pure addr
  else
    let v6Addr ← eraseZerosLoop fuel addr
    let v6Addr ← replaceWhileLoop (str ":0") (str ":") fuel v6Addr
    replaceWhileLoop (str ":::") (str "::") fuel v6Addr

/-! ## Counting `::` -/

/-- The count is one less than the number of pieces between occurrences. -/
theorem countDoubleColons_cut {s : Bytes} {pieces : List Bytes}
    (hcut : LeftmostCut (str "::") s pieces) : countDoubleColons s + 1 = pieces.length := by
  have hsrc : str "::" ≠ [] := by decide
  induction s using countDoubleColons.induct generalizing pieces with
  | case1 a b rest hcolons ih =>
      obtain ⟨rfl, rfl⟩ := hcolons
      obtain ⟨ps, hps⟩ := exists_leftmostCut hsrc rest
      have hcut' := LeftmostCut.cons (t := []) (fun i hi => absurd hi (Nat.not_lt_zero i)) hps
      rw [countDoubleColons, if_pos ⟨rfl, rfl⟩, hcut.unique hsrc hcut', List.length_cons, ← ih hps]
      omega
  | case2 a b rest hcolons ih =>
      obtain ⟨ps, hps⟩ := exists_leftmostCut hsrc (b :: rest)
      obtain ⟨t, ps, rfl⟩ := List.exists_cons_of_ne_nil hps.ne_nil
      have hpre : ¬str "::" <+: a :: b :: rest := by
        intro hpre
        obtain ⟨ha, hpre⟩ := List.cons_prefix_cons.mp hpre
        exact hcolons ⟨ha.symm, (List.cons_prefix_cons.mp hpre).1.symm⟩
      rw [countDoubleColons, if_neg hcolons, hcut.unique hsrc (hps.cons_char hpre), ih hps]
      rfl
  | case3 s hshort =>
      have hlen : s.length < 2 := by
        rcases s with - | ⟨a, - | ⟨b, rest⟩⟩
        · exact Nat.zero_lt_two
        · exact Nat.one_lt_two
        · exact (hshort a b rest rfl).elim
      have hlast : LeftmostCut (str "::") s [s] := by
        refine .last fun i hi hpre => ?_
        have hle := hpre.length_le
        rw [List.length_drop] at hle
        have htwo : (str "::").length = 2 := rfl
        omega
      rw [hcut.unique hsrc hlast, countDoubleColons.eq_def]
      rcases s with - | ⟨a, - | ⟨b, rest⟩⟩
      · rfl
      · rfl
      · exact (hshort a b rest rfl).elim

/-- A `::` that is found counts once, and the count goes on after it. -/
theorem countDoubleColons_of_find {addr : Bytes} {start pos : Nat}
    (h : findFrom (str "::") addr start = some pos) :
    countDoubleColons (addr.drop start) = countDoubleColons (addr.drop (pos + 2)) + 1 := by
  have hsrc : str "::" ≠ [] := by decide
  obtain ⟨ps, hps⟩ := exists_leftmostCut hsrc (addr.drop (pos + 2))
  have hcount := countDoubleColons_cut (hps.of_find h)
  rw [List.length_cons, ← countDoubleColons_cut hps] at hcount
  omega

/-- If no `::` is found, none is counted. -/
theorem countDoubleColons_of_not_find {addr : Bytes} {start : Nat}
    (h : findFrom (str "::") addr start = none) : countDoubleColons (addr.drop start) = 0 := by
  have hcount := countDoubleColons_cut (.of_not_find h)
  rw [List.length_singleton] at hcount
  omega

/-- The loop that counts goes on where a `::` was found. -/
theorem separatorFound_some {addr : Bytes} {start pos : Nat}
    (h : findFrom (str "::") addr start = some pos) (n : Nat) :
    separatorFound addr (n, some pos) = true := by
  have hle : pos + 2 ≤ addr.length := findFrom_le h
  refine decide_eq_true ?_
  unfold sizeSub
  split
  · omega
  · omega

/-- What is counted so far, and what the rest of the text holds, make the count. -/
def Counted (addr : Bytes) (st : Nat × Option Nat) : Prop :=
  ∃ start, st.2 = findFrom (str "::") addr start ∧
    st.1 + countDoubleColons (addr.drop start) = countDoubleColons addr

/-- The text behind the position. -/
def remaining (addr : Bytes) (st : Nat × Option Nat) : Nat :=
  st.2.elim 0 fun pos => addr.length - pos

/-- The loop that counts has at most the text before it. -/
theorem remaining_le (addr : Bytes) (st : Nat × Option Nat) : remaining addr st ≤ addr.length := by
  obtain ⟨n, pos⟩ := st
  cases pos with
  | none => exact Nat.zero_le _
  | some pos => exact Nat.sub_le _ _

/-- A pass counts one `::` and leaves it behind. -/
theorem Counted.pass {addr : Bytes} {st : Nat × Option Nat} (h : Counted addr st)
    (hfound : separatorFound addr st = true) :
    Counted addr (countSeparator addr st) ∧
      remaining addr (countSeparator addr st) < remaining addr st := by
  obtain ⟨n, pos⟩ := st
  obtain ⟨start, hpos, hn⟩ := h
  cases pos with
  | none => exact absurd hfound Bool.false_ne_true
  | some pos =>
      have hle : pos + 2 ≤ addr.length := findFrom_le hpos.symm
      refine ⟨⟨pos + 2, rfl, ?_⟩, ?_⟩
      · rw [countDoubleColons_of_find hpos.symm] at hn
        dsimp only [countSeparator] at hn ⊢
        omega
      · show (findFrom (str "::") addr (pos + 2)).elim 0 (fun pos => addr.length - pos) <
          addr.length - pos
        cases hnext : findFrom (str "::") addr (pos + 2) with
        | none =>
            rw [Option.elim_none]
            omega
        | some next =>
            have hlt := (findFrom_eq_some hnext).1
            rw [Option.elim_some]
            omega

/-- Where the loop leaves, everything is counted: the subtraction wraps around only where the string is
too short for a `::`. -/
theorem Counted.left {addr : Bytes} {st : Nat × Option Nat} (h : Counted addr st)
    (hleft : separatorFound addr st = false) : st.1 = countDoubleColons addr := by
  obtain ⟨n, pos⟩ := st
  obtain ⟨start, hpos, hn⟩ := h
  cases pos with
  | some pos =>
      rw [separatorFound_some hpos.symm] at hleft
      exact Bool.noConfusion hleft
  | none =>
      rw [countDoubleColons_of_not_find hpos.symm] at hn
      exact hn

/-- **The loop that counts** leaves with the count. -/
theorem doubleSeparatorsLoop_run {addr : Bytes} {fuel : Nat} (hfuel : addr.length < fuel) :
    doubleSeparatorsLoop fuel addr = pure (countDoubleColons addr) := by
  have hinit : Counted addr (0, findFrom (str "::") addr 0) := ⟨0, rfl, Nat.zero_add _⟩
  have hmeasure := lt_of_le_of_lt (remaining_le addr (0, findFrom (str "::") addr 0)) hfuel
  have hbody : ∀ st, Counted addr st → separatorFound addr st = true →
      ∃ st', (pure (countSeparator addr st) : OptionT (Except OutOfRange) _) = pure st' ∧
        Counted addr st' ∧ remaining addr st' < remaining addr st := by
    intro st hst hfound
    exact ⟨countSeparator addr st, rfl, hst.pass hfound⟩
  obtain ⟨⟨n, pos⟩, hrun, hcounted, hleft⟩ :=
    while_total (Counted addr) (remaining addr) hbody hinit hmeasure
  rw [doubleSeparatorsLoop, hrun, pure_bind]
  exact congrArg pure (hcounted.left hleft)

/-! ## Rewriting -/

/-- The loop that erases zeros ends at the first character that is none. -/
theorem eraseZerosLoop_run {addr : Bytes} {fuel : Nat} (hfuel : addr.length < fuel) :
    eraseZerosLoop fuel addr = pure (addr.dropWhile (· = chr '0')) := by
  let inv : Bytes → Prop := fun v => v.dropWhile (· = chr '0') = addr.dropWhile (· = chr '0')
  have hbody : ∀ v, inv v → decide (v.head? = some (chr '0')) = true →
      ∃ v', (pure v.tail : OptionT (Except OutOfRange) _) = pure v' ∧ inv v' ∧
        v'.length < v.length := by
    intro v hv hzero
    rcases v with - | ⟨c, v⟩
    · exact absurd hzero (by decide)
    · obtain rfl : c = chr '0' := by simpa using hzero
      refine ⟨v, rfl, ?_, Nat.lt_succ_self _⟩
      exact (List.dropWhile_cons_of_pos (by simp)).symm.trans hv
  obtain ⟨v, hrun, hv, hleft⟩ := while_total inv List.length hbody rfl hfuel
  rw [eraseZerosLoop, hrun, ← hv]
  congr 1
  cases v with
  | nil => rfl
  | cons c v => rw [List.dropWhile_cons_of_neg (by simpa using hleft)]

/-- Replacing by something shorter makes a text shorter where it changes it. -/
theorem length_replaceInPlace_lt {src dst s : Bytes} (hshort : dst.length < src.length)
    (h : src <:+: s) : (Helpers.replaceInPlace s src dst).length < s.length := by
  have hsrc : src ≠ [] := List.ne_nil_of_length_pos (Nat.zero_lt_of_lt hshort)
  have hdst : src ≠ dst := fun h => absurd (h ▸ hshort) (lt_irrefl _)
  rw [Helpers.replaceInPlace, if_neg (by simp [hsrc, hdst])]
  exact rewritesPlus_length_lt hshort (replaceLoop_rewritesPlus le_rfl hsrc h)

/-- The fuel of `replaceWhile` does not matter once it covers the string. -/
theorem replaceWhile_fuel {src dst : Bytes} (hshort : dst.length < src.length) {fuel fuel' : Nat}
    {s : Bytes} (hfuel : s.length ≤ fuel) (hfuel' : s.length ≤ fuel') :
    replaceWhile src dst fuel s = replaceWhile src dst fuel' s := by
  have hsrc : src ≠ [] := List.ne_nil_of_length_pos (Nat.zero_lt_of_lt hshort)
  have hnil (fuel : Nat) : replaceWhile src dst fuel [] = [] := by
    cases fuel with
    | zero => rfl
    | succ fuel => rw [replaceWhile, if_neg fun h => hsrc (List.infix_nil.mp h)]
  induction fuel generalizing fuel' s with
  | zero =>
      obtain rfl := List.length_eq_zero_iff.mp (Nat.le_zero.mp hfuel)
      rw [hnil, hnil]
  | succ fuel ih =>
      cases fuel' with
      | zero =>
          obtain rfl := List.length_eq_zero_iff.mp (Nat.le_zero.mp hfuel')
          rw [hnil, hnil]
      | succ fuel' =>
          rw [replaceWhile, replaceWhile]
          split
          · rename_i h
            have hlt := length_replaceInPlace_lt hshort h
            exact ih (by omega) (by omega)
          · rfl

/-- One replacement more makes no difference at the end. -/
theorem replaceWhile_once {src dst s : Bytes} (hshort : dst.length < src.length)
    (h : src <:+: s) :
    replaceWhile src dst (Helpers.replaceInPlace s src dst).length (Helpers.replaceInPlace s src dst) =
      replaceWhile src dst s.length s := by
  have hlt := length_replaceInPlace_lt hshort h
  rw [← replaceWhile_fuel hshort (Nat.le_succ s.length) le_rfl, replaceWhile, if_pos h]
  exact replaceWhile_fuel hshort le_rfl hlt.le

/-- The loops that rewrite leave without the pattern. -/
theorem replaceWhileLoop_run {src dst : Bytes} (hshort : dst.length < src.length) {s : Bytes}
    {fuel : Nat} (hfuel : s.length < fuel) :
    replaceWhileLoop src dst fuel s = pure (replaceWhile src dst s.length s) := by
  let inv : Bytes → Prop := fun v =>
    v.length ≤ s.length ∧ replaceWhile src dst v.length v = replaceWhile src dst s.length s
  have hbody : ∀ v, inv v → (findFrom src v 0).isSome = true →
      ∃ v', Prod.snd <$> (StringHelpers.replaceInPlace fuel src dst 0).run v = pure v' ∧ inv v' ∧
        v'.length < v.length := by
    rintro v ⟨hlen, hv⟩ hfound
    have hocc := findFrom_zero_isSome.mp hfound
    have hlt := length_replaceInPlace_lt hshort hocc
    refine ⟨Helpers.replaceInPlace v src dst, ?_, ⟨by omega, ?_⟩, hlt⟩
    · rw [replaceInPlace_zero_run src dst v (by omega), map_pure]
    · rw [replaceWhile_once hshort hocc, hv]
  obtain ⟨v, hrun, ⟨-, hv⟩, hleft⟩ := while_total inv List.length hbody ⟨le_rfl, rfl⟩ hfuel
  have hnormal : ¬src <:+: v := fun h =>
    Bool.false_ne_true (hleft.symm.trans (findFrom_zero_isSome.mpr h))
  rw [replaceWhileLoop, hrun, ← hv, replaceWhile_of_not_infix hnormal]

/-- What `trim_v6_string` deletes. -/
def ZeroOrColon (c : UInt8) : Prop := c = chr '0' ∨ c = chr ':'

/-- `:` is shorter than `:0`. -/
theorem length_colon_lt : (str ":").length < (str ":0").length := by decide

/-- `::` is shorter than `:::`. -/
theorem length_colons_lt : (str "::").length < (str ":::").length := by decide

/-- Replacing `:0` by `:` only deletes a zero. -/
theorem deletes_zero : Deletes ZeroOrColon (str ":0") (str ":") := .keep _ (.delete (.inl rfl) .nil)

/-- Replacing `:::` by `::` only deletes a colon. -/
theorem deletes_colon : Deletes ZeroOrColon (str ":::") (str "::") :=
  .keep _ (.keep _ (.delete (.inr rfl) .nil))

/-- `trim_v6_string` in terms of its parts: the early return, the two loops of replacements, and the
zeros in front. -/
theorem trimV6String_eq (addr : Bytes) :
    trimV6String addr =
      if returnsEarly (countDoubleColons addr) addr then addr
      else
        let v6Addr := addr.dropWhile (· = chr '0')
        let v6Addr := replaceWhile (str ":0") (str ":") v6Addr.length v6Addr
        replaceWhile (str ":::") (str "::") v6Addr.length v6Addr := rfl

/-- **The loops terminate**, within one pass more than the string is long, and compute `trimV6String`. -/
theorem trimV6StringLoops_run {addr : Bytes} {fuel : Nat} (hfuel : addr.length < fuel) :
    trimV6StringLoops fuel addr = pure (trimV6String addr) := by
  let v6Addr := addr.dropWhile (· = chr '0')
  have hzeros : v6Addr.length < fuel :=
    lt_of_le_of_lt (List.dropWhile_sublist _).length_le hfuel
  obtain ⟨hrewrites, -⟩ := replaceWhile_rewrites length_colon_lt v6Addr.length le_rfl
  have hcolons :=
    lt_of_le_of_lt (Deletes.of_rewritesStar deletes_zero hrewrites).sublist.length_le hzeros
  rw [trimV6StringLoops, doubleSeparatorsLoop_run hfuel, pure_bind, trimV6String_eq]
  split
  · rfl
  · rw [eraseZerosLoop_run hfuel, pure_bind, replaceWhileLoop_run length_colon_lt hzeros, pure_bind,
      replaceWhileLoop_run length_colons_lt hcolons]

/-! ## The normal form -/

/-- What the loops leave where the function does not return early. -/
structure Trimmed (addr v6Addr : Bytes) : Prop where
  no_leading_zero : v6Addr.head? ≠ some (chr '0')
  no_zero_after_colon : ¬str ":0" <:+: v6Addr
  no_three_colons : ¬str ":::" <:+: v6Addr
  deletes : Deletes ZeroOrColon addr v6Addr

/-- A rule both of whose sides begin with a colon leaves the first character alone. -/
theorem head_of_rewritesStar {s s' t t' : Bytes}
    (h : Relation.ReflTransGen (Rewrites (chr ':' :: t) (chr ':' :: t')) s s') :
    s'.head? = s.head? := by
  refine rewritesStar_induct (P := fun u => u.head? = s.head?) (fun u u' hu hstep => ?_) h rfl
  obtain ⟨l, r, rfl, rfl⟩ := hstep
  rw [← hu]
  cases l with
  | nil => rfl
  | cons c l => rfl

/-- A colon taken out between two colons brings no zero to a colon. -/
theorem no_zero_of_rewrites {s s' : Bytes} (hs : ¬str ":0" <:+: s)
    (h : Rewrites (str ":::") (str "::") s s') : ¬str ":0" <:+: s' := by
  obtain ⟨l, r, rfl, rfl⟩ := h
  intro hocc
  have hs' : l ++ str "::" ++ r = (l ++ [chr ':']) ++ chr ':' :: r := by
    rw [List.append_assoc, List.append_assoc]
    rfl
  rw [hs', List.infix_append_iff_ne_nil] at hocc
  rcases hocc with hleft | hright | ⟨l₁, l₂, hl₁, hl₂, hsplit, -, hpre⟩
  · refine hs (hleft.trans ⟨[], str "::" ++ r, ?_⟩)
    rw [List.nil_append, List.append_assoc, List.append_assoc]
    rfl
  · refine hs (hright.trans ⟨l ++ str "::", [], ?_⟩)
    rw [List.append_nil, List.append_assoc, List.append_assoc]
    rfl
  · -- the zero would begin what follows the colon that stays
    obtain ⟨c, l₁, rfl⟩ := List.exists_cons_of_ne_nil hl₁
    obtain ⟨d, l₂, rfl⟩ := List.exists_cons_of_ne_nil hl₂
    obtain rfl := (List.cons_prefix_cons.mp hpre).1
    have hmem : chr ':' ∈ [chr '0'] := by
      rw [show [chr '0'] = l₁ ++ chr ':' :: l₂ from (List.cons.inj hsplit).2]
      exact List.mem_append_right _ List.mem_cons_self
    exact absurd hmem (by decide)

/-- **Without the early return**, what is left is trimmed. -/
theorem trimV6String_trimmed {addr : Bytes} (h : returnsEarly (countDoubleColons addr) addr = false) :
    Trimmed addr (trimV6String addr) := by
  let zeros := addr.dropWhile (· = chr '0')
  obtain ⟨hrewrites, hzero⟩ := replaceWhile_rewrites length_colon_lt zeros.length
    (le_refl zeros.length)
  let v6Addr := replaceWhile (str ":0") (str ":") zeros.length zeros
  obtain ⟨hrewrites', hcolons⟩ := replaceWhile_rewrites length_colons_lt v6Addr.length
    (le_refl v6Addr.length)
  have hhead : zeros.head? ≠ some (chr '0') := fun hhead => by
    simpa using head_dropWhile hhead
  have hdeletes : Deletes ZeroOrColon addr zeros :=
    .dropWhile (fun c hc => .inl (by simpa using hc)) addr
  rw [trimV6String_eq, if_neg (Bool.not_eq_true _ |>.mpr h)]
  constructor
  · rw [@head_of_rewritesStar _ _ (str "::") (str ":") hrewrites',
      @head_of_rewritesStar _ _ (str "0") [] hrewrites]
    exact hhead
  · exact rewritesStar_induct (fun s s' hs hstep => no_zero_of_rewrites hs hstep) hrewrites' hzero
  · exact hcolons
  · exact (hdeletes.trans (.of_rewritesStar deletes_zero hrewrites)).trans
      (.of_rewritesStar deletes_colon hrewrites')

/-- **`trim_v6_string` terminates in a normal form**, every loop within one pass more than the string
is long. -/
theorem trim_v6_string_terminates (addr : Bytes) :
    ∃ doubleSeparators v6Addr,
      (∀ fuel > addr.length, doubleSeparatorsLoop fuel addr = pure doubleSeparators ∧
        trimV6StringLoops fuel addr = pure v6Addr) ∧
      if returnsEarly doubleSeparators addr then v6Addr = addr else Trimmed addr v6Addr := by
  refine ⟨countDoubleColons addr, trimV6String addr, fun fuel hfuel =>
    ⟨doubleSeparatorsLoop_run hfuel, trimV6StringLoops_run hfuel⟩, ?_⟩
  cases hearly : returnsEarly (countDoubleColons addr) addr with
  | true =>
      rw [if_pos rfl]
      rw [trimV6String_eq, if_pos hearly]
  | false =>
      rw [if_neg Bool.false_ne_true]
      exact trimV6String_trimmed hearly

example : trimV6StringLoops 13 (str "00:0::000:12") = pure (str "::12") := rfl

/-- Too short for a `::`, with the bound of the count wrapped around. -/
example : trimV6StringLoops 2 (str "0") = pure [] := rfl

end IpAddress

end SocialNetwork.Net
