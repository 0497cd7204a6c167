import SocialNetwork.Foundation.Bytes

/-!
# `inet_pton`

The C library's conversion of a presentation address to bytes in network order, for both families.
`inetPton4` reads exactly four decimal octets without leading zeros; `inetPton6` reads up to eight
groups of at most four hexadecimal digits, at most one `::`, and possibly an IPv4 tail.
-/

namespace SocialNetwork.Net

open Foundation

/-! ## IPv4 -/

/-- The locals of `inet_pton4`: the octets before the current one, the current one, and whether it
has a digit yet. -/
structure Pton4 where
  tmp : Bytes
  cur : Nat
  octets : Nat
  sawDigit : Bool
  deriving DecidableEq, Repr

/-- One character. -/
def Pton4.step (st : Pton4) (ch : UInt8) : Option Pton4 :=
  if isDigit ch then
    let new := st.cur * 10 + digitValue ch
    if st.sawDigit && st.cur = 0 then none
    else if new > 255 then none
    else if st.sawDigit then some { st with cur := new }
    else if st.octets + 1 > 4 then none
    else some { st with cur := new, octets := st.octets + 1, sawDigit := true }
  else if ch = chr '.' && st.sawDigit then
    if st.octets = 4 then none
    else some { st with tmp := st.tmp ++ [UInt8.ofNat st.cur], cur := 0, sawDigit := false }
  else none

/-- `inet_pton(AF_INET, …)`. -/
def inetPton4 (src : Bytes) : Option Bytes :=
  match src.foldlM Pton4.step ⟨[], 0, 0, false⟩ with
  | some st => if st.octets < 4 then none else some (st.tmp ++ [UInt8.ofNat st.cur])
  | none => none

/-! ## IPv6 -/

/-- The two bytes of a group, in network order. -/
def groupBytes (g : Nat) : Bytes := [UInt8.ofNat (g / 256), UInt8.ofNat (g % 256)]

/-- The locals of `inet_pton6`: the bytes written so far, where `::` was seen, and the group being
read. -/
structure Pton6 where
  tmp : Bytes
  colonp : Option Nat
  xdigitsSeen : Nat
  val : Nat
  deriving DecidableEq, Repr

/-- The loop of `inet_pton6`; `curtok` is the text from the start of the current group. -/
def Pton6.scan (curtok : Bytes) (st : Pton6) : Bytes → Option Pton6
  | [] => some st
  | ch :: src =>
      match hexDigitValue ch with
      | some digit =>
          if st.xdigitsSeen = 4 then none
          else if st.val * 16 + digit > 0xffff then none
          else scan curtok
            { st with val := st.val * 16 + digit, xdigitsSeen := st.xdigitsSeen + 1 } src
      | none =>
          if ch = chr ':' then
            if st.xdigitsSeen = 0 then
              if st.colonp.isSome then none
              else scan src { st with colonp := some st.tmp.length } src
            else if src = [] then none
            else if st.tmp.length + 2 > 16 then none
            else scan src
              { st with tmp := st.tmp ++ groupBytes st.val, xdigitsSeen := 0, val := 0 } src
          else if ch = chr '.' && st.tmp.length + 4 ≤ 16 then
            match inetPton4 curtok with
            | some octets => some { st with tmp := st.tmp ++ octets, xdigitsSeen := 0 }
            | none => none
          else none

/-- The last group of the text. -/
def Pton6.flush (st : Pton6) : Option Bytes :=
  if st.xdigitsSeen > 0 then
    if st.tmp.length + 2 > 16 then none else some (st.tmp ++ groupBytes st.val)
  else some st.tmp

/-- What follows the loop: the last group, and zeros in the place of `::`. -/
def Pton6.finish (st : Pton6) : Option Bytes :=
  match st.flush, st.colonp with
  | none, _ => none
  | some tmp, some colonp =>
      if tmp.length = 16 then none
      else some (tmp.take colonp ++ List.replicate (16 - tmp.length) 0 ++ tmp.drop colonp)
  | some tmp, none => if tmp.length = 16 then some tmp else none

/-- `inet_pton(AF_INET6, …)`: the text is not empty and does not start with a single colon. -/
def inetPton6 (src : Bytes) : Option Bytes :=
  match src with
  | [] => none
  | ch :: rest =>
      if ch = chr ':' then
        match rest with
        | [] => none
        | ch' :: _ =>
            if ch' = chr ':' then (Pton6.scan rest ⟨[], none, 0, 0⟩ rest).bind Pton6.finish else none
      else (Pton6.scan src ⟨[], none, 0, 0⟩ src).bind Pton6.finish

/-! ## Reading four printed octets -/

/-- More digits of an octet that is not zero are read while it stays below 256. -/
theorem Pton4.foldlM_digits {tmp rest : Bytes} {octets : Nat} (ds : List Nat)
    (hds : ∀ d ∈ ds, d < 10) {cur : Nat} (hcur : cur ≠ 0)
    (hle : ds.foldl (fun v d => v * 10 + d) cur ≤ 255) :
    (ds.map digitByte ++ rest).foldlM Pton4.step ⟨tmp, cur, octets, true⟩ =
      rest.foldlM Pton4.step ⟨tmp, ds.foldl (fun v d => v * 10 + d) cur, octets, true⟩ := by
  induction ds generalizing cur with
  | nil => rfl
  | cons d ds ih =>
      have hd := hds d List.mem_cons_self
      have hnew : cur * 10 + d ≤ 255 := (le_foldl_digits (by norm_num) ds _).trans hle
      have hstep : Pton4.step ⟨tmp, cur, octets, true⟩ (digitByte d) =
          some ⟨tmp, cur * 10 + d, octets, true⟩ := by
        simp only [Pton4.step, isDigit_digitByte hd, digitValue_digitByte hd, if_true,
          Bool.true_and, decide_eq_true_eq, hcur, if_false, gt_iff_lt]
        rw [if_neg (by omega)]
      rw [List.map_cons, List.cons_append, List.foldlM_cons, hstep]
      exact ih (fun x hx => hds x (List.mem_cons_of_mem _ hx)) (by omega) hle

/-- A printed octet is read back. -/
theorem Pton4.foldlM_decimal {tmp rest : Bytes} {octets n : Nat} (hn : n < 256)
    (hoctets : octets < 4) :
    (decimal n ++ rest).foldlM Pton4.step ⟨tmp, 0, octets, false⟩ =
      rest.foldlM Pton4.step ⟨tmp, n, octets + 1, true⟩ := by
  have hstep : ∀ d, d < 10 → Pton4.step ⟨tmp, 0, octets, false⟩ (digitByte d) =
      some ⟨tmp, d, octets + 1, true⟩ := by
    intro d hd
    simp only [Pton4.step, isDigit_digitByte hd, digitValue_digitByte hd, if_true,
      Bool.false_and, Bool.false_eq_true, if_false, gt_iff_lt, zero_mul, zero_add]
    rw [if_neg (by omega), if_neg (by omega)]
  unfold decimal
  split
  · subst n
    exact (congrArg (· >>= _) (hstep 0 (by norm_num))).trans rfl
  · rename_i hne
    obtain ⟨d, ds, hdigits⟩ : ∃ d ds, (Nat.digits 10 n).reverse = d :: ds := by
      cases h : (Nat.digits 10 n).reverse with
      | nil => exact absurd (List.reverse_eq_nil_iff.mp h) (Nat.digits_ne_nil_iff_ne_zero.mpr hne)
      | cons d ds => exact ⟨d, ds, rfl⟩
    have hlt : ∀ x ∈ d :: ds, x < 10 := fun x hx => by
      rw [← hdigits, List.mem_reverse] at hx
      exact Nat.digits_lt_base (by norm_num) hx
    have hd0 : d ≠ 0 := by
      have hlast := Nat.getLast_digit_ne_zero 10 hne
      rw [List.getLast_eq_head_reverse] at hlast
      simpa [hdigits] using hlast
    have hval := foldl_digits 10 n
    rw [hdigits, List.foldl_cons, zero_mul, zero_add] at hval
    rw [hdigits, List.map_cons, List.cons_append, List.foldlM_cons,
      hstep d (hlt d List.mem_cons_self)]
    refine (Pton4.foldlM_digits ds (fun x hx => hlt x (List.mem_cons_of_mem _ hx)) hd0
      (by omega)).trans ?_
    rw [hval]

/-- `a.b.c.d`. -/
def dotted (a b c d : UInt8) : Bytes :=
  decimal a.toNat ++ chr '.' :: (decimal b.toNat ++ chr '.' ::
    (decimal c.toNat ++ chr '.' :: decimal d.toNat))

/-- `inet_pton` reads a dotted address into its octets, in the order of the text. -/
theorem inetPton4_dotted (a b c d : UInt8) : inetPton4 (dotted a b c d) = some [a, b, c, d] := by
  have hdot : ∀ (tmp rest : Bytes) (cur octets : Nat), octets < 4 →
      (chr '.' :: rest).foldlM Pton4.step ⟨tmp, cur, octets, true⟩ =
        rest.foldlM Pton4.step ⟨tmp ++ [UInt8.ofNat cur], 0, octets, false⟩ := by
    intro tmp rest cur octets h
    rw [List.foldlM_cons]
    simp only [Pton4.step, show isDigit (chr '.') = false by decide, Bool.false_eq_true, if_false,
      decide_true, Bool.and_self, if_true]
    rw [if_neg (by omega)]
    rfl
  have hend : (decimal d.toNat).foldlM Pton4.step ⟨[a, b, c], 0, 3, false⟩ =
      some ⟨[a, b, c], d.toNat, 4, true⟩ := by
    rw [← List.append_nil (decimal d.toNat), Pton4.foldlM_decimal d.toNat_lt (by norm_num)]
    rfl
  unfold inetPton4 dotted
  rw [Pton4.foldlM_decimal a.toNat_lt (by norm_num), hdot _ _ _ _ (by norm_num),
    Pton4.foldlM_decimal b.toNat_lt (by norm_num), hdot _ _ _ _ (by norm_num),
    Pton4.foldlM_decimal c.toNat_lt (by norm_num), hdot _ _ _ _ (by norm_num)]
  simp only [List.nil_append, List.cons_append, UInt8.ofNat_toNat, zero_add, Nat.reduceAdd, hend]
  rfl

/-! ## Printed groups -/

/-- Groups after the first one: `:g:g…`. -/
def groupsText (gs : List Nat) : Bytes := gs.flatMap fun g => chr ':' :: hex g

/-- `g:g:…:g`. -/
def joinHex : List Nat → Bytes
  | [] => []
  | g :: gs => hex g ++ groupsText gs

/-- A group has two bytes. -/
theorem length_flatMap_groupBytes (gs : List Nat) : (gs.flatMap groupBytes).length = 2 * gs.length := by
  induction gs with
  | nil => rfl
  | cons g gs ih =>
      rw [List.flatMap_cons, List.length_append, ih, List.length_cons]
      simp only [groupBytes, List.length_cons, List.length_nil]
      omega

/-- A hexadecimal digit is no colon. -/
theorem hexByte_ne_colon {d : Nat} (h : d < 16) : hexByte d ≠ chr ':' := by
  interval_cases d <;> decide

/-! ## Dots -/

/-- After `dots` dots of an IPv4 address. -/
structure Pton4.After (dots : Nat) (st : Pton4) : Prop where
  octets : st.octets = dots + st.sawDigit.toNat
  le : st.octets ≤ 4
  digit : st.octets = 4 → st.sawDigit = true

/-- One character of an IPv4 address, which may be a dot. -/
theorem Pton4.After.step {dots : Nat} {st st' : Pton4} {c : UInt8} (h : Pton4.After dots st)
    (hstep : st.step c = some st') : Pton4.After (dots + [c].count (chr '.')) st' := by
  obtain ⟨hoctets, hle, hdigit⟩ := h
  unfold Pton4.step at hstep
  by_cases hc : isDigit c = true
  · have hdot : c ≠ chr '.' := by
      rintro rfl
      exact absurd hc (by decide)
    rw [List.count_singleton, if_neg (by simpa using hdot), Nat.add_zero]
    rw [if_pos hc] at hstep
    simp only at hstep
    split at hstep
    · cases hstep
    · split at hstep
      · cases hstep
      · split at hstep
        · obtain rfl := Option.some.inj hstep
          exact ⟨hoctets, hle, hdigit⟩
        · rename_i hsaw
          rw [Bool.not_eq_true] at hsaw
          split at hstep
          · cases hstep
          · obtain rfl := Option.some.inj hstep
            refine ⟨?_, by simp only; omega, fun _ => rfl⟩
            rw [hsaw] at hoctets
            simpa using hoctets
  · rw [if_neg hc] at hstep
    split at hstep
    · rename_i hdot
      simp only [Bool.and_eq_true, decide_eq_true_eq] at hdot
      obtain ⟨rfl, hsaw⟩ := hdot
      split at hstep
      · cases hstep
      · rename_i hfour
        obtain rfl := Option.some.inj hstep
        refine ⟨?_, hle, fun h => absurd h hfour⟩
        rw [hsaw] at hoctets
        simpa using hoctets
    · cases hstep

/-- The dots are counted over a whole text. -/
theorem Pton4.After.foldlM {src : Bytes} {dots : Nat} {st st' : Pton4} (h : Pton4.After dots st)
    (hfold : src.foldlM Pton4.step st = some st') :
    Pton4.After (dots + src.count (chr '.')) st' := by
  induction src generalizing dots st with
  | nil =>
      obtain rfl := Option.some.inj hfold
      exact h
  | cons c src ih =>
      rw [List.foldlM_cons] at hfold
      obtain ⟨next, hstep, hfold⟩ := Option.bind_eq_some_iff.mp hfold
      rw [← List.singleton_append, List.count_append, ← Nat.add_assoc]
      exact ih (h.step hstep) hfold

/-- An IPv4 address has three dots. -/
theorem inetPton4_dots {src b : Bytes} (h : inetPton4 src = some b) : src.count (chr '.') = 3 := by
  unfold inetPton4 at h
  split at h
  · rename_i st hfold
    have hstart : Pton4.After 0 ⟨[], 0, 0, false⟩ := ⟨rfl, by decide, fun h => absurd h (by decide)⟩
    obtain ⟨hoctets, hle, hdigit⟩ := hstart.foldlM hfold
    split at h
    · cases h
    · have hfour : st.octets = 4 := by omega
      rw [hdigit hfour, hfour, Bool.toNat_true] at hoctets
      omega
  · cases h

/-- An accepted text has no dots, or the three of its IPv4 tail. -/
theorem Pton6.scan_dots {tok src : Bytes} {st st' : Pton6}
    (htok : tok.count (chr '.') = src.count (chr '.')) (h : Pton6.scan tok st src = some st') :
    src.count (chr '.') = 0 ∨ src.count (chr '.') = 3 := by
  induction src generalizing tok st with
  | nil => exact .inl rfl
  | cons c src ih =>
      rw [Pton6.scan] at h
      by_cases hdot : c = chr '.'
      · subst hdot
        simp only [show hexDigitValue (chr '.') = none by decide,
          if_neg (show chr '.' ≠ chr ':' by decide)] at h
        split at h
        · split at h
          · rename_i octets hoctets
            exact .inr (htok.symm.trans (inetPton4_dots hoctets))
          · cases h
        · cases h
      · have hcount : (c :: src).count (chr '.') = src.count (chr '.') :=
          List.count_cons_of_ne hdot
        rw [hcount] at htok ⊢
        split at h
        · split at h
          · cases h
          · split at h
            · cases h
            · exact ih htok h
        · split at h
          · split at h
            · split at h
              · cases h
              · exact ih rfl h
            · split at h
              · cases h
              · split at h
                · cases h
                · exact ih rfl h
          · rw [if_neg (by simp [hdot])] at h
            cases h

/-- An IPv6 address has no dots, or three in its tail. -/
theorem inetPton6_dots {src b : Bytes} (h : inetPton6 src = some b) :
    src.count (chr '.') = 0 ∨ src.count (chr '.') = 3 := by
  unfold inetPton6 at h
  split at h
  · cases h
  · rename_i c rest
    split at h
    · rename_i hc
      have hcount : (c :: rest).count (chr '.') = rest.count (chr '.') :=
        List.count_cons_of_ne fun hdot => absurd (hc.symm.trans hdot) (by decide)
      rw [hcount]
      split at h
      · cases h
      · split at h
        · obtain ⟨st, hscan, -⟩ := Option.bind_eq_some_iff.mp h
          exact Pton6.scan_dots rfl hscan
        · cases h
    · obtain ⟨st, hscan, -⟩ := Option.bind_eq_some_iff.mp h
      exact Pton6.scan_dots rfl hscan

/-! ## What is not read -/

/-- An IPv4 address with a blank is rejected. -/
theorem inetPton4_blank {src : Bytes} (h : chr ' ' ∈ src) : inetPton4 src = none := by
  have hfold : ∀ st, src.foldlM Pton4.step st = none := by
    intro st
    induction src generalizing st with
    | nil => cases h
    | cons c src ih =>
        rw [List.foldlM_cons]
        rcases List.mem_cons.mp h with rfl | h
        · have hstep : st.step (chr ' ') = none := by
            simp [Pton4.step, show isDigit (chr ' ') = false by decide,
              show chr ' ' ≠ chr '.' by decide]
          rw [hstep]
          rfl
        · cases st.step c with
          | none => rfl
          | some st' => exact ih h st'
  rw [inetPton4, hfold]

/-- A text with a blank is not accepted. -/
theorem Pton6.scan_blank {src : Bytes} (h : chr ' ' ∈ src) {tok : Bytes} (htok : chr ' ' ∈ tok)
    (st : Pton6) : Pton6.scan tok st src = none := by
  induction src generalizing tok st with
  | nil => cases h
  | cons c src ih =>
      unfold Pton6.scan
      rcases List.mem_cons.mp h with rfl | h
      · simp [show hexDigitValue (chr ' ') = none by decide, show chr ' ' ≠ chr ':' by decide,
          show chr ' ' ≠ chr '.' by decide]
      · cases hexDigitValue c with
        | some digit => simp only [ih h htok, ite_self]
        | none => simp only [ih h h, ite_self, inetPton4_blank htok]

/-- An IPv6 address with a blank is rejected. -/
theorem inetPton6_blank {src : Bytes} (h : chr ' ' ∈ src) : inetPton6 src = none := by
  cases src with
  | nil => cases h
  | cons c src =>
      by_cases hc : c = chr ':'
      · have hmem : chr ' ' ∈ src :=
          (List.mem_cons.mp h).resolve_left fun he => absurd (he.trans hc) (by decide)
        simp only [inetPton6, hc, if_true]
        cases src with
        | nil => rfl
        | cons c' src => simp only [Pton6.scan_blank hmem hmem, Option.bind_none, ite_self]
      · simp only [inetPton6, hc, if_false, Pton6.scan_blank h h, Option.bind_none]

end SocialNetwork.Net
