import SocialNetwork.Foundation.Bytes

/-!
# Keyword/value strings

The grammar of a connection string of `keyword = value` settings: blanks are skipped before a
keyword and after the `=`, an unquoted value runs to the next white space, a backslash escapes the
next character, and a value that starts with a single quote runs to the closing quote.

* `conninfo`, the settings of a string in the order in which they are written;
* `PlainValue`, the values that need no quoting;
* `value_eq_iff` and `settings_eq_cons_iff`: a value that is written as it is, with another setting
  behind it, is read back exactly if it is plain.
-/

namespace SocialNetwork.Foundation

/-! ## The grammar -/

/-- An unquoted value, and the text after the white space that ends it. -/
def unquoted : Bytes → Bytes × Bytes
  | [] => ([], [])
  | c :: s =>
      if isSpace c then ([], s)
      else if c = chr '\\' then
        match s with
        | [] => ([], [])
        | d :: s => (d :: (unquoted s).1, (unquoted s).2)
      else (c :: (unquoted s).1, (unquoted s).2)

/-- A quoted value after its opening quote, and the text after the closing one. -/
def quoted : Bytes → Option (Bytes × Bytes)
  | [] => none
  | c :: s =>
      if c = chr '\\' then
        match s with
        | [] => none
        | d :: s => (quoted s).map fun r => (d :: r.1, r.2)
      else if c = chr '\'' then some ([], s)
      else (quoted s).map fun r => (c :: r.1, r.2)

/-- A value after its `=`, and the text after it; `none` is an unterminated quote. -/
def value (s : Bytes) : Option (Bytes × Bytes) :=
  match s.dropWhile isSpace with
  | [] => some ([], [])
  | c :: s => if c = chr '\'' then quoted s else some (unquoted (c :: s))

/-- A keyword, and the text after its `=`; `none` is a missing `=`. -/
def keyword (s : Bytes) : Option (Bytes × Bytes) :=
  match s.span fun c => c ≠ chr '=' && !isSpace c with
  | (name, s) =>
      match s.dropWhile isSpace with
      | [] => none
      | c :: s => if c = chr '=' then some (name, s) else none

/-- At most `fuel` settings of a string. -/
def settings : Nat → Bytes → Option (List (Bytes × Bytes))
  | fuel, s =>
      match s.dropWhile isSpace with
      | [] => some []
      | c :: s =>
          match fuel with
          | 0 => none
          | fuel + 1 => do
              let (name, s) ← keyword (c :: s)
              let (v, s) ← value s
              let rest ← settings fuel s
              return (name, v) :: rest

/-- The settings of a connection string in the order in which they are written; `none` is a syntax
error. A setting takes up at least the `=`, so the length bounds their number. -/
def conninfo (s : Bytes) : Option (List (Bytes × Bytes)) := settings s.length s

/-! ## Values without quoting -/

/-- A character with a meaning of its own in an unquoted value. -/
def isBreaking (c : UInt8) : Bool := isSpace c || c = chr '\\'

/-- A value that stands for itself without quotes. -/
def PlainValue (v : Bytes) : Prop :=
  v ≠ [] ∧ (∀ c ∈ v, isBreaking c = false) ∧ v.head? ≠ some (chr '\'')

instance (v : Bytes) : Decidable (PlainValue v) := inferInstanceAs (Decidable (_ ∧ _ ∧ _))

theorem isBreaking_false {c : UInt8} (h : isBreaking c = false) :
    isSpace c = false ∧ c ≠ chr '\\' := by
  simpa [isBreaking] using h

/-- An ordinary character is taken as it is. -/
theorem unquoted_plain {c : UInt8} (h : isBreaking c = false) (s : Bytes) :
    unquoted (c :: s) = (c :: (unquoted s).1, (unquoted s).2) := by
  obtain ⟨hspace, hslash⟩ := isBreaking_false h
  rw [unquoted.eq_def]
  simp only [hspace, Bool.false_eq_true, if_false, hslash]

/-- A blank ends the value. -/
theorem unquoted_space {c : UInt8} (h : isSpace c = true) (s : Bytes) :
    unquoted (c :: s) = ([], s) := by
  rw [unquoted.eq_def]
  simp only [h, if_true]

/-- A backslash escapes the next character. -/
theorem unquoted_escape (c : UInt8) (s : Bytes) :
    unquoted (chr '\\' :: c :: s) = (c :: (unquoted s).1, (unquoted s).2) := by
  rw [unquoted.eq_def]
  rfl

/-- Ordinary characters are taken as they are. -/
theorem unquoted_append {v : Bytes} (hv : ∀ c ∈ v, isBreaking c = false) (s : Bytes) :
    unquoted (v ++ s) = (v ++ (unquoted s).1, (unquoted s).2) := by
  induction v with
  | nil => rfl
  | cons c v ih =>
      rw [List.cons_append, unquoted_plain (hv c List.mem_cons_self),
        ih fun x hx => hv x (List.mem_cons_of_mem _ hx), List.cons_append]

/-- A plain value is read as it is. -/
theorem value_append {v : Bytes} (hv : PlainValue v) (s : Bytes) :
    value (v ++ s) = some (v ++ (unquoted s).1, (unquoted s).2) := by
  obtain ⟨hne, hchars, hquote⟩ := hv
  cases v with
  | nil => exact absurd rfl hne
  | cons c v =>
      have hc : c ≠ chr '\'' := fun hc => hquote (by rw [hc]; rfl)
      obtain ⟨hspace, -⟩ := isBreaking_false (hchars c List.mem_cons_self)
      have hdrop : (c :: v ++ s).dropWhile isSpace = c :: (v ++ s) := by
        rw [List.cons_append, List.dropWhile_cons_of_neg (by simp [hspace])]
      rw [value, hdrop]
      simp only [hc, if_false]
      rw [← List.cons_append, unquoted_append hchars]

/-- **A plain value is read to the blank behind it.** -/
theorem value_plain {v : Bytes} (hv : PlainValue v) (s : Bytes) :
    value (v ++ chr ' ' :: s) = some (v, s) := by
  rw [value_append hv, unquoted_space (by decide) s, List.append_nil]

/-- A plain value at the end of the string. -/
theorem value_plain_end {v : Bytes} (hv : PlainValue v) : value v = some (v, []) := by
  have hread := value_append hv []
  rw [List.append_nil] at hread
  rw [hread]
  simp [unquoted]

/-! ## Values that are read back

A value that is written as it is and read back as itself cannot contain an escape: from the escape
on the reader is ahead of the writer, by characters that all have to be escaped again. `d` is what
the reader is ahead by. -/

/-- Where a character of an unquoted value comes from. -/
theorem unquoted_cons {t x r : Bytes} {c : UInt8} (h : unquoted t = (c :: x, r)) :
    (∃ s, t = c :: s ∧ isBreaking c = false ∧ unquoted s = (x, r)) ∨
      ∃ s, t = chr '\\' :: c :: s ∧ unquoted s = (x, r) := by
  cases t with
  | nil => cases h
  | cons b t =>
      by_cases hspace : isSpace b = true
      · rw [unquoted_space hspace] at h
        cases h
      · by_cases hslash : b = chr '\\'
        · subst hslash
          cases t with
          | nil => cases h
          | cons e t =>
              rw [unquoted_escape] at h
              cases h
              exact .inr ⟨t, rfl, rfl⟩
        · have hplain : isBreaking b = false := by simp [isBreaking, hspace, hslash]
          rw [unquoted_plain hplain] at h
          cases h
          exact .inl ⟨t, rfl, hplain, rfl⟩

/-- Where a character of a quoted value comes from. -/
theorem quoted_cons {t x r : Bytes} {c : UInt8} (h : quoted t = some (c :: x, r)) :
    (∃ s, t = c :: s ∧ c ≠ chr '\\' ∧ c ≠ chr '\'' ∧ quoted s = some (x, r)) ∨
      ∃ s, t = chr '\\' :: c :: s ∧ quoted s = some (x, r) := by
  cases t with
  | nil => cases h
  | cons b t =>
      rw [quoted.eq_def] at h
      by_cases hslash : b = chr '\\'
      · cases t with
        | nil => simp [hslash] at h
        | cons e t =>
            simp only [hslash, if_true] at h
            obtain ⟨⟨x', r'⟩, hread, heq⟩ := Option.map_eq_some_iff.mp h
            simp only [Prod.mk.injEq, List.cons.injEq] at heq
            obtain ⟨⟨rfl, rfl⟩, rfl⟩ := heq
            exact .inr ⟨t, by rw [hslash], hread⟩
      · by_cases hquote : b = chr '\''
        · simp [hquote, show chr '\'' ≠ chr '\\' by decide] at h
        · simp only [hslash, hquote, if_false] at h
          obtain ⟨⟨x', r'⟩, hread, heq⟩ := Option.map_eq_some_iff.mp h
          simp only [Prod.mk.injEq, List.cons.injEq] at heq
          obtain ⟨⟨rfl, rfl⟩, rfl⟩ := heq
          exact .inl ⟨t, rfl, hslash, hquote, hread⟩

section lag

variable {o : UInt8} {rest : Bytes}

/-- An unquoted value that is ahead by characters that break a value is not read back. -/
theorem unquoted_lag (ho : isBreaking o = false) {x t d r : Bytes} (hread : unquoted t = (x, r))
    (htext : x ++ chr ' ' :: o :: rest = d ++ t) (hd : d ≠ [])
    (hbreak : ∀ c ∈ d, isBreaking c = true) : False := by
  induction x generalizing t d with
  | nil =>
      cases d with
      | nil => exact hd rfl
      | cons c d =>
          obtain ⟨-, htail⟩ := List.cons.inj htext
          cases d with
          | nil =>
              -- the rest of the text starts with an ordinary character
              obtain rfl : o :: rest = t := htail
              rw [unquoted_plain ho] at hread
              cases hread
          | cons b d =>
              obtain ⟨rfl, -⟩ := List.cons.inj htail
              have := hbreak o (by simp)
              rw [ho] at this
              cases this
  | cons h x ih =>
      cases d with
      | nil => exact hd rfl
      | cons c d =>
          obtain ⟨rfl, htail⟩ := List.cons.inj htext
          have hh := hbreak h List.mem_cons_self
          rcases unquoted_cons hread with ⟨s, -, hplain, -⟩ | ⟨s, rfl, hs⟩
          · rw [hplain] at hh
            cases hh
          · refine ih hs (d := d ++ [chr '\\', h]) (by simpa using htail) (by simp) ?_
            intro y hy
            simp only [List.mem_append, List.mem_cons, List.not_mem_nil, or_false] at hy
            rcases hy with hy | rfl | rfl
            · exact hbreak y (List.mem_cons_of_mem _ hy)
            · decide
            · exact hh

/-- A quoted value that is ahead by a quote is not read back. -/
theorem quoted_lag (ho : isBreaking o = false) (ho' : o ≠ chr '\'') {x t d r : Bytes}
    (hread : quoted t = some (x, r)) (htext : x ++ chr ' ' :: o :: rest = d ++ t)
    (hquote : chr '\'' ∈ d) (hbreak : ∀ c ∈ d, isBreaking c = true ∨ c = chr '\'') : False := by
  induction x generalizing t d with
  | nil =>
      cases d with
      | nil => cases hquote
      | cons c d =>
          obtain ⟨rfl, htail⟩ := List.cons.inj htext
          cases d with
          | nil => exact absurd hquote (by decide)
          | cons b d =>
              obtain ⟨rfl, -⟩ := List.cons.inj htail
              rcases hbreak o (by simp) with h | h
              · rw [ho] at h
                cases h
              · exact ho' h
  | cons h x ih =>
      cases d with
      | nil => cases hquote
      | cons c d =>
          obtain ⟨rfl, htail⟩ := List.cons.inj htext
          have hmem : ∀ l, chr '\'' ∈ d ++ (l ++ [h]) := fun l => by
            rcases List.mem_cons.mp hquote with heq | hin
            · simp [heq]
            · simp [hin]
          have hall : ∀ y ∈ d ++ [h], isBreaking y = true ∨ y = chr '\'' := fun y hy =>
            hbreak y (by simpa [or_comm] using hy)
          rcases quoted_cons hread with ⟨s, rfl, -, -, hs⟩ | ⟨s, rfl, hs⟩
          · exact ih hs (d := d ++ ([] ++ [h])) (by simpa using htail) (hmem []) hall
          · refine ih hs (d := d ++ ([chr '\\'] ++ [h])) (by simpa using htail) (hmem _) ?_
            intro y hy
            simp only [List.mem_append, List.mem_cons, List.not_mem_nil, or_false] at hy
            rcases hy with hy | rfl | rfl
            · exact hall y (by simp [hy])
            · exact .inl (by decide)
            · exact hall y (by simp)

/-- An unquoted value that is read back as it was written contains no escape and no blank. -/
theorem unquoted_self (ho : isBreaking o = false) {v r : Bytes}
    (h : unquoted (v ++ chr ' ' :: o :: rest) = (v, r)) : ∀ c ∈ v, isBreaking c = false := by
  induction v with
  | nil => exact fun c hc => by cases hc
  | cons c v ih =>
      rcases unquoted_cons h with ⟨s, hs, hplain, hread⟩ | ⟨s, hs, hread⟩
      · obtain rfl : v ++ chr ' ' :: o :: rest = s := (List.cons.inj hs).2
        intro y hy
        rcases List.mem_cons.mp hy with rfl | hy
        · exact hplain
        · exact ih hread y hy
      · obtain ⟨rfl, htail⟩ := List.cons.inj hs
        exact (unquoted_lag ho hread (d := [chr '\\']) htail (by simp)
          (by simp [show isBreaking (chr '\\') = true by decide])).elim

/-- **The values that are read back as they were written are the plain ones.** -/
theorem value_eq_iff (ho : isBreaking o = false) (ho' : o ≠ chr '\'') {v r : Bytes} :
    value (v ++ chr ' ' :: o :: rest) = some (v, r) ↔ PlainValue v ∧ r = o :: rest := by
  constructor
  · intro h
    have hplain : PlainValue v := by
      obtain ⟨blanks, hlead⟩ : ∃ b, (v ++ chr ' ' :: o :: rest).takeWhile isSpace = b := ⟨_, rfl⟩
      have hblanks : ∀ c ∈ blanks, isBreaking c = true := fun c hc => by
        rw [← hlead] at hc
        simp [isBreaking, List.mem_takeWhile_imp hc]
      have hsplit := List.takeWhile_append_dropWhile (p := isSpace) (l := v ++ chr ' ' :: o :: rest)
      rw [hlead] at hsplit
      unfold value at h
      cases hdrop : (v ++ chr ' ' :: o :: rest).dropWhile isSpace with
      | nil =>
          have hspace := List.dropWhile_eq_nil_iff.mp hdrop o (by simp)
          rw [(isBreaking_false ho).1] at hspace
          cases hspace
      | cons c t =>
          rw [hdrop] at h hsplit
          by_cases hc : c = chr '\''
          · have htext : v ++ chr ' ' :: o :: rest = (blanks ++ [chr '\'']) ++ t := by
              rw [← hsplit, hc]
              simp
            simp only [hc, if_true] at h
            refine (quoted_lag ho ho' h htext (by simp) fun y hy => ?_).elim
            rcases List.mem_append.mp hy with hy | hy
            · exact .inl (hblanks y hy)
            · exact .inr (by simpa using hy)
          · simp only [hc, if_false, Option.some.injEq] at h
            by_cases hnil : blanks = []
            · rw [hnil, List.nil_append] at hsplit
              rw [hsplit] at h
              refine ⟨?_, unquoted_self ho h, ?_⟩
              · rintro rfl
                rw [hnil] at hlead
                simp [show isSpace (chr ' ') = true by decide] at hlead
              · intro hhead
                cases v with
                | nil => cases hhead
                | cons b v => exact hc ((List.cons.inj hsplit).1.trans (Option.some.inj hhead))
            · exact (unquoted_lag ho h hsplit.symm hnil hblanks).elim
    rw [value_plain hplain, Option.some.injEq, Prod.mk.injEq] at h
    exact ⟨hplain, h.2.symm⟩
  · rintro ⟨hplain, rfl⟩
    exact value_plain hplain _

end lag

/-! ## One setting after another -/

/-- A word that can be a keyword. -/
def IsKeyword (name : Bytes) : Prop :=
  name ≠ [] ∧ ∀ c ∈ name, c ≠ chr '=' ∧ isSpace c = false

instance (name : Bytes) : Decidable (IsKeyword name) := inferInstanceAs (Decidable (_ ∧ _))

/-- A keyword in front of its `=`. -/
theorem keyword_append {name : Bytes} (hname : IsKeyword name) (s : Bytes) :
    keyword (name ++ chr '=' :: s) = some (name, s) := by
  have hspan : (name ++ chr '=' :: s).span (fun c => c ≠ chr '=' && !isSpace c) =
      (name, chr '=' :: s) :=
    span_append_cons (fun c hc => by simp [hname.2 c hc]) (by decide)
  rw [keyword, hspan]
  rfl

/-- The first setting of a string, and the others. -/
theorem settings_append {name : Bytes} (hname : IsKeyword name) (fuel : Nat) (s : Bytes) :
    settings (fuel + 1) (name ++ chr '=' :: s) =
      (value s).bind fun r => (settings fuel r.2).map ((name, r.1) :: ·) := by
  have hkeyword := keyword_append hname s
  cases name with
  | nil => exact absurd rfl hname.1
  | cons c name =>
      have hdrop : (c :: name ++ chr '=' :: s).dropWhile isSpace = c :: name ++ chr '=' :: s := by
        rw [List.cons_append, List.dropWhile_cons_of_neg (by simp [hname.2 c List.mem_cons_self])]
      rw [List.cons_append] at hkeyword hdrop ⊢
      rw [settings.eq_def]
      simp only [hdrop, hkeyword, bind, Option.bind_some, pure, Option.map_eq_bind]
      rfl

/-- A text that starts with an ordinary character, as a keyword does. -/
def startsOrdinary (s : Bytes) : Bool := s.head?.any fun o => !isBreaking o && o ≠ chr '\''

/-- **A setting that is written without quotes is read as it was written exactly if its value is
plain**, and then the settings behind it are read from their start. -/
theorem settings_eq_cons_iff {name v next : Bytes} {l : List (Bytes × Bytes)}
    (hname : IsKeyword name) (hnext : startsOrdinary next = true) (fuel : Nat) :
    settings (fuel + 1) (name ++ chr '=' :: (v ++ chr ' ' :: next)) = some ((name, v) :: l) ↔
      PlainValue v ∧ settings fuel next = some l := by
  obtain ⟨o, rest, rfl, ho, ho'⟩ : ∃ o rest, next = o :: rest ∧ isBreaking o = false ∧
      o ≠ chr '\'' := by
    cases next with
    | nil => cases hnext
    | cons o rest => exact ⟨o, rest, rfl, by simpa [startsOrdinary] using hnext⟩
  rw [settings_append hname]
  constructor
  · intro h
    obtain ⟨⟨x, r⟩, hread, h⟩ := Option.bind_eq_some_iff.mp h
    obtain ⟨l', hl, heq⟩ := Option.map_eq_some_iff.mp h
    simp only [List.cons.injEq, Prod.mk.injEq, true_and] at heq
    obtain ⟨rfl, rfl⟩ := heq
    obtain ⟨hplain, rfl⟩ := (value_eq_iff ho ho').mp hread
    exact ⟨hplain, hl⟩
  · rintro ⟨hplain, hl⟩
    rw [value_plain hplain, Option.bind_some, hl]
    rfl

end SocialNetwork.Foundation
