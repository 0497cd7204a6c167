import SocialNetwork.Helpers.Numbers
import SocialNetwork.Helpers.UrlPrinting

/-!
# Ports of authorities

What `Url::parse_authority` makes of the text after the host and the colon. The port is what
`std::stoi` reads at the start of that text, if it is in `1..65535` (`parsePort_eq_ok_iff`); the rest
of the text is not looked at, so that white space and a sign in front of the digits and anything
after them pass (`port_grammar_iff`).
-/

namespace SocialNetwork.Helpers

open Foundation

namespace Url

/-- The host part of an authority: in brackets, or without a colon. -/
inductive HostPart : Bytes → Prop
  | plain {h : Bytes} (hhead : h.head? ≠ some (chr '[')) (hcolon : chr ':' ∉ h) : HostPart h
  | bracketed {h : Bytes} (hclose : chr ']' ∉ h) : HostPart (chr '[' :: (h ++ [chr ']']))

/-- The part before the host: nothing, or user info and an `@`. -/
inductive UserPart : Bytes → Prop
  | none : UserPart []
  | user {u : Bytes} (hu : ∀ c ∈ u, c ∉ str "/?#") : UserPart (u ++ [chr '@'])

/-- The text after the host: nothing, or a colon and the text of the port. -/
inductive PortPart : Bytes → Prop
  | none : PortPart []
  | port (p : Bytes) : PortPart (chr ':' :: p)

/-- A text of digits that denotes a number in `1..65535`. -/
def PortGrammar (p : Bytes) (n : Nat) : Prop :=
  (∀ c ∈ p, isDigit c = true) ∧ numeral p = n ∧ 1 ≤ n ∧ n ≤ 65535

/-! ## The port -/

/-- **The ports that the parser accepts.** -/
theorem parsePort_eq_ok_iff {p : Bytes} (hp : p ≠ []) {port : UInt16} :
    parsePort p = .ok port ↔ signedNumeral 10 p = some (port.toNat : Int) ∧ 1 ≤ port.toNat := by
  have hlt := port.toNat_lt
  rw [parsePort, if_neg hp]
  cases hparse : tryParseInt p with
  | none =>
      refine iff_of_false (fun h => by cases h) ?_
      rintro ⟨hnumeral, -⟩
      rw [tryParseInt_eq_some_iff.mpr ⟨hnumeral, by omega, by omega⟩] at hparse
      cases hparse
  | some nport =>
      obtain ⟨hnumeral, -, -⟩ := tryParseInt_eq_some_iff.mp hparse
      dsimp only
      rw [hnumeral, Option.some.injEq]
      split_ifs with hrange
      · have hport : (UInt16.ofNat nport.toNat).toNat = nport.toNat := toNat_port (by omega)
        rw [Except.ok.injEq, ← UInt16.toNat_inj, hport]
        omega
      · refine iff_of_false (fun h => by cases h) ?_
        omega

/-- A text of the grammar is accepted, and is the port. -/
theorem parsePort_of_grammar {p : Bytes} {n : Nat} (hp : p ≠ []) (h : PortGrammar p n) :
    parsePort p = .ok (UInt16.ofNat n) := by
  obtain ⟨hdigits, hnumeral, hpos, hle⟩ := h
  have hport : (UInt16.ofNat n).toNat = n := toNat_port hle
  rw [parsePort_eq_ok_iff hp, hport, signedNumeral_digits hp hdigits, hnumeral]
  exact ⟨rfl, hpos⟩

/-- **The parser keeps to the grammar** for a text of digits and for a text whose numeral is out of
range. -/
theorem parsePort_grammar_iff {p : Bytes} (hp : p ≠ []) :
    (∀ n, (∃ port, parsePort p = .ok port ∧ port.toNat = n) ↔ PortGrammar p n) ↔
      (∀ c ∈ p, isDigit c = true) ∨
        ∀ x, signedNumeral 10 p = some x → ¬(1 ≤ x ∧ x ≤ 65535) := by
  constructor
  · intro h
    by_contra hcon
    push Not at hcon
    obtain ⟨⟨c, hc, hdigit⟩, x, hx, hpos, hle⟩ := hcon
    have hport : (UInt16.ofNat x.toNat).toNat = x.toNat := toNat_port (by omega)
    obtain ⟨hdigits, -⟩ := (h x.toNat).mp ⟨UInt16.ofNat x.toNat,
      (parsePort_eq_ok_iff hp).mpr ⟨by rw [hx, hport, Int.toNat_of_nonneg (by omega)], by omega⟩,
      hport⟩
    exact hdigit (hdigits c hc)
  · intro h n
    constructor
    · rintro ⟨port, hok, rfl⟩
      obtain ⟨hnumeral, hpos⟩ := (parsePort_eq_ok_iff hp).mp hok
      have hlt := port.toNat_lt
      rcases h with hdigits | hout
      · rw [signedNumeral_digits hp hdigits, Option.some.injEq] at hnumeral
        exact ⟨hdigits, by exact_mod_cast hnumeral, hpos, by omega⟩
      · exact absurd ⟨by omega, by omega⟩ (hout _ hnumeral)
    · intro hgrammar
      exact ⟨UInt16.ofNat n, parsePort_of_grammar hp hgrammar, toNat_port hgrammar.2.2.2⟩

/-! ## The authority -/

/-- A host part is read to its end. -/
theorem parseHost_hostPart {t rest : Bytes} (ht : HostPart t) (hrest : PortPart rest) :
    ∃ host, parseHost (t ++ rest) = .ok (host, rest) := by
  cases ht with
  | plain hhead hcolon =>
      have hopen : (t ++ rest).head? ≠ some (chr '[') := by
        cases t with
        | nil =>
            cases hrest with
            | none => exact fun h => by cases h
            | port p => exact fun h => absurd (Option.some.inj h) (by decide)
        | cons c t => exact hhead
      rw [parseHost_plain hopen]
      cases hrest with
      | none => exact ⟨t, by rw [List.append_nil, span_eq_self (decide_ne_of_not_mem hcolon)]⟩
      | port p => exact ⟨t, by rw [span_append_cons (decide_ne_of_not_mem hcolon) (by decide)]⟩
  | @bracketed h hclose =>
      have htext : chr '[' :: (h ++ [chr ']']) ++ rest = chr '[' :: (h ++ chr ']' :: rest) := by simp
      refine ⟨h, ?_⟩
      rw [htext, parseHost, if_pos rfl, span_append_cons (decide_ne_of_not_mem hclose) (by decide)]

/-- The user info ends at the last `@`. -/
theorem authorityLoop_user {u : Bytes} (hu : ∀ c ∈ u, c ∉ str "/?#") (userInfo part it : Bytes) :
    ∃ info, authorityLoop userInfo part (u ++ chr '@' :: it) = authorityLoop info [] it := by
  induction u generalizing userInfo part with
  | nil => exact ⟨part, authorityLoop_at userInfo part it⟩
  | cons c u ih =>
      have hc : c ≠ chr '/' ∧ c ≠ chr '?' ∧ c ≠ chr '#' := by
        simpa [str] using hu c List.mem_cons_self
      obtain ⟨hslash, hquery, hfragment⟩ := hc
      have hrest := ih fun x hx => hu x (List.mem_cons_of_mem _ hx)
      rw [List.cons_append, authorityLoop, if_neg (by simp [hslash, hquery, hfragment])]
      split
      · exact hrest part []
      · exact hrest userInfo (part ++ [c])

/-- **The outcome of an authority** is that of its port. -/
theorem parseAuthority_parts {user t pp it : Bytes} (huser : UserPart user) (ht : HostPart t)
    (hchars : ∀ c ∈ t ++ pp, c ∉ str "@/?#") (hpp : PortPart pp)
    (hit : ∀ c, it.head? = some c → c ∈ str "/?#") (url : Url) :
    ∃ info host, parseAuthority url (user ++ (t ++ pp) ++ it) =
      match parsePortPart pp with
      | .ok port => .ok ({ url with userInfo := info, host := host, port := port }, it)
      | .error e => .error e := by
  have hloop : ∃ info, authorityLoop [] [] (user ++ (t ++ pp) ++ it) = (info, t ++ pp, it) := by
    have hpart : ∀ info, authorityLoop info [] (t ++ pp ++ it) = (info, t ++ pp, it) := fun info => by
      rw [authorityLoop_append hchars, authorityLoop_end hit, List.nil_append]
    cases huser with
    | none => exact ⟨[], hpart []⟩
    | @user u hu =>
        obtain ⟨info, hinfo⟩ := authorityLoop_user hu [] [] (t ++ pp ++ it)
        refine ⟨info, ?_⟩
        rw [List.append_assoc, List.append_assoc, List.singleton_append, hinfo, hpart]
  obtain ⟨info, hloop⟩ := hloop
  obtain ⟨host, hhost⟩ := parseHost_hostPart ht hpp
  refine ⟨info, hostCase host, ?_⟩
  rw [parseAuthority, hloop]
  dsimp only
  rw [parseHostAndPort, hhost]
  cases hport : parsePortPart pp with
  | error e => simp only [bind, Except.bind, hport]
  | ok port =>
      simp only [bind, Except.bind, hport]
      rfl

/-- The parser accepts an authority and gives the URL a port. -/
def Specifies (url : Url) (authority it : Bytes) (n : Nat) : Prop :=
  ∃ url', parseAuthority url (authority ++ it) = .ok (url', it) ∧ url'.port.toNat = n

/-- An authority specifies the port of its port text. -/
theorem specifies_iff {user t pp it : Bytes} (huser : UserPart user) (ht : HostPart t)
    (hchars : ∀ c ∈ t ++ pp, c ∉ str "@/?#") (hpp : PortPart pp)
    (hit : ∀ c, it.head? = some c → c ∈ str "/?#") (url : Url) (n : Nat) :
    Specifies url (user ++ (t ++ pp)) it n ↔ ∃ port, parsePortPart pp = .ok port ∧
      port.toNat = n := by
  obtain ⟨info, host, hparse⟩ := parseAuthority_parts huser ht hchars hpp hit url
  rw [Specifies, hparse]
  cases parsePortPart pp with
  | error e => exact iff_of_false (fun ⟨_, h, _⟩ => by cases h) fun ⟨_, h, _⟩ => by cases h
  | ok port =>
      constructor
      · rintro ⟨url', hok, hn⟩
        cases hok
        exact ⟨port, rfl, hn⟩
      · rintro ⟨port', hok, hn⟩
        cases hok
        exact ⟨_, rfl, hn⟩

/-- **The ports of authorities.** An authority with a well-formed host and no port text has port 0. One
with a port text is accepted, with that number, exactly if the text consists of digits and denotes a
number in `1..65535`; this holds exactly of the port texts that consist of digits and of those whose
leading numeral, after white space and a sign, is not in that range.

Source: `Url::parse_authority`, `Url::parse_host_and_port`, `NumberParserHelpers::try_parse_int`. -/
theorem port_grammar_iff (url : Url) {user t p it : Bytes} (huser : UserPart user) (ht : HostPart t)
    (hchars : ∀ c ∈ t ++ p, c ∉ str "@/?#") (hit : ∀ c, it.head? = some c → c ∈ str "/?#") :
    Specifies url (user ++ t) it 0 ∧ Specifies url (user ++ (t ++ str ":")) it 0 ∧
    ((p ≠ [] → ∀ n, Specifies url (user ++ (t ++ chr ':' :: p)) it n ↔ PortGrammar p n) ↔
      (∀ c ∈ p, isDigit c = true) ∨
        ∀ x, signedNumeral 10 p = some x → ¬(1 ≤ x ∧ x ≤ 65535)) := by
  have ht' : ∀ c ∈ t, c ∉ str "@/?#" := fun c hc => hchars c (List.mem_append_left _ hc)
  have hport : ∀ q : Bytes, (∀ c ∈ q, c ∉ str "@/?#") →
      ∀ c ∈ t ++ chr ':' :: q, c ∉ str "@/?#" := by
    intro q hq c hc
    rcases List.mem_append.mp hc with hc | hc
    · exact ht' c hc
    · rcases List.mem_cons.mp hc with rfl | hc
      · decide
      · exact hq c hc
  refine ⟨?_, ?_, ?_⟩
  · rw [← List.append_nil t]
    exact (specifies_iff huser ht (by rwa [List.append_nil]) .none hit url 0).mpr ⟨0, rfl, rfl⟩
  · exact (specifies_iff huser ht (hport [] (by simp)) (.port []) hit url 0).mpr ⟨0, rfl, rfl⟩
  · have hp : ∀ c ∈ p, c ∉ str "@/?#" := fun c hc => hchars c (List.mem_append_right _ hc)
    by_cases hne : p = []
    · exact iff_of_true (fun h => absurd hne h) (.inl (by simp [hne]))
    · rw [← parsePort_grammar_iff hne]
      simp only [specifies_iff huser ht (hport p hp) (.port p) hit url]
      exact ⟨fun h => h hne, fun h _ => h⟩

theorem port_grammar_example :
    Specifies empty ([] ++ str "db.example") [] 0 ∧
    Specifies empty ([] ++ (str "db.example" ++ str ":")) [] 0 ∧
    ((str "80abc" ≠ [] → ∀ n, Specifies empty ([] ++ (str "db.example" ++ chr ':' :: str "80abc")) []
        n ↔ PortGrammar (str "80abc") n) ↔
      (∀ c ∈ str "80abc", isDigit c = true) ∨
        ∀ x, signedNumeral 10 (str "80abc") = some x → ¬(1 ≤ x ∧ x ≤ 65535)) :=
  port_grammar_iff empty .none (.plain (by decide) (by decide)) (forall_mem_of_all (by decide))
    fun c h => by cases h

/-- `80abc` passes for port 80. -/
theorem port_grammar_exceeded :
    ¬∀ n, Specifies empty (str "db.example:80abc") [] n ↔ PortGrammar (str "80abc") n := by
  intro h
  obtain ⟨hdigits, -⟩ := (h 80).mp ⟨{ empty with host := str "db.example", port := 80 }, rfl, rfl⟩
  exact absurd (hdigits (chr 'a') (by decide)) (by decide)

end Url

end SocialNetwork.Helpers
