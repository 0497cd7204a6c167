import SocialNetwork.Net.RoundTrip

/-!
# IPv6 hosts without brackets

`SocketAddress` cuts a text at its first colon unless the host stands in brackets. Where an IPv6 host
is joined to a port without them, what comes before the first colon is taken for the host, and all that
follows for the name of a service. Such a text still gives a socket address if both happen to be
resolved as names (`ReadsAsNames`).
-/

namespace SocialNetwork.Net

open Foundation Helpers

variable {R : Resolver} {text : Bytes}

/-- The text before its first colon. -/
def beforeColon (text : Bytes) : Bytes := text.takeWhile (· ≠ chr ':')

/-- The text after its first colon. -/
def afterColon (text : Bytes) : Bytes := (text.dropWhile (· ≠ chr ':')).tail

/-- The text, joined to a port, is resolved to the port `q`: what is before its first colon as the name
of a host, and the rest with the port as the name of a service. -/
def ReadsAsNames (R : Resolver) (text : Bytes) (port q : UInt16) : Prop :=
  beforeColon text ≠ [] ∧
    (∃ addresses, Dns.hostByName R (beforeColon text) = .ok addresses ∧ addresses ≠ []) ∧
    Dns.resolveServiceToPort R (afterColon text ++ str ":" ++ decimal port.toNat) = .ok q

/-- A text that is cut at its first colon, with no dot before it. -/
structure BareHost (text : Bytes) : Prop where
  colon : chr ':' ∈ text
  bracket : text.head? ≠ some (chr '[')
  slash : text.head? ≠ some (chr '/')
  dot : chr '.' ∉ beforeColon text

theorem colon_not_mem_beforeColon : chr ':' ∉ beforeColon text := fun h => by
  simpa using List.mem_takeWhile_imp h

/-- The text is cut at its first colon. -/
theorem eq_beforeColon_append (h : chr ':' ∈ text) :
    text = beforeColon text ++ str ":" ++ afterColon text := by
  have hstop := List.head?_dropWhile_not (fun c => decide (c ≠ chr ':')) text
  cases hrest : text.dropWhile (fun c => decide (c ≠ chr ':')) with
  | nil => exact absurd (List.dropWhile_eq_nil_iff.mp hrest _ h) (by simp)
  | cons c rest =>
      rw [hrest] at hstop
      obtain rfl : c = chr ':' := by simpa using hstop
      rw [beforeColon, afterColon, hrest]
      conv_lhs => rw [← List.takeWhile_append_dropWhile (p := fun c => decide (c ≠ chr ':'))
        (l := text), hrest]
      simp [str]

/-- A text without dots and colons is of no family. -/
theorem IpAddress.tryFamily_noSeparator (hdot : chr '.' ∉ text) (hcolon : chr ':' ∉ text) :
    IpAddress.tryFamily text = none := by
  have hdots : text.count (chr '.') = 0 := List.count_eq_zero.mpr hdot
  have hcolons : text.count (chr ':') = 0 := List.count_eq_zero.mpr hcolon
  have hdouble : ¬str "::" <:+: text := fun h => hcolon (h.subset (by decide))
  simp [IpAddress.tryFamily, IpAddress.isV4Format, IpAddress.isV6Format, hdots, hcolons, hdouble]

/-- A text without dots and colons is no address. -/
theorem IpAddress.tryParse_noSeparator (hdot : chr '.' ∉ text) (hcolon : chr ':' ∉ text) :
    IpAddress.tryParse text = none := by
  rw [IpAddress.tryParse, IpAddress.tryFamily_noSeparator hdot hcolon]
  rfl

namespace BareHost

/-- What the text and a port are cut into. -/
theorem splitToHostAndPort (h : BareHost text) (port : UInt16) :
    SocketAddress.splitToHostAndPort (text ++ str ":" ++ decimal port.toNat) =
      if beforeColon text = [] then .error (.runtime (str "missing host and/or port number"))
      else .ok (beforeColon text, afterColon text ++ str ":" ++ decimal port.toNat) := by
  have hcut : text ++ str ":" ++ decimal port.toNat =
      beforeColon text ++ str ":" ++ (afterColon text ++ str ":" ++ decimal port.toNat) := by
    conv_lhs => rw [eq_beforeColon_append h.colon]
    simp
  by_cases hnil : beforeColon text = []
  · rw [if_pos hnil, hcut, hnil]
    rfl
  · have hbracket : (beforeColon text).head? ≠ some (chr '[') := by
      intro hhead
      apply h.bracket
      rw [eq_beforeColon_append h.colon, List.append_assoc, List.head?_append_of_ne_nil _ hnil]
      exact hhead
    rw [if_neg hnil, hcut, SocketAddress.splitToHostAndPort_plain hnil (by simp [str]) hbracket
      colon_not_mem_beforeColon]

/-- What is before the first colon is no address. -/
theorem tryParse_beforeColon (h : BareHost text) : IpAddress.tryParse (beforeColon text) = none :=
  IpAddress.tryParse_noSeparator h.dot colon_not_mem_beforeColon

/-- **The socket address of a host without brackets**: an error if there is nothing before its first
colon, and otherwise what the two names are resolved to. -/
theorem ofString (h : BareHost text) (port : UInt16) :
    SocketAddress.ofString R (text ++ str ":" ++ decimal port.toNat) =
      if beforeColon text = [] then .error (.runtime (str "missing host and/or port number"))
      else (Dns.resolveServiceToPort R (afterColon text ++ str ":" ++ decimal port.toNat)).bind
        (SocketAddress.initByName R (beforeColon text)) := by
  have hslash : (text ++ str ":" ++ decimal port.toNat).head? ≠ some (chr '/') := by
    rw [List.append_assoc, List.head?_append_of_ne_nil _ (List.ne_nil_of_mem h.colon)]
    exact h.slash
  rw [SocketAddress.ofString, if_neg hslash, h.splitToHostAndPort]
  by_cases hnil : beforeColon text = []
  · rw [if_pos hnil, if_pos hnil]
  · rw [if_neg hnil, if_neg hnil]
    dsimp only
    cases Dns.resolveServiceToPort R (afterColon text ++ str ":" ++ decimal port.toNat) <;> rfl

/-- The socket address is made, with the port `q`, exactly if both names are resolved. -/
theorem ofString_ok_iff (h : BareHost text) {port q : UInt16} :
    (∃ sockAddr, SocketAddress.ofString R (text ++ str ":" ++ decimal port.toNat) = .ok sockAddr ∧
      sockAddr.port = .ok q) ↔ ReadsAsNames R text port q := by
  rw [h.ofString, ReadsAsNames]
  by_cases hnil : beforeColon text = []
  · rw [if_pos hnil]
    exact iff_of_false (fun ⟨_, hsocket, _⟩ => by cases hsocket) fun hnames => hnames.1 hnil
  rw [if_neg hnil]
  cases Dns.resolveServiceToPort R (afterColon text ++ str ":" ++ decimal port.toNat) with
  | error e =>
      exact iff_of_false (fun ⟨_, hsocket, _⟩ => by cases hsocket) fun hnames => by cases hnames.2.2
  | ok p =>
      have hname := SocketAddress.initByName_ok_iff (R := R) (p := p) h.tryParse_beforeColon
      constructor
      · rintro ⟨sockAddr, hsocket, hport⟩
        have hp := SocketAddress.port_initByName hsocket
        rw [hport] at hp
        exact ⟨hnil, hname.mp ⟨sockAddr, hsocket⟩, by rw [Except.ok.inj hp]⟩
      · rintro ⟨-, haddresses, hp⟩
        obtain ⟨sockAddr, hsocket⟩ := hname.mpr haddresses
        rw [Except.ok.inj hp] at hsocket
        refine ⟨sockAddr, ?_, SocketAddress.port_initByName hsocket⟩
        rw [Except.ok.inj hp]
        exact hsocket

end BareHost

end SocialNetwork.Net
