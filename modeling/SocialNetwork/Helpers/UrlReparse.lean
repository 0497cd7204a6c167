import SocialNetwork.Helpers.UrlPrinting

/-!
# Printed URLs, parsed again

Which URLs come back when the text that `to_string` prints is parsed. The printer leaves a colon in
the path of an URL without scheme, and a `//` at the start of the path of an URL without authority; it
drops the authority of an URL without scheme, and puts brackets around a host only for the sake of a
colon. It also adds a `/` in front of a path that follows an authority, and in place of a missing
path, which is then part of what is read back: `printedPath`. `Reprints` collects what has to hold of
a text for the URL to come back.
-/

namespace SocialNetwork.Helpers

open Foundation

namespace Url

/-! ## Printed and parsed again -/

/-- `Url::equals`. -/
def equals (u1 u2 : Url) : Bool :=
  u1.scheme = u2.scheme && u1.userInfo = u2.userInfo && u1.host = u2.host &&
    u1.getPort = u2.getPort && u1.path = u2.path && u1.query = u2.query && u1.fragment = u2.fragment

/-- The printed text is accepted, and gives back the URL with the path that was printed. -/
def Reparses (url : Url) : Prop :=
  ∃ url', parse url.toString = .ok url' ∧ equals url' { url with path := url.printedPath } = true

theorem equals_path {url url' : Url} (h : equals url url' = true) : url.path = url'.path := by
  simp only [equals, Bool.and_eq_true, decide_eq_true_eq] at h
  exact h.1.1.2

theorem equals_scheme {url url' : Url} (h : equals url url' = true) : url.scheme = url'.scheme := by
  simp only [equals, Bool.and_eq_true, decide_eq_true_eq] at h
  exact h.1.1.1.1.1.1

variable {url : Url}

/-- The scheme of a printed URL is read back. -/
theorem parse_printed (hwf : WellFormed url) {it : Bytes} (hit : it ≠ []) :
    parse (url.scheme ++ chr ':' :: it) = parseHierarchy { empty with scheme := url.scheme } it := by
  rw [parse_scheme hwf.scheme_head hwf.scheme_chars, if_neg hit, hwf.scheme_lower]

/-- **An URL without scheme** comes back if it has nothing but a path, a query and a fragment, and
the path has no colon in its first segment. -/
theorem reparses_relative (hwf : WellFormed url) (hscheme : url.scheme = []) : Reparses url ↔
    (url.userInfo = [] ∧ url.host = [] ∧ url.port = 0) ∧ colonFirst url.path = false := by
  have htext := toString_relative hscheme
  have hcolon := hasScheme_encode url.path url.query url.fragment
  have hpath : url.printedPath = url.path := if_pos hscheme
  have hport : url.getPort = url.port := by
    rw [getPort, hscheme]
    split
    · rfl
    · rename_i h
      exact (not_not.mp h).symm
  constructor
  · rintro ⟨url', hparse, hequals⟩
    rw [htext] at hparse
    cases hfirst : colonFirst url.path with
    | false =>
        rw [parse_relative (hcolon.trans hfirst), parsePathQueryFragment_encode hwf.query_chars]
          at hparse
        obtain rfl := Except.ok.inj hparse
        simp only [equals, Bool.and_eq_true, decide_eq_true_eq] at hequals
        obtain ⟨⟨⟨⟨⟨⟨-, huser⟩, hhost⟩, heq⟩, -⟩, -⟩, -⟩ := hequals
        refine ⟨⟨huser.symm, hhost.symm, ?_⟩, rfl⟩
        have hzero : (0 : UInt16) = url.getPort := heq
        rw [← hport, ← hzero]
    | true =>
        -- the scheme that is read is empty, so that the path has lost its colon
        exfalso
        obtain ⟨scheme, it, hsplit, hhead, hchars⟩ :=
          exists_of_hasScheme (hcolon.trans hfirst)
        have hreads := (reads_of_parse hparse).scheme
        rw [hsplit, UrlText.ofBytes_scheme hhead hchars, UrlText.scheme_ofHierarchy,
          equals_scheme hequals] at hreads
        have hnil : scheme = [] := List.map_eq_nil_iff.mp (hreads.symm.trans hscheme)
        subst hnil
        have hstart : url.path.head? = some (chr ':') := by
          refine (head_encode (by decide) (suffixText_head_ne (by decide) url.query url.fragment)
            _).mp ?_
          rw [hsplit]
          rfl
        obtain ⟨path, hcons⟩ : ∃ path, url.path = chr ':' :: path := by
          cases htail : url.path with
          | nil => rw [htail] at hstart; cases hstart
          | cons c path => exact ⟨path, by rw [htail] at hstart; rw [Option.some.inj hstart]⟩
        rw [hcons, encode_cons, encodeChar_of_mem (by decide)] at hparse
        have hnone : ∀ c ∈ ([] : Bytes), c ∉ str ":?#/" := by simp
        have hrest := parse_scheme (by simp) hnone
          (encode path urlReservedPath ++ suffixText url.query url.fragment)
        rw [List.nil_append] at hrest
        rw [List.singleton_append, List.cons_append, hrest] at hparse
        split at hparse
        · cases hparse
        have hback : url'.path = chr ':' :: path := by
          rw [equals_path hequals, ← hcons]
          exact hpath
        by_cases hslashes : str "//" <+: path
        · have hlt := length_path_of_parseHierarchy hwf.query_chars hslashes hparse
          rw [hback, List.length_cons] at hlt
          omega
        · rw [parseHierarchy_encode hwf.query_chars hslashes] at hparse
          obtain rfl := Except.ok.inj hparse
          exact absurd (congrArg List.length hback) (by simp)
  · rintro ⟨⟨huser, hhost, hzero⟩, hfirst⟩
    refine ⟨{ empty with path := url.path, query := url.query, fragment := url.fragment }, ?_, ?_⟩
    · rw [htext, parse_relative (hcolon.trans hfirst),
        parsePathQueryFragment_encode hwf.query_chars]
    · simp [equals, getPort, empty, huser, hhost, hzero, hscheme, hpath]

/-- A path that is printed unchanged. -/
theorem printedPath_of_noAuthority (hscheme : url.scheme ≠ []) (hauth : url.getAuthority = [])
    (hpath : url.path ≠ []) : url.printedPath = url.path := by
  rw [printedPath, if_neg hscheme, if_neg hpath, if_neg fun h => h.1 hauth]

theorem printedPath_of_nil (hscheme : url.scheme ≠ []) (hpath : url.path = []) :
    url.printedPath = if url.query = [] ∧ url.fragment = [] then [] else str "/" := by
  rw [printedPath, if_neg hscheme, if_pos hpath]

/-- An URL without authority is its scheme, path, query and fragment. -/
theorem equals_of_noAuthority (hauth : url.getAuthority = []) : equals
    { empty with
      scheme := url.scheme, path := url.printedPath, query := url.query, fragment := url.fragment }
    { url with path := url.printedPath } = true := by
  obtain ⟨huser, hhost, hport⟩ := getAuthority_eq_nil.mp hauth
  obtain ⟨hzero, hlookup⟩ := getPort_eq_zero.mp hport
  simp [equals, getPort, empty, huser, hhost, hzero, hlookup]

/-- **An URL with a scheme and without authority** comes back if it has a path, a query or a fragment
and its path does not start with two slashes. -/
theorem reparses_hierarchy (hwf : WellFormed url) (hscheme : url.scheme ≠ [])
    (hfile : url.scheme ≠ str "file") (hauth : url.getAuthority = []) : Reparses url ↔
      ¬(url.path = [] ∧ url.query = [] ∧ url.fragment = []) ∧ ¬str "//" <+: url.path := by
  have htext : url.toString = url.scheme ++ chr ':' ::
      (encode url.printedPath urlReservedPath ++ suffixText url.query url.fragment) := by
    rw [toString_absolute hscheme, if_neg (by simp [hauth, hfile]), List.nil_append]
  have hslashes : str "//" <+: url.printedPath ↔ str "//" <+: url.path := by
    by_cases hpath : url.path = []
    · rw [printedPath_of_nil hscheme hpath, hpath]
      split
      · rfl
      · exact iff_of_false (by decide) (by decide)
    · rw [printedPath_of_noAuthority hscheme hauth hpath]
  have hnil : encode url.printedPath urlReservedPath ++ suffixText url.query url.fragment = [] ↔
      url.path = [] ∧ url.query = [] ∧ url.fragment = [] := by
    rw [List.append_eq_nil_iff, encode_eq_nil, suffixText_eq_nil]
    by_cases hpath : url.path = []
    · rw [printedPath_of_nil hscheme hpath]
      split
      · simp_all
      · exact iff_of_false (fun h => absurd h.1 (by decide)) fun h => by tauto
    · rw [printedPath_of_noAuthority hscheme hauth hpath]
  constructor
  · rintro ⟨url', hparse, hequals⟩
    rw [htext] at hparse
    have hne : encode url.printedPath urlReservedPath ++ suffixText url.query url.fragment ≠ [] := by
      intro h
      rw [h, parse_scheme hwf.scheme_head hwf.scheme_chars, if_pos rfl] at hparse
      cases hparse
    refine ⟨fun h => hne (hnil.mpr h), fun h => ?_⟩
    rw [parse_printed hwf hne] at hparse
    have hlt := length_path_of_parseHierarchy hwf.query_chars (hslashes.mpr h) hparse
    rw [equals_path hequals] at hlt
    exact absurd hlt (lt_irrefl _)
  · rintro ⟨hne, hpath⟩
    refine ⟨_, ?_, equals_of_noAuthority hauth⟩
    rw [htext, parse_printed hwf fun h => hne (hnil.mp h),
      parseHierarchy_encode hwf.query_chars fun h => hpath (hslashes.mp h)]

/-- **An URL of a file without authority** comes back if its path is absolute or missing. -/
theorem reparses_file (hwf : WellFormed url) (hfile : url.scheme = str "file")
    (hauth : url.getAuthority = []) : Reparses url ↔
      url.path = [] ∨ url.path.head? = some (chr '/') := by
  have hscheme : url.scheme ≠ [] := by
    rw [hfile]
    decide
  have htext : url.toString = url.scheme ++ chr ':' :: (str "//" ++
      (encode url.printedPath urlReservedPath ++ suffixText url.query url.fragment)) := by
    rw [toString_absolute hscheme, if_pos (.inr hfile), hauth, List.append_nil]
  have hne : str "//" ++ (encode url.printedPath urlReservedPath ++
      suffixText url.query url.fragment) ≠ [] := by
    simp [str]
  have hparse := parse_printed hwf hne
  constructor
  · rintro ⟨url', hread, hequals⟩
    by_contra hrelative
    rw [not_or] at hrelative
    -- the first segment is read as the authority
    have hprinted := printedPath_of_noAuthority hscheme hauth hrelative.1
    rw [htext, hparse, hprinted] at hread
    have hback : url.path = url.path.dropWhile (· ∉ str "/") := by
      rw [← path_of_parseHierarchy hwf.query_chars hread, equals_path hequals]
      exact hprinted.symm
    cases hpath : url.path with
    | nil => exact hrelative.1 hpath
    | cons c path =>
        have hc : c ∉ str "/" := by
          intro hmem
          obtain rfl : c = chr '/' := by simpa [str] using hmem
          exact hrelative.2 (by rw [hpath]; rfl)
        rw [hpath, List.dropWhile_cons_of_pos (by simpa using hc)] at hback
        have hle := (List.dropWhile_suffix (l := path) fun c => decide (c ∉ str "/")).length_le
        have hlength := congrArg List.length hback
        rw [List.length_cons] at hlength
        omega
  · intro hpath
    have hhead := printedPath_head hscheme (.inr hpath)
    refine ⟨_, ?_, equals_of_noAuthority hauth⟩
    rw [htext, hparse, parseHierarchy, if_pos (List.prefix_append _ _),
      List.drop_left' (show (str "//").length = 2 from rfl), parseAuthority,
      authorityLoop_end fun c hc => end_of_printed hhead hc]
    simp only [parseHostAndPort, parseHost, bind, Except.bind, parsePortPart, pure, Except.pure]
    rw [parsePathQueryFragment_encode hwf.query_chars]
    rfl

/-- The text of an URL with a scheme and an authority is read back with the effective port and the
printed path. -/
theorem parse_authority (hwf : WellFormed url) (hscheme : url.scheme ≠ [])
    (hauth : url.getAuthority ≠ []) : parse url.toString =
      if url.host.head? = some (chr '[') ∧ chr ':' ∉ url.host then
        .error (str "unterminated IPv6 address")
      else .ok { url with port := url.getPort, path := url.printedPath } := by
  have hhead := printedPath_head hscheme (.inl hauth)
  rw [toString_absolute hscheme, if_pos (.inl hauth), parse_printed hwf (by simp [str]),
    parseHierarchy, if_pos (by rw [List.append_assoc]; exact List.prefix_append _ _),
    List.append_assoc, List.drop_left' (show (str "//").length = 2 from rfl),
    parseAuthority_getAuthority hwf fun c hc => end_of_printed hhead hc]
  split
  · rfl
  · simp only [bind, Except.bind, pure, Except.pure]
    rw [parsePathQueryFragment_encode hwf.query_chars]

/-- **An URL with a scheme and an authority** comes back, but for a host that starts with a bracket
and has no colon. -/
theorem reparses_authority (hwf : WellFormed url) (hscheme : url.scheme ≠ [])
    (hauth : url.getAuthority ≠ []) : Reparses url ↔
      (url.host.head? = some (chr '[') → chr ':' ∈ url.host) := by
  have hport : getPort { url with port := url.getPort, path := url.printedPath } = url.getPort := by
    change (if url.getPort ≠ 0 then url.getPort
      else (urlWellKnownPorts.lookup url.scheme).getD 0) = url.getPort
    split
    · rfl
    · rename_i hzero
      have hnone := getPort_eq_zero.mp (not_not.mp hzero)
      rw [hnone.2, not_not.mp hzero]
      rfl
  unfold Reparses
  rw [parse_authority hwf hscheme hauth]
  constructor
  · rintro ⟨url', hparse, -⟩ hopen
    by_contra hcolon
    rw [if_pos ⟨hopen, hcolon⟩] at hparse
    cases hparse
  · intro hbracket
    have hprinted : getPort { url with path := url.printedPath } = url.getPort := rfl
    refine ⟨_, if_neg fun h => h.2 (hbracket h.1), ?_⟩
    simp [equals, hport, hprinted]

end Url

/-! ## The texts that come back -/

/-- The text is that of an URL which can be told from its printed form.

Without a scheme only a path, a query and a fragment are printed, and a colon in the first segment
of the path would read as the end of a scheme. With a scheme but neither authority nor well-known
port, something has to follow the colon, and a `//` at the start of the path would read as that of an
authority; for a file the `//` is printed, so that the path has to be absolute. In an authority, a
host without colon is printed without brackets, so that it must not start with one. -/
def UrlText.Reprints (t : UrlText) : Prop :=
  let scheme := toLowercase (t.scheme.getD [])
  let path := decode t.path
  let anonymous := t.userInfo = [] ∧ t.host = [] ∧ t.port = []
  if scheme = [] then anonymous ∧ Url.colonFirst path = false
  else if anonymous ∧ urlWellKnownPorts.lookup scheme = none then
    if scheme = str "file" then path = [] ∨ path.head? = some (chr '/')
    else ¬(path = [] ∧ t.query = [] ∧ t.fragment = []) ∧ ¬str "//" <+: path
  else t.host.head? = some (chr '[') → chr ':' ∈ t.host

instance (t : UrlText) : Decidable t.Reprints := by
  delta UrlText.Reprints
  infer_instance

namespace Url

/-- **The URLs that come back from their text.**
Source: `Url::parse`, `Url::to_string`, `Url::equals` -/
theorem reparses_iff {s : Bytes} {url : Url} (h : parse s = .ok url) :
    Reparses url ↔ (UrlText.ofBytes s).Reprints := by
  have hwf := wellFormed_of_parse h
  have hreads := reads_of_parse h
  have hhost : url.host = [] ↔ (UrlText.ofBytes s).host = [] := by
    rw [hreads.host, hostCase_eq_nil]
  have hauth : url.getAuthority = [] ↔
      ((UrlText.ofBytes s).userInfo = [] ∧ (UrlText.ofBytes s).host = [] ∧
        (UrlText.ofBytes s).port = []) ∧ urlWellKnownPorts.lookup url.scheme = none := by
    rw [getAuthority_eq_nil, getPort_eq_zero, hreads.userInfo, hhost, hreads.port]
    tauto
  unfold UrlText.Reprints
  simp only [← hreads.scheme, ← hreads.path, ← hreads.query, ← hreads.fragment, ← hauth]
  split
  · rename_i hscheme
    rw [reparses_relative hwf hscheme, hreads.userInfo, hhost, hreads.port]
  · rename_i hscheme
    split
    · rename_i hnil
      split
      · rename_i hfile
        exact reparses_file hwf hfile hnil
      · rename_i hfile
        exact reparses_hierarchy hwf hscheme hfile hnil
    · rename_i hne
      rw [reparses_authority hwf hscheme hne, hreads.host, head_hostCase (by decide),
        mem_hostCase (by decide)]

/-- **Printing undoes parsing**, up to the slash that `to_string` puts in front of a path: the printed
text of an accepted URL is accepted and gives back the URL with the path that was printed, if the
text is one that can be told from its printed form.
Source: `Url::parse`, `Url::to_string`, `Url::equals` -/
theorem parse_toString {s : Bytes} {url : Url} (h : parse s = .ok url)
    (hs : (UrlText.ofBytes s).Reprints) :
    ∃ url', parse url.toString = .ok url' ∧
      equals url' { url with path := url.printedPath } = true :=
  (reparses_iff h).mpr hs

/-- `HTTP://Bob@Example:8080/a%20b?q#f`. -/
theorem parse_toString_example :
    ∃ url', parse (toString ⟨str "http", str "Bob", str "example", 8080, str "/a b", str "q", str "f"⟩) =
        .ok url' ∧
      equals url' ⟨str "http", str "Bob", str "example", 8080, str "/a b", str "q", str "f"⟩ = true :=
  parse_toString (s := str "HTTP://Bob@Example:8080/a%20b?q#f") (by decide +kernel) (by decide)

/-- `http://h?q` comes back with a path. -/
theorem parse_toString_slash :
    ¬∀ (s : Bytes) (url : Url), parse s = .ok url →
      ∃ url', parse url.toString = .ok url' ∧ equals url' url = true := by
  intro h
  obtain ⟨url', hparse, hequals⟩ := h (str "http://h?q") ⟨str "http", [], str "h", 0, [], str "q", []⟩
    (by decide)
  have hread : parse (toString ⟨str "http", [], str "h", 0, [], str "q", []⟩) =
      .ok ⟨str "http", [], str "h", 80, str "/", str "q", []⟩ := by
    decide
  obtain rfl := Except.ok.inj (hread.symm.trans hparse)
  exact absurd hequals (by decide)

end Url

end SocialNetwork.Helpers
