import SocialNetwork.Helpers.UrlText

/-!
# The text of an URL, taken apart

The components that the parser finds in a text, before it interprets them: `UrlText` has the text of
the scheme, the authority, the path, the query and the fragment, and an authority consists of the
texts of the user info, the host and the port. `reads_of_parse` says how the members of an accepted
URL are read from these texts: scheme and host in lower case, the path decoded, the rest as it is.
`wellFormed_of_parse` says which characters they can have.
-/

namespace SocialNetwork.Helpers

open Foundation

/-! ## Delimiters -/

/-- What does not end a scheme. -/
theorem not_mem_schemeDelimiters {c : UInt8} :
    c ∉ str ":?#/" ↔ c ≠ chr ':' ∧ c ≠ chr '?' ∧ c ≠ chr '#' ∧ c ≠ chr '/' := by simp [str]

/-- What does not end a path. -/
theorem not_mem_pathDelimiters {c : UInt8} : c ∉ str "?#" ↔ c ≠ chr '?' ∧ c ≠ chr '#' := by simp [str]

namespace Url

/-! ## Texts with and without a scheme -/

/-- What is parsed after the colon of the scheme. -/
def parseHierarchy (res : Url) (it : Bytes) : Except Bytes Url :=
  if str "//" <+: it then do
    let (res, it) ← parseAuthority res (it.drop 2)
    return parsePathQueryFragment res it
  else .ok (parsePathQueryFragment res it)

/-- The text starts with a scheme, which may be empty. -/
def hasScheme (s : Bytes) : Bool :=
  decide (s.head? ≠ some (chr '.')) && decide ((s.dropWhile (· ∉ str ":?#/")).head? = some (chr ':'))

/-- The delimiters that end a scheme, as the code compares them. -/
theorem schemeDelimiter : (fun c : UInt8 => decide (c ≠ chr ':') && decide (c ≠ chr '?') &&
    decide (c ≠ chr '#') && decide (c ≠ chr '/')) = fun c => decide (c ∉ str ":?#/") := by
  funext c
  simp [not_mem_schemeDelimiters, Bool.and_assoc]

/-- A scheme, its colon, and what follows. -/
theorem parse_scheme {scheme : Bytes} (hhead : scheme.head? ≠ some (chr '.'))
    (hchars : ∀ c ∈ scheme, c ∉ str ":?#/") (it : Bytes) :
    parse (scheme ++ chr ':' :: it) =
      if it = [] then
        .error (str "URL scheme must be followed by authority or path (" ++
          (scheme ++ chr ':' :: it) ++ str ")")
      else parseHierarchy { empty with scheme := toLowercase scheme } it := by
  have hspan : (scheme ++ chr ':' :: it).span (fun c => decide (c ∉ str ":?#/")) =
      (scheme, chr ':' :: it) :=
    span_append_cons (fun c hc => by simpa using hchars c hc) (by decide)
  obtain ⟨start, tail, htext⟩ := List.exists_cons_of_ne_nil
    (show scheme ++ chr ':' :: it ≠ [] by simp)
  have hstart : ¬(start = chr '/' ∨ start = chr '.' ∨ start = chr '?' ∨ start = chr '#') := by
    cases scheme with
    | nil =>
        obtain rfl : chr ':' = start := (List.cons.inj htext).1
        decide
    | cons c scheme =>
        obtain rfl : c = start := (List.cons.inj htext).1
        obtain ⟨-, hquery, hfragment, hslash⟩ :=
          not_mem_schemeDelimiters.mp (hchars c List.mem_cons_self)
        have hdot : c ≠ chr '.' := fun h => hhead (by rw [h]; rfl)
        simp [hdot, hquery, hfragment, hslash]
  rw [htext] at hspan ⊢
  rw [parse, if_neg (by simpa [or_assoc] using hstart), schemeDelimiter, hspan]
  simp only [if_true]
  rfl

/-- A text without a scheme is a path. -/
theorem parse_relative {s : Bytes} (h : hasScheme s = false) :
    parse s = .ok (parsePathQueryFragment empty s) := by
  cases s with
  | nil => rfl
  | cons start tail =>
      rw [parse]
      split
      · rfl
      · rename_i hstart
        have hdot : start ≠ chr '.' := by
          intro hdot
          exact hstart (by simp [hdot])
        rw [schemeDelimiter, List.span_eq_takeWhile_dropWhile]
        simp only [hasScheme, List.head?_cons, ne_eq, Option.some.injEq, hdot, not_false_eq_true,
          decide_true, Bool.true_and, decide_eq_false_iff_not] at h
        cases hrest : (start :: tail).dropWhile (fun c => decide (c ∉ str ":?#/")) with
        | nil => rfl
        | cons c it =>
            rw [hrest] at h
            have hc : c ≠ chr ':' := fun hc => h (by rw [hc]; rfl)
            simp only [hc, if_false]

/-- A scheme and its colon. -/
theorem hasScheme_append {scheme : Bytes} (hhead : scheme.head? ≠ some (chr '.'))
    (hchars : ∀ c ∈ scheme, c ∉ str ":?#/") (it : Bytes) :
    hasScheme (scheme ++ chr ':' :: it) = true := by
  have hkeep : ∀ c ∈ scheme, decide (c ∉ str ":?#/") = true := fun c hc => by
    simpa using hchars c hc
  have hdot : (scheme ++ chr ':' :: it).head? ≠ some (chr '.') := by
    cases scheme with
    | nil => exact fun h => absurd (Option.some.inj h) (by decide)
    | cons c scheme => exact hhead
  rw [hasScheme, List.dropWhile_append_of_pos hkeep, List.dropWhile_cons_of_neg (by decide),
    decide_eq_true hdot]
  rfl

/-- A text with a scheme, taken apart. -/
theorem exists_of_hasScheme {s : Bytes} (h : hasScheme s = true) :
    ∃ scheme it, s = scheme ++ chr ':' :: it ∧ scheme.head? ≠ some (chr '.') ∧
      ∀ c ∈ scheme, c ∉ str ":?#/" := by
  simp only [hasScheme, Bool.and_eq_true, decide_eq_true_eq] at h
  obtain ⟨hdot, hcolon⟩ := h
  have hsplit := List.takeWhile_append_dropWhile (p := fun c => decide (c ∉ str ":?#/")) (l := s)
  cases hrest : s.dropWhile (fun c => decide (c ∉ str ":?#/")) with
  | nil => rw [hrest] at hcolon; cases hcolon
  | cons c it =>
      rw [hrest] at hcolon hsplit
      obtain rfl : c = chr ':' := by simpa using hcolon
      refine ⟨s.takeWhile fun c => decide (c ∉ str ":?#/"), it, hsplit.symm, ?_, fun c hc => ?_⟩
      · cases s with
        | nil => simp
        | cons start tail =>
            rw [List.takeWhile_cons]
            split
            · exact hdot
            · simp
      · simpa using List.mem_takeWhile_imp hc

end Url

/-! ## Components -/

/-- The components of the text of an URL; an absent one is empty, but for the scheme. -/
structure UrlText where
  scheme : Option Bytes
  authority : Bytes
  path : Bytes
  query : Bytes
  fragment : Bytes
  deriving DecidableEq, Repr

namespace UrlText

/-- The path, the query and the fragment of a text without scheme and authority. -/
def ofPath (scheme : Option Bytes) (authority it : Bytes) : UrlText :=
  let rest := it.dropWhile (· ∉ str "?#")
  { scheme := scheme
    authority := authority
    path := it.takeWhile (· ∉ str "?#")
    query := if rest.head? = some (chr '?') then (rest.drop 1).takeWhile (· ≠ chr '#') else []
    fragment := (rest.dropWhile (· ≠ chr '#')).drop 1 }

/-- What follows the colon of the scheme. -/
def ofHierarchy (scheme it : Bytes) : UrlText :=
  if str "//" <+: it then
    ofPath (some scheme) ((it.drop 2).takeWhile (· ∉ str "/?#")) ((it.drop 2).dropWhile (· ∉ str "/?#"))
  else ofPath (some scheme) [] it

/-- The components of a text. -/
def ofBytes (s : Bytes) : UrlText :=
  if Url.hasScheme s then
    ofHierarchy (s.takeWhile (· ∉ str ":?#/")) ((s.dropWhile (· ∉ str ":?#/")).drop 1)
  else ofPath none [] s

/-- The components of a text with a scheme. -/
theorem ofBytes_scheme {scheme : Bytes} (hhead : scheme.head? ≠ some (chr '.'))
    (hchars : ∀ c ∈ scheme, c ∉ str ":?#/") (it : Bytes) :
    ofBytes (scheme ++ chr ':' :: it) = ofHierarchy scheme it := by
  have hkeep : ∀ c ∈ scheme, decide (c ∉ str ":?#/") = true := fun c hc => by
    simpa using hchars c hc
  have hscheme := Url.hasScheme_append hhead hchars it
  rw [ofBytes, if_pos hscheme, List.takeWhile_append_of_pos hkeep,
    List.dropWhile_append_of_pos hkeep, List.takeWhile_cons_of_neg (by decide),
    List.dropWhile_cons_of_neg (by decide), List.append_nil, List.drop_one, List.tail_cons]

variable (t : UrlText)

/-- The authority after the last `@`. -/
def hostAndPort : Bytes := (t.authority.reverse.takeWhile (· ≠ chr '@')).reverse

/-- The text of the user info: between the last `@` and the one before it, or the start. -/
def userInfo : Bytes :=
  (((t.authority.reverse.dropWhile (· ≠ chr '@')).drop 1).takeWhile (· ≠ chr '@')).reverse

/-- The text of the host, without brackets. -/
def host : Bytes :=
  if t.hostAndPort.head? = some (chr '[') then t.hostAndPort.tail.takeWhile (· ≠ chr ']')
  else t.hostAndPort.takeWhile (· ≠ chr ':')

/-- The text after the host. -/
def afterHost : Bytes :=
  if t.hostAndPort.head? = some (chr '[') then (t.hostAndPort.tail.dropWhile (· ≠ chr ']')).drop 1
  else t.hostAndPort.dropWhile (· ≠ chr ':')

/-- The text of the port. -/
def port : Bytes := if t.afterHost.head? = some (chr ':') then t.afterHost.tail else []

end UrlText

namespace Url

/-- What `parse_host_and_port` does to the case of a host. -/
def hostCase (host : Bytes) : Bytes := if host.head? = some (chr '%') then host else toLowercase host

/-! ## The authority -/

/-- The loop of `parse_authority` finds the user info and what follows the last `@`. -/
theorem authorityLoop_text {a : Bytes} (ha : ∀ c ∈ a, c ∉ str "/?#") (t : UrlText)
    (ht : t.authority = a) (it : Bytes) :
    authorityLoop [] [] (a ++ it) = authorityLoop t.userInfo t.hostAndPort it := by
  induction a using List.reverseRecOn generalizing t it with
  | nil => simp [UrlText.userInfo, UrlText.hostAndPort, ht]
  | append_singleton a c ih =>
      have hc : c ≠ chr '/' ∧ c ≠ chr '?' ∧ c ≠ chr '#' := by
        simpa [str] using ha c (by simp)
      obtain ⟨hslash, hquery, hfragment⟩ := hc
      rw [List.append_assoc, List.singleton_append,
        ih (fun x hx => ha x (List.mem_append_left _ hx)) { t with authority := a } rfl,
        authorityLoop, if_neg (by simp [hslash, hquery, hfragment])]
      split
      · rename_i hat
        simp [UrlText.userInfo, UrlText.hostAndPort, ht, hat]
      · rename_i hat
        simp [UrlText.userInfo, UrlText.hostAndPort, ht, hat]

/-- The host and what follows it. -/
theorem parseHost_text {t : UrlText} {host it : Bytes}
    (h : parseHost t.hostAndPort = .ok (host, it)) : host = t.host ∧ it = t.afterHost := by
  unfold UrlText.host UrlText.afterHost
  cases hpart : t.hostAndPort with
  | nil =>
      rw [hpart] at h
      obtain ⟨rfl, rfl⟩ : [] = host ∧ [] = it := by simpa [parseHost] using h
      exact ⟨rfl, rfl⟩
  | cons c part =>
      rw [hpart] at h
      simp only [parseHost, List.span_eq_takeWhile_dropWhile] at h
      simp only [List.head?_cons, Option.some.injEq]
      split at h
      · rename_i hbracket
        rw [if_pos hbracket, if_pos hbracket, List.tail_cons]
        split at h
        · cases h
        · rename_i heq
          obtain ⟨rfl, rfl⟩ := Prod.mk.inj (Except.ok.inj h)
          obtain ⟨hhost, hrest⟩ := Prod.mk.inj heq
          rw [hhost, hrest]
          exact ⟨rfl, rfl⟩
      · rename_i hbracket
        rw [if_neg hbracket, if_neg hbracket]
        obtain ⟨rfl, rfl⟩ := Prod.mk.inj (Except.ok.inj h)
        exact ⟨rfl, rfl⟩

/-- A port is zero only where its text is empty. -/
theorem parsePortPart_text {t : UrlText} {p : UInt16} (h : parsePortPart t.afterHost = .ok p) :
    p = 0 ↔ t.port = [] := by
  unfold UrlText.port
  cases hit : t.afterHost with
  | nil =>
      rw [hit] at h
      obtain rfl : 0 = p := Except.ok.inj h
      simp
  | cons c text =>
      rw [hit] at h
      simp only [parsePortPart] at h
      by_cases hcolon : c = chr ':'
      · rw [if_pos hcolon, parsePort] at h
        simp only [hcolon, List.head?_cons, if_true, List.tail_cons]
        split at h
        · rename_i hnil
          obtain rfl : 0 = p := Except.ok.inj h
          simp [hnil]
        · rename_i hne
          refine iff_of_false (fun hzero => ?_) hne
          split at h
          · rename_i nport _
            split at h
            · rename_i hrange
              obtain rfl := Except.ok.inj h
              have htoNat := congrArg UInt16.toNat hzero
              rw [UInt16.toNat_ofNat', UInt16.toNat_zero] at htoNat
              omega
            · cases h
          · cases h
      · rw [if_neg hcolon] at h
        obtain rfl : 0 = p := Except.ok.inj h
        simp [hcolon]

/-! ## The members of an accepted URL -/

/-- The members of the URL are read from the components of the text. -/
structure Reads (t : UrlText) (url : Url) : Prop where
  scheme : url.scheme = toLowercase (t.scheme.getD [])
  userInfo : url.userInfo = t.userInfo
  host : url.host = hostCase t.host
  port : url.port = 0 ↔ t.port = []
  path : url.path = decode t.path
  query : url.query = t.query
  fragment : url.fragment = t.fragment

/-- Path, query and fragment are read from their texts. -/
theorem parsePathQueryFragment_ofPath (url : Url) (scheme : Option Bytes) (authority it : Bytes) :
    parsePathQueryFragment url it =
      { url with
        path := decode (UrlText.ofPath scheme authority it).path
        query := (UrlText.ofPath scheme authority it).query
        fragment := (UrlText.ofPath scheme authority it).fragment } := by
  have hdelimiters : (fun c : UInt8 => decide (c ≠ chr '?') && decide (c ≠ chr '#')) =
      fun c => decide (c ∉ str "?#") := by
    funext c
    simp [not_mem_pathDelimiters]
  rw [parsePathQueryFragment, hdelimiters, List.span_eq_takeWhile_dropWhile]
  simp only [UrlText.ofPath]
  cases hrest : it.dropWhile (fun c => decide (c ∉ str "?#")) with
  | nil => simp
  | cons c rest =>
      by_cases hc : c = chr '?'
      · simp only [hc, if_true, List.span_eq_takeWhile_dropWhile, List.head?_cons, List.drop_one,
          List.tail_cons, List.dropWhile_cons]
        rfl
      · -- the scan of the path has stopped at the fragment
        have hstop := List.head?_dropWhile_not (fun c => decide (c ∉ str "?#")) it
        rw [hrest] at hstop
        obtain rfl : c = chr '#' := by
          simpa [not_mem_pathDelimiters, hc] using hstop
        simp [show chr '#' ≠ chr '?' by decide]

/-- The authority is read from its text. -/
theorem parseAuthority_reads {res url : Url} {t : UrlText} {it rest : Bytes}
    (ht : t.authority = it.takeWhile (· ∉ str "/?#")) (h : parseAuthority res it = .ok (url, rest)) :
    rest = it.dropWhile (· ∉ str "/?#") ∧
      url = { res with
        userInfo := t.userInfo
        host := hostCase t.host
        port := url.port } ∧ (url.port = 0 ↔ t.port = []) := by
  have hsplit := List.takeWhile_append_dropWhile (p := fun c => decide (c ∉ str "/?#")) (l := it)
  have hplain : ∀ c ∈ it.takeWhile (· ∉ str "/?#"), c ∉ str "/?#" := fun c hc => by
    simpa using List.mem_takeWhile_imp hc
  have hend : ∀ c, (it.dropWhile (· ∉ str "/?#")).head? = some c → c ∈ str "/?#" := by
    intro c hc
    have hstop := List.head?_dropWhile_not (fun c => decide (c ∉ str "/?#")) it
    rw [hc] at hstop
    simpa using hstop
  have hloop : authorityLoop [] [] it =
      (t.userInfo, t.hostAndPort, it.dropWhile (· ∉ str "/?#")) := by
    conv_lhs => rw [← hsplit]
    rw [authorityLoop_text hplain t ht, authorityLoop_end hend]
  simp only [parseAuthority, hloop, parseHostAndPort, bind_eq_ok, pure_eq_ok, Prod.mk.injEq] at h
  obtain ⟨_, ⟨⟨host, after⟩, hhost, p, hport, rfl⟩, rfl, rfl⟩ := h
  obtain ⟨rfl, rfl⟩ := parseHost_text hhost
  exact ⟨rfl, rfl, parsePortPart_text hport⟩

/-- A text without authority names nobody. -/
theorem reads_noAuthority (scheme : Bytes) (scheme' : Option Bytes)
    (hscheme : scheme = toLowercase (scheme'.getD [])) (it : Bytes) :
    Reads (UrlText.ofPath scheme' [] it)
      (parsePathQueryFragment { empty with scheme := scheme } it) := by
  rw [parsePathQueryFragment_ofPath _ scheme' [] it]
  exact
    { scheme := hscheme
      userInfo := rfl
      host := rfl
      port := iff_of_true rfl rfl
      path := rfl
      query := rfl
      fragment := rfl }

/-- **What the constructor reads.**
Source: `Url::parse` -/
theorem reads_of_parse {s : Bytes} {url : Url} (h : parse s = .ok url) :
    Reads (UrlText.ofBytes s) url := by
  cases hscheme : hasScheme s with
  | false =>
      rw [parse_relative hscheme] at h
      obtain rfl := Except.ok.inj h
      rw [UrlText.ofBytes, hscheme]
      exact reads_noAuthority [] none rfl s
  | true =>
      obtain ⟨scheme, it, rfl, hhead, hchars⟩ := exists_of_hasScheme hscheme
      rw [parse_scheme hhead hchars] at h
      split at h
      · cases h
      rw [UrlText.ofBytes_scheme hhead hchars]
      unfold parseHierarchy at h
      unfold UrlText.ofHierarchy
      split at h
      · rename_i hslashes
        rw [if_pos hslashes]
        generalize it.drop 2 = rest at h
        simp only [bind_eq_ok, pure_eq_ok] at h
        obtain ⟨⟨res, after⟩, hauth, rfl⟩ := h
        obtain ⟨rfl, hres, hport⟩ := parseAuthority_reads (t := UrlText.ofPath (some scheme)
          (rest.takeWhile (· ∉ str "/?#")) (rest.dropWhile (· ∉ str "/?#"))) rfl hauth
        rw [parsePathQueryFragment_ofPath _ (some scheme) (rest.takeWhile (· ∉ str "/?#"))]
        exact
          { scheme := by rw [hres]; rfl
            userInfo := by rw [hres]
            host := by rw [hres]
            port := hport
            path := rfl
            query := rfl
            fragment := rfl }
      · rename_i hslashes
        rw [if_neg hslashes]
        obtain rfl := Except.ok.inj h
        exact reads_noAuthority (toLowercase scheme) (some scheme) rfl it

end Url

/-! ## The characters of the components -/

namespace UrlText

/-- What follows a scheme leaves it as it is. -/
theorem scheme_ofHierarchy (scheme it : Bytes) : (ofHierarchy scheme it).scheme = some scheme := by
  unfold ofHierarchy
  split <;> rfl

/-- An authority ends before the first of `/?#`. -/
theorem authority_ofHierarchy (scheme it : Bytes) :
    ∀ c ∈ (ofHierarchy scheme it).authority, c ∉ str "/?#" := by
  unfold ofHierarchy
  intro c hc
  split at hc
  · simpa using List.mem_takeWhile_imp hc
  · cases hc

/-- A query ends before the first `#`. -/
theorem query_ofPath (scheme : Option Bytes) (authority it : Bytes) :
    chr '#' ∉ (ofPath scheme authority it).query := by
  intro h
  simp only [ofPath] at h
  split at h
  · simpa using List.mem_takeWhile_imp h
  · cases h

/-- A query after a scheme ends before the first `#` too. -/
theorem query_ofHierarchy (scheme it : Bytes) : chr '#' ∉ (ofHierarchy scheme it).query := by
  unfold ofHierarchy
  split
  · exact query_ofPath _ _ _
  · exact query_ofPath _ _ _

/-- A scheme has no delimiter and starts with no dot. -/
theorem scheme_ofBytes (s : Bytes) : ((ofBytes s).scheme.getD []).head? ≠ some (chr '.') ∧
    ∀ c ∈ (ofBytes s).scheme.getD [], c ∉ str ":?#/" := by
  cases hscheme : Url.hasScheme s with
  | false =>
      rw [ofBytes, hscheme]
      exact ⟨by simp [ofPath], by simp [ofPath]⟩
  | true =>
      obtain ⟨scheme, it, rfl, hhead, hchars⟩ := Url.exists_of_hasScheme hscheme
      rw [ofBytes_scheme hhead hchars, scheme_ofHierarchy]
      exact ⟨hhead, hchars⟩

/-- The authority of a text has none of `/?#`. -/
theorem authority_ofBytes (s : Bytes) : ∀ c ∈ (ofBytes s).authority, c ∉ str "/?#" := by
  unfold ofBytes
  split
  · exact authority_ofHierarchy _ _
  · simp [ofPath]

/-- The query of a text has no `#`. -/
theorem query_ofBytes (s : Bytes) : chr '#' ∉ (ofBytes s).query := by
  unfold ofBytes
  split
  · exact query_ofHierarchy _ _
  · exact query_ofPath _ _ _

/-- The path that follows an authority starts with a slash. -/
theorem path_of_authority {s : Bytes} (h : (ofBytes s).authority ≠ []) :
    (ofBytes s).path = [] ∨ (ofBytes s).path.head? = some (chr '/') := by
  unfold ofBytes ofHierarchy at h ⊢
  split at h
  · rename_i hscheme
    rw [if_pos hscheme]
    split at h
    · rename_i hslashes
      rw [if_pos hslashes]
      generalize ((s.dropWhile (· ∉ str ":?#/")).drop 1).drop 2 = it
      simp only [ofPath]
      have hstop := List.head?_dropWhile_not (fun c => decide (c ∉ str "/?#")) it
      cases hrest : it.dropWhile (fun c => decide (c ∉ str "/?#")) with
      | nil => exact .inl rfl
      | cons c rest =>
          rw [hrest] at hstop
          have hdelimiter : c ∈ str "/?#" := by simpa using hstop
          have hall : ∀ x ∈ str "/?#", x = chr '/' ∨ x ∈ str "?#" :=
            forall_mem_of_all (by decide)
          rcases hall c hdelimiter with rfl | hc
          · exact .inr rfl
          · exact .inl (List.takeWhile_cons_of_neg (by simpa using hc))
    · exact absurd rfl h
  · exact absurd rfl h

variable {t : UrlText} {c : UInt8}

/-- What follows the last `@` is in the authority, and has no `@`. -/
theorem mem_hostAndPort (h : c ∈ t.hostAndPort) : c ∈ t.authority ∧ c ≠ chr '@' := by
  have hmem := List.mem_reverse.mp h
  refine ⟨List.mem_reverse.mp ((List.takeWhile_prefix _).subset hmem), ?_⟩
  simpa using List.mem_takeWhile_imp hmem

/-- The user info is in the authority, and has no `@`. -/
theorem mem_userInfo (h : c ∈ t.userInfo) : c ∈ t.authority ∧ c ≠ chr '@' := by
  have hmem := List.mem_reverse.mp h
  have hrest := List.mem_of_mem_drop ((List.takeWhile_prefix _).subset hmem)
  refine ⟨List.mem_reverse.mp ((List.dropWhile_suffix _).subset hrest), ?_⟩
  simpa using List.mem_takeWhile_imp hmem

/-- The host is a part of what follows the last `@`. -/
theorem mem_host (h : c ∈ t.host) : c ∈ t.hostAndPort := by
  unfold host at h
  split at h
  · exact List.mem_of_mem_tail ((List.takeWhile_prefix _).subset h)
  · exact (List.takeWhile_prefix _).subset h

/-- Only a bracketed host has a colon or starts with a bracket, and it ends before the first closing
bracket. -/
theorem host_bracket (h : chr ':' ∈ t.host ∨ t.host.head? = some (chr '[')) : chr ']' ∉ t.host := by
  intro hclose
  unfold host at h hclose
  split at hclose
  · simpa using List.mem_takeWhile_imp hclose
  · rename_i hbracket
    rw [if_neg hbracket] at h
    rcases h with hcolon | hopen
    · simpa using List.mem_takeWhile_imp hcolon
    · cases hpart : t.hostAndPort with
      | nil => rw [hpart] at hclose; cases hclose
      | cons x part =>
          rw [hpart, List.takeWhile_cons] at hopen
          split at hopen
          · exact hbracket (by rw [hpart]; exact hopen)
          · cases hopen

end UrlText

namespace Url

/-! ## The characters of the members -/

/-- Delimiters stay as they are in lower case. -/
theorem toLowercaseCh_delimiter {c : UInt8} (hc : c ∈ str "[]:@/?#%") : toLowercaseCh c = c := by
  have hall : ∀ y ∈ str "[]:@/?#%", toLowercaseCh y = y :=
    forall_mem_of_all (by decide)
  exact hall c hc

/-- Lower case neither brings in nor removes delimiters. -/
theorem mem_toLowercase {c : UInt8} (hc : c ∈ str "[]:@/?#%") {s : Bytes} :
    c ∈ toLowercase s ↔ c ∈ s := by
  refine ⟨mem_of_mem_toLowercase hc, fun h => ?_⟩
  rw [← toLowercaseCh_delimiter hc]
  exact List.mem_map_of_mem h

/-- Lower case does not change whether a text starts with a delimiter. -/
theorem head_toLowercase {c : UInt8} (hc : c ∈ str "[]:@/?#%") {s : Bytes} :
    (toLowercase s).head? = some c ↔ s.head? = some c := by
  cases s with
  | nil => rfl
  | cons x s =>
      constructor
      · intro h
        rw [List.head?_cons, eq_of_toLowercaseCh_delimiter hc (Option.some.inj h)]
      · intro h
        obtain rfl : x = c := Option.some.inj h
        exact congrArg some (toLowercaseCh_delimiter hc)

/-- The case of a host neither brings in nor removes delimiters. -/
theorem mem_hostCase {c : UInt8} (hc : c ∈ str "[]:@/?#%") {host : Bytes} :
    c ∈ hostCase host ↔ c ∈ host := by
  unfold hostCase
  split
  · rfl
  · exact mem_toLowercase hc

/-- The case of a host does not change which host starts with a delimiter. -/
theorem head_hostCase {c : UInt8} (hc : c ∈ str "[]:@/?#%") {host : Bytes} :
    (hostCase host).head? = some c ↔ host.head? = some c := by
  unfold hostCase
  split
  · rfl
  · exact head_toLowercase hc

/-- The case of a host is settled at once. -/
theorem hostCase_idem (host : Bytes) : hostCase (hostCase host) = hostCase host := by
  by_cases hpercent : host.head? = some (chr '%')
  · have h : hostCase host = host := if_pos hpercent
    rw [h, h]
  · have h : (hostCase host).head? ≠ some (chr '%') := fun h =>
      hpercent ((head_hostCase (by decide)).mp h)
    rw [hostCase, if_neg h, hostCase, if_neg hpercent, toLowercase_idem]

/-- The case of a host makes no host empty. -/
theorem hostCase_eq_nil {host : Bytes} : hostCase host = [] ↔ host = [] := by
  unfold hostCase
  split
  · rfl
  · exact List.map_eq_nil_iff

/-- A decoded path starts as its text, if it is decoded. -/
theorem head_decode {c : UInt8} (hc : c ≠ chr '%') (s : Bytes) :
    decode (c :: s) = [] ∨ (decode (c :: s)).head? = some c := by
  rw [decode, decodeInto, decodeLoop_plain hc]
  cases decodeLoop false (false || decide (c = chr '?')) s with
  | none => exact .inl rfl
  | some text => exact .inr rfl

/-- The path of an URL with a host starts with a slash. -/
theorem path_of_host {s : Bytes} {url : Url} (h : parse s = .ok url) (hhost : url.host ≠ []) :
    url.path = [] ∨ url.path.head? = some (chr '/') := by
  have hreads := reads_of_parse h
  have hauthority : (UrlText.ofBytes s).authority ≠ [] := by
    intro hnil
    apply hhost
    rw [hreads.host, hostCase_eq_nil, UrlText.host, UrlText.hostAndPort, hnil]
    rfl
  rw [hreads.path]
  cases hpath : (UrlText.ofBytes s).path with
  | nil => exact .inl rfl
  | cons c path =>
      have hslash := UrlText.path_of_authority hauthority
      rw [hpath] at hslash
      obtain rfl : c = chr '/' := by simpa using hslash
      exact head_decode (by decide) path

/-- What the members of an accepted URL look like. -/
structure WellFormed (url : Url) : Prop where
  scheme_lower : toLowercase url.scheme = url.scheme
  scheme_head : url.scheme.head? ≠ some (chr '.')
  scheme_chars : ∀ c ∈ url.scheme, c ∉ str ":?#/"
  userInfo_chars : ∀ c ∈ url.userInfo, c ∉ str "@/?#"
  host_lower : hostCase url.host = url.host
  host_chars : ∀ c ∈ url.host, c ∉ str "@/?#"
  host_bracket : chr ':' ∈ url.host ∨ url.host.head? = some (chr '[') → chr ']' ∉ url.host
  query_chars : chr '#' ∉ url.query

/-- A character of the authority that is no `@` is none of its delimiters. -/
theorem not_mem_authorityDelimiters {c : UInt8} (hat : c ≠ chr '@') (h : c ∉ str "/?#") :
    c ∉ str "@/?#" := by
  simp only [str] at h ⊢
  simpa [hat] using h

/-- **An accepted URL is well formed.**
Source: `Url::parse` -/
theorem wellFormed_of_parse {s : Bytes} {url : Url} (h : parse s = .ok url) : WellFormed url := by
  obtain ⟨hhead, hscheme⟩ := UrlText.scheme_ofBytes s
  have hauthority := UrlText.authority_ofBytes s
  have hreads := reads_of_parse h
  have hlower : ∀ c, toLowercaseCh c = chr '.' → c = chr '.' := fun _ =>
    eq_of_toLowercaseCh (by decide)
  have hdelimiters : ∀ x ∈ str ":?#/", x ∈ str "[]:@/?#%" :=
    forall_mem_of_all (by decide)
  have hhostDelimiters : ∀ x ∈ str "@/?#", x ∈ str "[]:@/?#%" :=
    forall_mem_of_all (by decide)
  refine
    { scheme_lower := by rw [hreads.scheme, toLowercase_idem]
      scheme_head := ?_
      scheme_chars := ?_
      userInfo_chars := ?_
      host_lower := by rw [hreads.host, hostCase_idem]
      host_chars := ?_
      host_bracket := ?_
      query_chars := by rw [hreads.query]; exact UrlText.query_ofBytes s }
  · rw [hreads.scheme]
    intro hdot
    apply hhead
    cases htext : (UrlText.ofBytes s).scheme.getD [] with
    | nil => rw [htext] at hdot; cases hdot
    | cons c scheme =>
        rw [htext] at hdot
        rw [List.head?_cons, hlower c (Option.some.inj hdot)]
  · rw [hreads.scheme]
    exact fun c hc hmem => hscheme c ((mem_toLowercase (hdelimiters c hmem)).mp hc) hmem
  · rw [hreads.userInfo]
    intro c hc
    obtain ⟨hmem, hat⟩ := UrlText.mem_userInfo hc
    exact not_mem_authorityDelimiters hat (hauthority c hmem)
  · rw [hreads.host]
    intro c hc hmem
    obtain ⟨hpart, hat⟩ := UrlText.mem_hostAndPort
      (UrlText.mem_host ((mem_hostCase (hhostDelimiters c hmem)).mp hc))
    exact not_mem_authorityDelimiters hat (hauthority c hpart) hmem
  · rw [hreads.host, mem_hostCase (by decide), mem_hostCase (by decide), head_hostCase (by decide)]
    exact UrlText.host_bracket

end Url

end SocialNetwork.Helpers
