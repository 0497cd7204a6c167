import SocialNetwork.Helpers.UrlSyntax

/-!
# The text of an URL, printed

What the parser makes of the parts that `to_string` prints: an encoded path with the query and the
fragment behind it, and an authority. A printed path can read as a scheme (`hasScheme_encode`) or as
an authority (`path_of_parseHierarchy`); a printed authority is read back, but for a host that is
printed without the brackets it needs (`parseAuthority_getAuthority`).
-/

namespace SocialNetwork.Helpers

open Foundation

/-! ## Encoded paths -/

/-- Texts are encoded side by side. -/
theorem encode_append (s s' reserved : Bytes) :
    encode (s ++ s') reserved = encode s reserved ++ encode s' reserved := List.flatMap_append

/-- Each character is encoded by itself. -/
theorem encode_cons (c : UInt8) (s reserved : Bytes) :
    encode (c :: s) reserved = encodeChar reserved c ++ encode s reserved := rfl

/-- A character is copied or escaped. -/
theorem encodeChar_cases (reserved : Bytes) (c : UInt8) : encodeChar reserved c = [c] ∨
    encodeChar reserved c = [chr '%', hexByte (c.toNat / 16), hexByte (c.toNat % 16)] := by
  unfold encodeChar
  split
  · exact .inl rfl
  · split
    · exact .inr rfl
    · exact .inl rfl

/-- An encoded character is not empty. -/
theorem encodeChar_ne_nil (reserved : Bytes) (c : UInt8) : encodeChar reserved c ≠ [] := by
  rcases encodeChar_cases reserved c with h | h <;> simp [h]

/-- Nothing but nothing is encoded as nothing. -/
theorem encode_eq_nil {s reserved : Bytes} : encode s reserved = [] ↔ s = [] := by
  cases s with
  | nil => simp [encode]
  | cons c s => simp [encode_cons, encodeChar_ne_nil]

/-- A character that `encode` copies occurs in the text only if it occurs in the string. -/
theorem mem_of_mem_encode {s reserved : Bytes} {c : UInt8} (hun : isUnreserved c = false)
    (hpercent : c ≠ chr '%') (h : c ∈ encode s reserved) : c ∈ s := by
  obtain ⟨x, hx, hc⟩ := List.mem_flatMap.mp h
  rcases encodeChar_cases reserved x with heq | heq
  · obtain rfl : c = x := by simpa [heq] using hc
    exact hx
  · rw [heq] at hc
    exact absurd hc (not_mem_escape hun hpercent x)

/-- The delimiters that occur in an encoded path occur in the path. -/
theorem not_mem_encode_path {s : Bytes} {c : UInt8} (hc : c ∈ str ":/?#") (h : c ∈ str ":/" → c ∉ s) :
    c ∉ encode s urlReservedPath := by
  have hall : ∀ x ∈ str ":/?#", isUnreserved x = false ∧ x ≠ chr '%' ∧
      (x ∈ str ":/" ∨ x ∈ urlReservedPath) :=
    forall_mem_of_all (by decide)
  obtain ⟨hun, hpercent, hkept | hescaped⟩ := hall c hc
  · exact fun hmem => h hkept (mem_of_mem_encode hun hpercent hmem)
  · exact not_mem_encode hescaped hun hpercent

/-- A colon and a slash are not encoded, and other characters become none. -/
theorem encodeChar_of_mem {c : UInt8} (hc : c ∈ str ":/") : encodeChar urlReservedPath c = [c] := by
  have hall : ∀ x ∈ str ":/", encodeChar urlReservedPath x = [x] :=
    forall_mem_of_all (by decide)
  exact hall c hc

/-- An encoded path starts with a dot, a colon or a slash as the path does. -/
theorem head_encode {c : UInt8} (hc : c ∈ str ".:/") {it : Bytes} (hit : it.head? ≠ some c)
    (path : Bytes) : (encode path urlReservedPath ++ it).head? = some c ↔ path.head? = some c := by
  have hall : ∀ y ∈ str ".:/", y ≠ chr '%' ∧ encodeChar urlReservedPath y = [y] :=
    forall_mem_of_all (by decide)
  obtain ⟨hpercent, hcopied⟩ := hall c hc
  cases path with
  | nil => exact iff_of_false hit (by simp)
  | cons x path =>
      rw [encode_cons, List.append_assoc, List.head?_append_of_ne_nil _ (encodeChar_ne_nil _ x),
        List.head?_cons, Option.some.injEq]
      rcases encodeChar_cases urlReservedPath x with heq | heq
      · rw [heq, List.head?_cons, Option.some.injEq]
      · refine iff_of_false (fun h => ?_) ?_
        · rw [heq] at h
          exact hpercent (Option.some.inj h).symm
        · rintro rfl
          rw [hcopied] at heq
          cases heq

/-- A scan up to a delimiter passes an encoded path as it passes the path. -/
theorem dropWhile_encode {stop stop' it : Bytes} (hstop : ∀ c, c ∈ stop ↔ c ∈ stop' ∨ c ∈ str "?#")
    (hpath : ∀ c ∈ stop', c ∈ str ":/") (hend : ∀ c, it.head? = some c → c ∈ str "?#")
    (path : Bytes) : (encode path urlReservedPath ++ it).dropWhile (· ∉ stop) =
      encode (path.dropWhile (· ∉ stop')) urlReservedPath ++ it := by
  induction path with
  | nil =>
      cases it with
      | nil => rfl
      | cons c it =>
          have hc : c ∈ stop := (hstop c).mpr (.inr (hend c rfl))
          exact List.dropWhile_cons_of_neg (by simpa using hc)
  | cons c path ih =>
      by_cases hc : c ∈ stop'
      · have hmem : c ∈ stop := (hstop c).mpr (.inl hc)
        rw [List.dropWhile_cons_of_neg (by simpa using hc), encode_cons,
          encodeChar_of_mem (hpath c hc), List.singleton_append, List.cons_append,
          List.dropWhile_cons_of_neg (by simpa using hmem)]
      · have hkeep : ∀ x ∈ encodeChar urlReservedPath c, decide (x ∉ stop) = true := by
          intro x hx
          have hdelimiter : ∀ y ∈ str ":/", y ∈ str ":/?#" :=
            forall_mem_of_all (by decide)
          have hdelimiter' : ∀ y ∈ str "?#", y ∈ str ":/?#" ∧ y ∉ str ":/" :=
            forall_mem_of_all (by decide)
          have hone : encode [c] urlReservedPath = encodeChar urlReservedPath c := by
            simp [encode]
          rw [← hone] at hx
          refine decide_eq_true fun hmem => ?_
          rcases (hstop x).mp hmem with hkept | hescaped
          · refine not_mem_encode_path (hdelimiter x (hpath x hkept)) (fun _ heq => hc ?_) hx
            rwa [← List.mem_singleton.mp heq]
          · exact not_mem_encode_path (hdelimiter' x hescaped).1
              (fun hpath => absurd hpath (hdelimiter' x hescaped).2) hx
        rw [encode_cons, List.append_assoc, List.dropWhile_append_of_pos hkeep, ih,
          List.dropWhile_cons_of_pos (by simpa using hc)]

namespace Url

/-! ## The parts of a printed URL -/

/-- What `to_string` prints after the path. -/
def suffixText (query fragment : Bytes) : Bytes :=
  (if query = [] then [] else str "?" ++ query) ++ if fragment = [] then [] else str "#" ++ fragment

/-- The query and the fragment start with their delimiters. -/
theorem suffixText_head {query fragment : Bytes} {c : UInt8}
    (h : (suffixText query fragment).head? = some c) : c = chr '?' ∨ c = chr '#' := by
  unfold suffixText at h
  split at h
  · split at h
    · cases h
    · exact .inr (Option.some.inj h).symm
  · exact .inl (Option.some.inj h).symm

/-- Nothing is printed after a path exactly if there is no query and no fragment. -/
theorem suffixText_eq_nil {query fragment : Bytes} :
    suffixText query fragment = [] ↔ query = [] ∧ fragment = [] := by
  unfold suffixText
  constructor
  · intro h
    obtain ⟨hquery, hfragment⟩ := List.append_eq_nil_iff.mp h
    refine ⟨?_, ?_⟩
    · by_contra hne
      simp [hne, str] at hquery
    · by_contra hne
      simp [hne, str] at hfragment
  · rintro ⟨rfl, rfl⟩
    rfl

/-- A path text without delimiters, the query and the fragment are taken apart again. -/
theorem parsePathQueryFragment_text {text query fragment : Bytes} (htext : ∀ c ∈ text, c ∉ str "?#")
    (hquery : chr '#' ∉ query) (url : Url) :
    parsePathQueryFragment url (text ++ suffixText query fragment) =
      { url with path := decode text, query := query, fragment := fragment } := by
  have hplain : ∀ c ∈ text, (decide (c ≠ chr '?') && decide (c ≠ chr '#')) = true := by
    intro c hc
    simpa using not_mem_pathDelimiters.mp (htext c hc)
  have hfragment : ∀ c ∈ query, decide (c ≠ chr '#') = true := by
    intro c hc
    simpa using fun heq : c = chr '#' => hquery (heq ▸ hc)
  by_cases hq : query = []
  · subst hq
    by_cases hf : fragment = []
    · subst hf
      rw [show suffixText [] [] = [] from rfl, List.append_nil, parsePathQueryFragment,
        span_eq_self hplain]
      rfl
    · have hsuffix : suffixText [] fragment = chr '#' :: fragment := by simp [suffixText, hf, str]
      rw [hsuffix, parsePathQueryFragment, span_append_cons hplain (by decide)]
      rfl
  · have hspan : (query ++ if fragment = [] then [] else str "#" ++ fragment).span (· ≠ chr '#') =
        (query, if fragment = [] then [] else str "#" ++ fragment) := by
      split
      · rw [List.append_nil, span_eq_self hfragment]
      · exact span_append_cons hfragment (by decide)
    have hsuffix : suffixText query fragment =
        chr '?' :: (query ++ if fragment = [] then [] else str "#" ++ fragment) := by
      simp [suffixText, hq, str]
    rw [hsuffix, parsePathQueryFragment, span_append_cons hplain (by decide)]
    simp only [if_true, hspan]
    by_cases hf : fragment = [] <;> simp [hf, str]

/-- An encoded path, the query and the fragment. -/
theorem parsePathQueryFragment_encode {query : Bytes} (hquery : chr '#' ∉ query) (url : Url)
    (path fragment : Bytes) :
    parsePathQueryFragment url (encode path urlReservedPath ++ suffixText query fragment) =
      { url with path := path, query := query, fragment := fragment } := by
  rw [parsePathQueryFragment_text (fun c hc h => ?_) hquery, decode_encode]
  have hall : ∀ x ∈ str "?#", x ∈ str ":/?#" ∧ x ∉ str ":/" := forall_mem_of_all (by decide)
  exact not_mem_encode_path (hall c h).1 (fun hmem => absurd hmem (hall c h).2) hc

/-! ## Printed paths that read as something else -/

/-- The first segment of a path has a colon, and the path does not start with a dot: without a
scheme in front of it, it reads as one. -/
def colonFirst (path : Bytes) : Bool :=
  decide (path.head? ≠ some (chr '.')) &&
    decide ((path.dropWhile (· ∉ str ":/")).head? = some (chr ':'))

/-- The query and the fragment start with no character of a path. -/
theorem suffixText_head_ne {c : UInt8} (hc : c ∈ str ".:/") (query fragment : Bytes) :
    (suffixText query fragment).head? ≠ some c := by
  intro h
  have hall : ∀ x ∈ str ".:/", x ≠ chr '?' ∧ x ≠ chr '#' :=
    forall_mem_of_all (by decide)
  obtain ⟨hquery, hfragment⟩ := hall c hc
  rcases suffixText_head h with heq | heq
  · exact hquery heq
  · exact hfragment heq

/-- What is printed after a path starts with a delimiter. -/
theorem suffixText_end {query fragment : Bytes} {c : UInt8}
    (h : (suffixText query fragment).head? = some c) : c ∈ str "?#" := by
  rcases suffixText_head h with rfl | rfl
  · decide
  · decide

/-- A printed path starts with a scheme if its first segment has a colon. -/
theorem hasScheme_encode (path query fragment : Bytes) :
    hasScheme (encode path urlReservedPath ++ suffixText query fragment) = colonFirst path := by
  have hscan : (encode path urlReservedPath ++ suffixText query fragment).dropWhile
      (· ∉ str ":?#/") = encode (path.dropWhile (· ∉ str ":/")) urlReservedPath ++
        suffixText query fragment := by
    refine dropWhile_encode (fun c => ?_) (fun c hc => hc) (fun c hc => suffixText_end hc) path
    simp only [str]
    simp
    tauto
  rw [hasScheme, colonFirst, hscan,
    decide_eq_decide.mpr (head_encode (by decide) (suffixText_head_ne (by decide) _ _) _),
    decide_eq_decide.mpr (not_congr
      (head_encode (by decide) (suffixText_head_ne (by decide) _ _) _))]

/-- Two slashes at the start of a text. -/
theorem doubleSlash_iff {l : Bytes} :
    str "//" <+: l ↔ l.head? = some (chr '/') ∧ l.tail.head? = some (chr '/') := by
  constructor
  · rintro ⟨r, rfl⟩
    exact ⟨rfl, rfl⟩
  · rintro ⟨hfirst, hsecond⟩
    rcases l with _ | ⟨a, _ | ⟨b, l⟩⟩
    · cases hfirst
    · cases hsecond
    · obtain rfl : a = chr '/' := Option.some.inj hfirst
      obtain rfl : b = chr '/' := Option.some.inj hsecond
      exact ⟨l, rfl⟩

/-- The text after a scheme starts with two slashes exactly if the path does. -/
theorem doubleSlash_encode (path query fragment : Bytes) :
    str "//" <+: encode path urlReservedPath ++ suffixText query fragment ↔ str "//" <+: path := by
  have hhead := fun p => head_encode (c := chr '/') (by decide)
    (suffixText_head_ne (by decide) query fragment) p
  rw [doubleSlash_iff, doubleSlash_iff, hhead]
  refine and_congr_right fun hslash => ?_
  cases path with
  | nil => cases hslash
  | cons c path =>
      obtain rfl : c = chr '/' := Option.some.inj hslash
      rw [encode_slash, List.cons_append, List.tail_cons, List.tail_cons, hhead]

/-- A printed path is read as a path, if it does not start with two slashes. -/
theorem parseHierarchy_encode {path query : Bytes} (hquery : chr '#' ∉ query)
    (hslashes : ¬str "//" <+: path) (res : Url) (fragment : Bytes) :
    parseHierarchy res (encode path urlReservedPath ++ suffixText query fragment) =
      .ok { res with path := path, query := query, fragment := fragment } := by
  rw [parseHierarchy, if_neg (fun h => hslashes ((doubleSlash_encode _ _ _).mp h)),
    parsePathQueryFragment_encode hquery]

/-- Two slashes in front of a printed path are read as those of an authority, which eats the first
segment. -/
theorem path_of_parseHierarchy {res url : Url} {path query fragment : Bytes}
    (hquery : chr '#' ∉ query)
    (h : parseHierarchy res
      (str "//" ++ (encode path urlReservedPath ++ suffixText query fragment)) = .ok url) :
    url.path = path.dropWhile (· ∉ str "/") := by
  have hscan : (encode path urlReservedPath ++ suffixText query fragment).dropWhile
      (· ∉ str "/?#") = encode (path.dropWhile (· ∉ str "/")) urlReservedPath ++
        suffixText query fragment := by
    refine dropWhile_encode (fun c => ?_) (fun c hc => ?_) (fun c hc => suffixText_end hc) path
    · simp only [str]
      simp
    · obtain rfl : c = chr '/' := by simpa [str] using hc
      decide
  rw [parseHierarchy, if_pos (List.prefix_append _ _),
    List.drop_left' (show (str "//").length = 2 from rfl)] at h
  generalize hit : encode path urlReservedPath ++ suffixText query fragment = it at h hscan
  simp only [bind_eq_ok, pure_eq_ok] at h
  obtain ⟨⟨res', rest⟩, hauth, rfl⟩ := h
  obtain ⟨rfl, -, -⟩ := parseAuthority_reads
    (t := UrlText.ofPath none (it.takeWhile (· ∉ str "/?#")) []) rfl hauth
  rw [hscan, parsePathQueryFragment_encode hquery]

/-- A path that starts with two slashes is read shorter than it was printed. -/
theorem length_path_of_parseHierarchy {res url : Url} {path query fragment : Bytes}
    (hquery : chr '#' ∉ query) (hslashes : str "//" <+: path)
    (h : parseHierarchy res (encode path urlReservedPath ++ suffixText query fragment) = .ok url) :
    url.path.length < path.length := by
  obtain ⟨r, rfl⟩ := hslashes
  rw [encode_append, show encode (str "//") urlReservedPath = str "//" by decide,
    List.append_assoc] at h
  have hle := (List.dropWhile_suffix (l := r) fun c => decide (c ∉ str "/")).length_le
  have htwo : (str "//").length = 2 := rfl
  rw [path_of_parseHierarchy hquery h, List.length_append]
  omega

/-! ## The authority, printed and parsed -/

/-- The host as `get_authority` prints it. -/
def hostText (host : Bytes) : Bytes :=
  if chr ':' ∈ host then str "[" ++ host ++ str "]" else host

/-- The port as `get_authority` prints it. -/
def portText (port : UInt16) : Bytes := if port = 0 then [] else str ":" ++ decimal port.toNat

/-- No port is printed exactly if it is zero. -/
theorem portText_eq_nil {port : UInt16} : portText port = [] ↔ port = 0 := by
  unfold portText
  split
  · exact iff_of_true rfl ‹_›
  · exact iff_of_false (by simp [str]) ‹_›

/-- No well-known port is zero. -/
theorem wellKnown_ne_zero {scheme : Bytes} {port : UInt16}
    (h : urlWellKnownPorts.lookup scheme = some port) : port ≠ 0 := by
  have hall : ∀ x ∈ urlWellKnownPorts, x.2 ≠ 0 := by
    decide
  obtain ⟨l, l', hsplit, -⟩ := List.lookup_eq_some_iff.mp h
  exact hall (scheme, port) (by rw [hsplit]; simp)

/-- An URL has no effective port if it has no port and its scheme has none. -/
theorem getPort_eq_zero {url : Url} :
    url.getPort = 0 ↔ url.port = 0 ∧ urlWellKnownPorts.lookup url.scheme = none := by
  unfold getPort
  split
  · rename_i hport
    exact iff_of_false hport fun h => hport h.1
  · rename_i hport
    cases hlookup : urlWellKnownPorts.lookup url.scheme with
    | none => exact iff_of_true rfl ⟨not_not.mp hport, rfl⟩
    | some port => exact iff_of_false (wellKnown_ne_zero hlookup) (by simp)

/-- `get_authority` prints the effective port. -/
theorem getAuthority_eq (url : Url) : url.getAuthority =
    (if url.userInfo = [] then [] else url.userInfo ++ str "@") ++
      (hostText url.host ++ portText url.getPort) := by
  rw [getAuthority, hostText, List.append_assoc]
  congr 2
  unfold getPort portText
  by_cases hport : url.port ≠ 0
  · rw [if_pos hport, if_pos hport, if_neg hport]
  · rw [if_neg hport, if_neg hport]
    cases hlookup : urlWellKnownPorts.lookup url.scheme with
    | none => rfl
    | some port => exact (if_neg (wellKnown_ne_zero hlookup)).symm

/-- An URL without user info, host and effective port has no authority. -/
theorem getAuthority_eq_nil {url : Url} :
    url.getAuthority = [] ↔ url.userInfo = [] ∧ url.host = [] ∧ url.getPort = 0 := by
  rw [getAuthority_eq, List.append_eq_nil_iff, List.append_eq_nil_iff, portText_eq_nil]
  refine and_congr ?_ (and_congr_left' ?_)
  · split
    · exact iff_of_true rfl ‹_›
    · exact iff_of_false (by simp [str]) ‹_›
  · unfold hostText
    split
    · rename_i hcolon
      exact iff_of_false (by simp [str]) fun hnil => by rw [hnil] at hcolon; cases hcolon
    · rfl

/-- A printed port is read back. -/
theorem parsePortPart_portText (port : UInt16) : parsePortPart (portText port) = .ok port := by
  unfold portText
  split
  · subst port
    rfl
  · rename_i hport
    have hlt := port.toNat_lt
    have hpos : 0 < port.toNat := Nat.pos_of_ne_zero fun h0 => hport (UInt16.toNat.inj h0)
    change (if chr ':' = chr ':' then parsePort (decimal port.toNat) else .ok 0) = .ok port
    rw [if_pos rfl, parsePort, if_neg (decimal_ne_nil _)]
    simp only [tryParseInt_decimal (show port.toNat < 2 ^ 31 by omega)]
    rw [if_pos (by omega), Int.toNat_natCast, UInt16.ofNat_toNat]

/-- A printed port has no delimiter of the authority and no bracket. -/
theorem portText_chars {port : UInt16} {c : UInt8} (h : c ∈ portText port) :
    c ∉ str "@/?#" ∧ c ≠ chr '[' ∧ c ≠ chr ']' := by
  unfold portText at h
  split at h
  · cases h
  · rcases List.mem_append.mp h with h | h
    · obtain rfl : c = chr ':' := by simpa [str] using h
      decide
    · exact forall_digit (p := fun c => c ∉ str "@/?#" ∧ c ≠ chr '[' ∧ c ≠ chr ']') (by decide)
        (isDigit_of_mem_decimal h)

/-- A printed port starts with a colon. -/
theorem portText_head {port : UInt16} {c : UInt8} (h : (portText port).head? = some c) :
    c = chr ':' := by
  unfold portText at h
  split at h
  · cases h
  · exact (Option.some.inj h).symm

/-- A host without bracket ends before the colon. -/
theorem parseHost_plain {part : Bytes} (h : part.head? ≠ some (chr '[')) :
    parseHost part = .ok (part.span (· ≠ chr ':')) := by
  cases part with
  | nil => rfl
  | cons c part =>
      have hc : c ≠ chr '[' := fun heq => h (by rw [heq]; rfl)
      rw [parseHost, if_neg hc]

/-- A printed host ends where it should, but for one that starts with a bracket and has no colon. -/
theorem parseHost_hostText {host : Bytes}
    (hbracket : chr ':' ∈ host ∨ host.head? = some (chr '[') → chr ']' ∉ host) (port : UInt16) :
    parseHost (hostText host ++ portText port) =
      if host.head? = some (chr '[') ∧ chr ':' ∉ host then .error (str "unterminated IPv6 address")
      else .ok (host, portText port) := by
  by_cases hcolon : chr ':' ∈ host
  · rw [if_neg fun h => h.2 hcolon, hostText, if_pos hcolon]
    have hspan : (host ++ chr ']' :: portText port).span (· ≠ chr ']') =
        (host, chr ']' :: portText port) :=
      span_append_cons (decide_ne_of_not_mem (hbracket (.inl hcolon))) (by decide)
    have htext : str "[" ++ host ++ str "]" ++ portText port =
        chr '[' :: (host ++ chr ']' :: portText port) := by
      simp [str]
    rw [htext, parseHost, if_pos rfl, hspan]
  · rw [hostText, if_neg hcolon]
    by_cases hopen : host.head? = some (chr '[')
    · rw [if_pos ⟨hopen, hcolon⟩]
      cases host with
      | nil => cases hopen
      | cons c host =>
          obtain rfl : c = chr '[' := Option.some.inj hopen
          have hclose : chr ']' ∉ host ++ portText port := fun h => by
            rcases List.mem_append.mp h with h | h
            · exact hbracket (.inr rfl) (List.mem_cons_of_mem _ h)
            · exact (portText_chars h).2.2 rfl
          have hspan : (host ++ portText port).span (· ≠ chr ']') = (host ++ portText port, []) :=
            span_eq_self (decide_ne_of_not_mem hclose)
          rw [List.cons_append, parseHost, if_pos rfl, hspan]
    · rw [if_neg fun h => hopen h.1]
      have hhead : (host ++ portText port).head? ≠ some (chr '[') := by
        cases host with
        | nil => exact fun h => absurd (portText_head h) (by decide)
        | cons c host => exact hopen
      rw [parseHost_plain hhead]
      cases hport : portText port with
      | nil => rw [List.append_nil, span_eq_self (decide_ne_of_not_mem hcolon)]
      | cons c digits =>
          obtain rfl : c = chr ':' := portText_head (by rw [hport]; rfl)
          rw [span_append_cons (decide_ne_of_not_mem hcolon) (by decide)]

/-- A printed host and port are read back, but for a host that starts with a bracket and has no
colon. -/
theorem parseHostAndPort_hostText {host : Bytes}
    (hbracket : chr ':' ∈ host ∨ host.head? = some (chr '[') → chr ']' ∉ host) (port : UInt16) :
    parseHostAndPort (hostText host ++ portText port) =
      if host.head? = some (chr '[') ∧ chr ':' ∉ host then .error (str "unterminated IPv6 address")
      else .ok (hostCase host, port) := by
  rw [parseHostAndPort, parseHost_hostText hbracket]
  split
  · rfl
  · simp only [bind, Except.bind, parsePortPart_portText, pure, Except.pure]
    rfl

/-- A printed host and port have no delimiter of the authority. -/
theorem hostText_portText_chars {host : Bytes} (hhost : ∀ c ∈ host, c ∉ str "@/?#") (port : UInt16) :
    ∀ c ∈ hostText host ++ portText port, c ∉ str "@/?#" := by
  intro c hc
  rcases List.mem_append.mp hc with hc | hc
  · unfold hostText at hc
    split at hc
    · simp only [List.mem_append] at hc
      rcases hc with (hc | hc) | hc
      · obtain rfl : c = chr '[' := by simpa [str] using hc
        decide
      · exact hhost c hc
      · obtain rfl : c = chr ']' := by simpa [str] using hc
        decide
    · exact hhost c hc
  · exact (portText_chars hc).1

/-- **A printed authority is read back**, but for a host that starts with a bracket and has no colon. -/
theorem parseAuthority_getAuthority {url : Url} (hwf : WellFormed url) {it : Bytes}
    (hit : ∀ c, it.head? = some c → c ∈ str "/?#") (res : Url) :
    parseAuthority res (url.getAuthority ++ it) =
      if url.host.head? = some (chr '[') ∧ chr ':' ∉ url.host then
        .error (str "unterminated IPv6 address")
      else .ok ({ res with
        userInfo := url.userInfo, host := url.host, port := url.getPort }, it) := by
  have hpart := hostText_portText_chars hwf.host_chars url.getPort
  have hread := parseHostAndPort_hostText hwf.host_bracket url.getPort
  rw [hwf.host_lower] at hread
  rw [getAuthority_eq]
  by_cases huser : url.userInfo = []
  · rw [if_pos huser, List.nil_append, parseAuthority_part hpart hit, hread, huser]
    split
    · rfl
    · rfl
  · rw [if_neg huser, show url.userInfo ++ str "@" ++ (hostText url.host ++ portText url.getPort) ++
        it = url.userInfo ++ chr '@' :: (hostText url.host ++ portText url.getPort ++ it) by simp [str],
      parseAuthority_userInfo hwf.userInfo_chars hpart hit, hread]
    split
    · rfl
    · rfl

/-! ## The printed URL -/

/-- The path as `to_string` prints it, before it is encoded. -/
def printedPath (url : Url) : Bytes :=
  if url.scheme = [] then url.path
  else if url.path = [] then if url.query = [] ∧ url.fragment = [] then [] else str "/"
  else if url.getAuthority ≠ [] ∧ url.path.head? ≠ some (chr '/') then chr '/' :: url.path
  else url.path

/-- The text of an URL without scheme. -/
theorem toString_relative {url : Url} (hscheme : url.scheme = []) :
    url.toString = encode url.path urlReservedPath ++ suffixText url.query url.fragment := by
  rw [toString, if_pos hscheme, List.append_assoc, suffixText]

/-- The text of an URL with a scheme. -/
theorem toString_absolute {url : Url} (hscheme : url.scheme ≠ []) :
    url.toString = url.scheme ++ chr ':' ::
      ((if url.getAuthority ≠ [] ∨ url.scheme = str "file" then str "//" ++ url.getAuthority else []) ++
        (encode url.printedPath urlReservedPath ++ suffixText url.query url.fragment)) := by
  have hpath : url.pathToString url.getAuthority = encode url.printedPath urlReservedPath := by
    rw [pathToString, printedPath, if_neg hscheme]
    by_cases hpath : url.path = []
    · rw [if_neg (not_not.mpr hpath), if_pos hpath]
      by_cases hsuffix : url.query = [] ∧ url.fragment = []
      · rw [if_pos hsuffix, if_neg (by simp [hsuffix.1, hsuffix.2])]
        rfl
      · rw [if_neg hsuffix, if_pos (by rwa [← not_and_or])]
        decide
    · rw [if_pos hpath, if_neg hpath]
      split
      · rw [encode_slash]
        rfl
      · rfl
  simp only [toString, hscheme, if_false, hpath]
  simp [suffixText, str]

/-- What follows the authority in a printed URL ends it, if the printed path starts with a slash. -/
theorem end_of_printed {path query fragment : Bytes}
    (hpath : path = [] ∨ path.head? = some (chr '/')) {c : UInt8}
    (h : (encode path urlReservedPath ++ suffixText query fragment).head? = some c) :
    c ∈ str "/?#" := by
  have hdelimiter : ∀ x ∈ str "?#", x ∈ str "/?#" :=
    forall_mem_of_all (by decide)
  cases path with
  | nil => exact hdelimiter c (suffixText_end h)
  | cons x path =>
      obtain rfl : x = chr '/' := by simpa using hpath
      rw [encode_slash] at h
      obtain rfl : chr '/' = c := Option.some.inj h
      decide

/-- The printed path starts with a slash wherever there is an authority. -/
theorem printedPath_head {url : Url} (hscheme : url.scheme ≠ [])
    (h : url.getAuthority ≠ [] ∨ url.path = [] ∨ url.path.head? = some (chr '/')) :
    url.printedPath = [] ∨ url.printedPath.head? = some (chr '/') := by
  rw [printedPath, if_neg hscheme]
  by_cases hpath : url.path = []
  · rw [if_pos hpath]
    split
    · exact .inl rfl
    · exact .inr rfl
  · rw [if_neg hpath]
    split
    · exact .inr rfl
    · rename_i hslash
      by_cases hhead : url.path.head? = some (chr '/')
      · exact .inr hhead
      · exact absurd h (by simpa [hpath, hhead] using hslash)

end Url

end SocialNetwork.Helpers
