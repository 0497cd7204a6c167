import SocialNetwork.Foundation.Exceptions
import SocialNetwork.Helpers.Url

/-!
# Texts of URLs

What the parser of `Url` makes of an authority that is assembled from its parts, percent-encoding
as a round trip, and the authority in the text that `to_string` prints.
-/

namespace SocialNetwork.Helpers

open Foundation

/-! ## Percent-encoding -/

/-- The characters of an escape sequence. -/
theorem isUnreserved_hexByte {d : Nat} (h : d < 16) : isUnreserved (hexByte d) = true := by
  interval_cases d <;> decide

/-- The characters of an escape are a percent sign and unreserved. -/
theorem not_mem_escape {c : UInt8} (hun : isUnreserved c = false) (hpercent : c ≠ chr '%')
    (x : UInt8) : c ∉ [chr '%', hexByte (x.toNat / 16), hexByte (x.toNat % 16)] := by
  have hhex : ∀ d < 16, c ≠ hexByte d := fun d hd heq => by
    rw [heq, isUnreserved_hexByte hd] at hun
    cases hun
  have hdiv : x.toNat / 16 < 16 := by
    have := x.toNat_lt
    omega
  have hmod : x.toNat % 16 < 16 := Nat.mod_lt _ (by norm_num)
  simp [hpercent, hhex _ hdiv, hhex _ hmod]

/-- A reserved character is escaped. -/
theorem not_mem_encode {s reserved : Bytes} {c : UInt8} (hres : c ∈ reserved)
    (hun : isUnreserved c = false) (hpercent : c ≠ chr '%') : c ∉ encode s reserved := fun h => by
  obtain ⟨x, -, hx⟩ := List.mem_flatMap.mp h
  unfold encodeChar at hx
  split at hx
  · rename_i hkeep
    obtain rfl : c = x := by simpa using hx
    rw [hun] at hkeep
    cases hkeep
  · split at hx
    · exact not_mem_escape hun hpercent x hx
    · rename_i hkeep
      obtain rfl : c = x := by simpa using hx
      simp [hres] at hkeep

/-- A character that starts no escape sequence stands for itself. -/
theorem decodeLoop_plain {c : UInt8} (hc : c ≠ chr '%') (inQuery : Bool) (it : Bytes) :
    decodeLoop false inQuery (c :: it) =
      (decodeLoop false (inQuery || c = chr '?') it).map (c :: ·) := by
  have hplus : (((inQuery || c = chr '?') && false && decide (c = chr '+')) = true) = False := by simp
  rcases it with _ | ⟨hi, _ | ⟨lo, it⟩⟩
  all_goals
    conv_lhs => unfold decodeLoop
    simp only [hplus, if_false, hc]

/-- Decoding an escaped character. -/
theorem decodeLoop_encodeChar (reserved rest : Bytes) (c : UInt8) (inQuery : Bool) :
    ∃ inQuery', decodeLoop false inQuery (encodeChar reserved c ++ rest) =
      (decodeLoop false inQuery' rest).map (c :: ·) := by
  have hplain : c ≠ chr '%' → ∃ inQuery', decodeLoop false inQuery ([c] ++ rest) =
      (decodeLoop false inQuery' rest).map (c :: ·) := fun hc =>
    ⟨inQuery || c = chr '?', decodeLoop_plain hc inQuery rest⟩
  unfold encodeChar
  split
  · rename_i hkeep
    refine hplain fun hc => ?_
    rw [hc] at hkeep
    exact absurd hkeep (by decide)
  · split
    · have hlt := c.toNat_lt
      have hdiv : hexDigitValue (hexByte (c.toNat / 16)) = some (c.toNat / 16) :=
        hexDigitValue_hexByte (by omega)
      have hmod : hexDigitValue (hexByte (c.toNat % 16)) = some (c.toNat % 16) :=
        hexDigitValue_hexByte (Nat.mod_lt _ (by norm_num))
      have hvalue : 16 * (c.toNat / 16) + c.toNat % 16 = c.toNat := by omega
      refine ⟨inQuery, ?_⟩
      simp [decodeLoop, hdiv, hmod, hvalue, show chr '%' ≠ chr '?' by decide]
    · rename_i hkeep
      refine hplain fun hc => ?_
      rw [hc] at hkeep
      exact absurd hkeep (by simp [urlIllegal, str])

/-- **Decoding what was encoded.** -/
theorem decodeLoop_encode (s reserved : Bytes) (inQuery : Bool) :
    decodeLoop false inQuery (encode s reserved) = some s := by
  induction s generalizing inQuery with
  | nil => rfl
  | cons c s ih =>
      obtain ⟨inQuery', h⟩ := decodeLoop_encodeChar reserved (encode s reserved) c inQuery
      rw [encode, List.flatMap_cons, ← encode, h, ih]
      rfl

/-- Decoding undoes encoding. -/
theorem decode_encode (s reserved : Bytes) : decode (encode s reserved) = s := by
  rw [decode, decodeInto, decodeLoop_encode]
  rfl

/-- A text without escapes stands for itself. -/
theorem decode_plain {s : Bytes} (h : chr '%' ∉ s) : decode s = s := by
  have hloop : ∀ inQuery, decodeLoop false inQuery s = some s := by
    induction s with
    | nil => intro inQuery; rfl
    | cons c s ih =>
        intro inQuery
        have hc : c ≠ chr '%' := fun hc => h (hc ▸ List.mem_cons_self)
        rw [decodeLoop_plain hc, ih fun hm => h (List.mem_cons_of_mem _ hm)]
        rfl
  rw [decode, decodeInto, hloop]
  rfl

/-- The percent-encoded texts of a value: `%` stands before two hexadecimal digits and nowhere else. -/
inductive Escapes : Bytes → Bytes → Prop
  | nil : Escapes [] []
  | plain {c : UInt8} {text value : Bytes} (hc : c ≠ chr '%') (h : Escapes text value) :
      Escapes (c :: text) (c :: value)
  | escape {hi lo : UInt8} {a b : Nat} {text value : Bytes} (hhi : hexDigitValue hi = some a)
      (hlo : hexDigitValue lo = some b) (h : Escapes text value) :
      Escapes (chr '%' :: hi :: lo :: text) (UInt8.ofNat (16 * a + b) :: value)

/-- A percent-encoded text is decoded to its value. -/
theorem Escapes.decodeLoop {text value : Bytes} (h : Escapes text value) (inQuery : Bool) :
    decodeLoop false inQuery text = some value := by
  induction h generalizing inQuery with
  | nil => rfl
  | plain hc _ ih => rw [decodeLoop_plain hc, ih, Option.map_some]
  | escape hhi hlo _ ih =>
      simp [Helpers.decodeLoop, hhi, hlo, ih, show chr '%' ≠ chr '?' by decide]

/-- **What is decoded is percent-encoded.** -/
theorem decodeLoop_eq_some_iff {inQuery : Bool} {text value : Bytes} :
    decodeLoop false inQuery text = some value ↔ Escapes text value := by
  refine ⟨fun h => ?_, fun h => h.decodeLoop inQuery⟩
  induction hn : text.length using Nat.strong_induction_on generalizing inQuery text value with
  | _ n ih =>
      cases text with
      | nil =>
          obtain rfl := Option.some.inj h
          exact .nil
      | cons c text =>
          by_cases hc : c = chr '%'
          · subst hc
            rcases text with _ | ⟨hi, _ | ⟨lo, text⟩⟩
            · simp [decodeLoop, show chr '%' ≠ chr '?' by decide] at h
            · simp [decodeLoop, show chr '%' ≠ chr '?' by decide] at h
            · unfold decodeLoop at h
              simp only [Bool.and_false, Bool.false_and, Bool.false_eq_true, if_false, if_true] at h
              cases hhi : hexDigitValue hi with
              | none => simp [hhi] at h
              | some a =>
                  cases hlo : hexDigitValue lo with
                  | none => simp [hhi, hlo] at h
                  | some b =>
                      simp only [hhi, hlo] at h
                      obtain ⟨rest, hrest, rfl⟩ := Option.map_eq_some_iff.mp h
                      refine .escape hhi hlo (ih text.length ?_ hrest rfl)
                      simp only [List.length_cons] at hn
                      omega
          · rw [decodeLoop_plain hc] at h
            obtain ⟨rest, hrest, rfl⟩ := Option.map_eq_some_iff.mp h
            refine .plain hc (ih text.length ?_ hrest rfl)
            simp only [List.length_cons] at hn
            omega

/-- The value of a percent-encoded text. -/
theorem Escapes.decode {text value : Bytes} (h : Escapes text value) : decode text = value := by
  rw [Helpers.decode, decodeInto, h.decodeLoop]
  rfl

/-- A text that is decoded to something is percent-encoded. -/
theorem escapes_decode {text : Bytes} (h : decode text ≠ []) : Escapes text (decode text) := by
  cases hloop : decodeLoop false false text with
  | none => exact absurd (by rw [decode, decodeInto, hloop]; rfl) h
  | some value => rw [decode, decodeInto, hloop]; exact decodeLoop_eq_some_iff.mp hloop

/-- A leading slash is not encoded. -/
theorem encode_slash (s : Bytes) :
    encode (chr '/' :: s) urlReservedPath = chr '/' :: encode s urlReservedPath := by
  have hslash : encodeChar urlReservedPath (chr '/') = [chr '/'] := by decide
  rw [encode, List.flatMap_cons, hslash, ← encode, List.singleton_append]

namespace Url

/-! ## The authority, parsed -/

/-- A text without delimiters belongs to the part that is being read. -/
theorem authorityLoop_append {userInfo part l : Bytes} (hl : ∀ c ∈ l, c ∉ str "@/?#")
    (it : Bytes) : authorityLoop userInfo part (l ++ it) = authorityLoop userInfo (part ++ l) it := by
  induction l generalizing part with
  | nil => rw [List.append_nil, List.nil_append]
  | cons c l ih =>
      have hc : c ≠ chr '@' ∧ c ≠ chr '/' ∧ c ≠ chr '?' ∧ c ≠ chr '#' := by
        simpa [str] using hl c List.mem_cons_self
      obtain ⟨hat, hslash, hquery, hfragment⟩ := hc
      rw [List.cons_append, authorityLoop, if_neg (by simp [hslash, hquery, hfragment]), if_neg hat,
        ih fun x hx => hl x (List.mem_cons_of_mem _ hx), List.append_assoc, List.singleton_append]

/-- At an `@`, what was read is the user info. -/
theorem authorityLoop_at (userInfo part it : Bytes) :
    authorityLoop userInfo part (chr '@' :: it) = authorityLoop part [] it := by
  rw [authorityLoop, if_neg (by decide), if_pos rfl]

/-- The authority ends before a path, a query or a fragment. -/
theorem authorityLoop_end {it : Bytes} (h : ∀ c, it.head? = some c → c ∈ str "/?#")
    (userInfo part : Bytes) : authorityLoop userInfo part it = (userInfo, part, it) := by
  cases it with
  | nil => rfl
  | cons c it =>
      have hc : c = chr '/' ∨ c = chr '?' ∨ c = chr '#' := by simpa [str] using h c rfl
      rw [authorityLoop, if_pos (by simpa [or_assoc] using hc)]

/-- The scheme of a database URL is taken off. -/
theorem parse_postgresql (s : Bytes) :
    parse (str "postgresql://" ++ s) = (do
      let (res, it) ← parseAuthority { empty with scheme := str "postgresql" } s
      return parsePathQueryFragment res it) := by
  have htext : str "postgresql://" ++ s = str "postgresql" ++ chr ':' :: (str "//" ++ s) := by
    simp [str]
  have hspan : (str "postgresql" ++ chr ':' :: (str "//" ++ s)).span
      (fun c => c ≠ chr ':' && c ≠ chr '?' && c ≠ chr '#' && c ≠ chr '/') =
      (str "postgresql", chr ':' :: (str "//" ++ s)) :=
    span_append_cons (forall_mem_of_all (by decide)) (by decide)
  have hlower : toLowercase (str "postgresql") = str "postgresql" := by decide
  obtain ⟨tail, htail⟩ : ∃ tail, str "postgresql" ++ chr ':' :: (str "//" ++ s) = chr 'p' :: tail :=
    ⟨_, rfl⟩
  rw [htext]
  rw [htail] at hspan ⊢
  rw [parse, if_neg (by decide)]
  simp only [hspan, if_true, hlower, List.drop_left' (show (str "//").length = 2 from rfl),
    List.prefix_append]
  rw [if_neg (by simp [str])]

/-- An authority with user info. -/
theorem parseAuthority_userInfo {userInfo part it : Bytes} (huser : ∀ c ∈ userInfo, c ∉ str "@/?#")
    (hpart : ∀ c ∈ part, c ∉ str "@/?#") (hit : ∀ c, it.head? = some c → c ∈ str "/?#")
    (res : Url) :
    parseAuthority res (userInfo ++ chr '@' :: (part ++ it)) = (do
      let (host, port) ← parseHostAndPort part
      return ({ res with userInfo := userInfo, host := host, port := port }, it)) := by
  rw [parseAuthority, authorityLoop_append huser, authorityLoop_at, authorityLoop_append hpart,
    authorityLoop_end hit]
  rfl

/-- An authority without user info. -/
theorem parseAuthority_part {part it : Bytes} (hpart : ∀ c ∈ part, c ∉ str "@/?#")
    (hit : ∀ c, it.head? = some c → c ∈ str "/?#") (res : Url) :
    parseAuthority res (part ++ it) = (do
      let (host, port) ← parseHostAndPort part
      return ({ res with userInfo := [], host := host, port := port }, it)) := by
  rw [parseAuthority, authorityLoop_append hpart, authorityLoop_end hit]
  rfl

/-- A path without query and fragment. -/
theorem parsePathQueryFragment_path {path : Bytes} (h : chr '?' ∉ path ∧ chr '#' ∉ path)
    (url : Url) : parsePathQueryFragment url path =
      { url with path := decode path, query := [], fragment := [] } := by
  have hspan : path.span (fun c => c ≠ chr '?' && c ≠ chr '#') = (path, []) :=
    span_eq_self fun c hc => by
      have hquery : c ≠ chr '?' := fun heq => h.1 (heq ▸ hc)
      have hfragment : c ≠ chr '#' := fun heq => h.2 (heq ▸ hc)
      simp [hquery, hfragment]
  rw [parsePathQueryFragment, hspan]
  rfl

/-- A path with a segment. -/
theorem segmentsLoop_ne_nil {seg : Bytes} (h : seg ≠ []) (s : Bytes) : segmentsLoop seg s ≠ [] := by
  induction s generalizing seg with
  | nil => simp [segmentsLoop, h]
  | cons c s ih =>
      rw [segmentsLoop]
      split
      · exact List.cons_ne_nil _ _
      · exact ih (by simp)

/-- A path has no segment exactly if it consists of slashes. -/
theorem segmentsLoop_eq_nil_iff {s : Bytes} : segmentsLoop [] s = [] ↔ ∀ c ∈ s, c = chr '/' := by
  induction s with
  | nil => simp [segmentsLoop]
  | cons c s ih =>
      rw [segmentsLoop, List.forall_mem_cons]
      by_cases hc : c = chr '/'
      · rw [if_pos hc, if_pos rfl, ih]
        simp [hc]
      · rw [if_neg hc]
        exact iff_of_false (segmentsLoop_ne_nil (by simp) s) fun h => hc h.1

/-- A path with something else than slashes has a segment. -/
theorem segmentsLoop_ne_nil_of_mem {s : Bytes} {c : UInt8} (hmem : c ∈ s) (hc : c ≠ chr '/') :
    segmentsLoop [] s ≠ [] := fun h => hc (segmentsLoop_eq_nil_iff.mp h c hmem)

/-- A delimiter is not the lower case of another character. -/
theorem eq_of_toLowercaseCh_delimiter {c x : UInt8} (hc : c ∈ str "[]:@/?#%")
    (h : toLowercaseCh x = c) : x = c := by
  have hupper : ∀ n < 26, toLowercaseCh (UInt8.ofNat (65 + n)) ∉ str "[]:@/?#%" := by
    decide
  refine eq_of_toLowercaseCh (fun n hn heq => ?_) h
  rw [← heq] at hc
  exact hupper n hn hc

/-- Lower case brings in no delimiter. -/
theorem mem_of_mem_toLowercase {c : UInt8} (hc : c ∈ str "[]:@/?#%") {s : Bytes}
    (h : c ∈ toLowercase s) : c ∈ s := by
  obtain ⟨x, hx, heq⟩ := List.mem_map.mp h
  rwa [← eq_of_toLowercaseCh_delimiter hc heq]

/-- Characters of a host come from the part. -/
theorem mem_of_parseHost {part host it : Bytes} (h : parseHost part = .ok (host, it)) {c : UInt8}
    (hmem : c ∈ host) : c ∈ part := by
  cases part with
  | nil =>
      obtain ⟨rfl, -⟩ : [] = host ∧ [] = it := by simpa [parseHost] using h
      cases hmem
  | cons x part =>
      simp only [parseHost, List.span_eq_takeWhile_dropWhile] at h
      split at h
      · split at h
        · cases h
        · rename_i heq
          obtain ⟨rfl, rfl⟩ := Prod.mk.inj (Except.ok.inj h)
          rw [← (Prod.mk.inj heq).1] at hmem
          exact List.mem_cons_of_mem _ ((List.takeWhile_prefix _).subset hmem)
      · rw [← (Prod.mk.inj (Except.ok.inj h)).1] at hmem
        exact (List.takeWhile_prefix _).subset hmem

/-- A delimiter in the host is one in the text of host and port. -/
theorem mem_of_parseHostAndPort {part host : Bytes} {port : UInt16}
    (h : parseHostAndPort part = .ok (host, port)) {c : UInt8} (hc : c ∈ str "[]:@/?#%")
    (hmem : c ∈ host) : c ∈ part := by
  simp only [parseHostAndPort, bind_eq_ok, pure_eq_ok, Prod.mk.injEq] at h
  obtain ⟨⟨raw, it⟩, hhost, p, -, rfl, -⟩ := h
  apply mem_of_parseHost hhost
  split at hmem
  · exact hmem
  · exact mem_of_mem_toLowercase hc hmem

/-! ## The authority, printed -/

/-- The authority in the text of an URL: from the `//` after the scheme to the next `/`, `?` or
`#`. -/
def authorityOf (url : Bytes) : Bytes :=
  ((url.dropWhile (· ≠ chr ':')).drop 3).takeWhile fun c => c ∉ str "/?#"

/-- The authority after `postgresql://` ends before the first of `/?#`. -/
theorem authorityOf_postgresql (s : Bytes) :
    authorityOf (str "postgresql://" ++ s) = s.takeWhile fun c => c ∉ str "/?#" := by
  have htext : str "postgresql://" ++ s = str "postgresql" ++ (str "://" ++ s) := by simp [str]
  rw [authorityOf, htext, List.dropWhile_append_of_pos (forall_mem_of_all (by decide))]
  rfl

/-- The text of an URL with a path. -/
theorem toString_of_path {url : Url} (hscheme : url.scheme = str "postgresql")
    (hpath : url.path ≠ []) (hfragment : url.fragment = []) :
    url.toString = str "postgresql://" ++ url.getAuthority ++
      ((if url.path.head? ≠ some (chr '/') then str "/" else []) ++
        encode url.path urlReservedPath) ++
      if url.query = [] then [] else str "?" ++ url.query := by
  have hauth : url.getAuthority ≠ [] := by
    intro h
    have hlookup : urlWellKnownPorts.lookup url.scheme = some 5432 := by rw [hscheme]; rfl
    have hport := (List.append_eq_nil_iff.mp h).2
    rw [hlookup] at hport
    split at hport <;> simp [str] at hport
  simp only [toString, pathToString, hscheme, hpath, hfragment, hauth, ne_eq, not_false_eq_true,
    true_and, true_or, if_true, List.append_nil, not_true_eq_false]
  rw [if_neg (show ¬str "postgresql" = [] by decide)]
  simp [str]

/-- **The printed authority of an URL with a path.** -/
theorem mem_authorityOf_toString {url : Url} (hscheme : url.scheme = str "postgresql")
    (hpath : url.path ≠ []) (hfragment : url.fragment = []) {c : UInt8}
    (h : c ∈ authorityOf url.toString) : c ∈ url.getAuthority := by
  obtain ⟨rest, hrest⟩ : ∃ rest, url.toString =
      str "postgresql://" ++ (url.getAuthority ++ chr '/' :: rest) := by
    rw [toString_of_path hscheme hpath hfragment]
    split
    · exact ⟨_, by simp only [List.append_assoc]; rfl⟩
    · rename_i hslash
      cases hp : url.path with
      | nil => exact absurd hp hpath
      | cons x path =>
          obtain rfl : x = chr '/' := by simpa [hp] using hslash
          refine ⟨encode path urlReservedPath ++ if url.query = [] then [] else str "?" ++ url.query, ?_⟩
          rw [encode_slash]
          simp only [List.append_assoc, List.nil_append, List.cons_append]
  rw [hrest, authorityOf_postgresql] at h
  by_cases hall : ∀ x ∈ url.getAuthority, decide (x ∉ str "/?#") = true
  · rw [List.takeWhile_append_of_pos hall, List.takeWhile_cons_of_neg (by decide),
      List.append_nil] at h
    exact h
  · have hlt : (url.getAuthority.takeWhile fun c => c ∉ str "/?#").length ≠
        url.getAuthority.length := fun heq =>
      hall (List.takeWhile_eq_self_iff.mp ((List.takeWhile_prefix _).eq_of_length heq))
    rw [List.takeWhile_append, if_neg hlt] at h
    exact (List.takeWhile_prefix _).subset h

end Url

end SocialNetwork.Helpers
