import SocialNetwork.Foundation.Runs
import SocialNetwork.Helpers.QueryParameters
import SocialNetwork.Helpers.UrlNormalize
import SocialNetwork.Helpers.UrlReparse
import SocialNetwork.Helpers.UrlUpdates

/-!
# The life of an URL object

An object of `Url` is made by a constructor and then changed by member functions, in any order, some
of which throw and leave the object half changed. `WellFormed` is what the printer needs of the object.
It holds after every constructor and survives every call, also one that throws, except that four
functions and the constructors store a text as it is given, or decoded: then it survives exactly if
that text is `Admissible` (`wellFormed_update_iff`). A scheme must not begin with a dot or contain one
of `:?#/`; a host must be in lower case, unless it begins with `%`, and contain none of `@/?#`; a user
info, once it is decoded, must not contain these either; a query that is set raw must not contain `#`.

So whatever was called, printing, `get_authority` and `get_path_query_fragment` can be undone
(`urlObject_laws`).
-/

namespace SocialNetwork.Helpers

open Foundation

/-- `URL_RESERVED_QUERY`. -/
def urlReservedQuery : Bytes := str "?#/:;+@"

namespace Url

variable (url : Url)

/-! ## The code -/

/-- `Url::set_host`. -/
def setHost (host : Bytes) : Url := { url with host := host }

/-- `Url::set_raw_query`. -/
def setRawQuery (query : Bytes) : Url := { url with query := query }

/-- `Url::set_query`. -/
def setQuery (query : Bytes) : Url := { url with query := encode query urlReservedQuery }

/-- `Url::set_raw_fragment`. -/
def setRawFragment (fragment : Bytes) : Url := { url with fragment := fragment }

/-- `Url::get_path_query_fragment`. -/
def getPathQueryFragment : Bytes :=
  let pathQueryFragment := encode url.path urlReservedPath
  let pathQueryFragment :=
    if url.query ≠ [] then pathQueryFragment ++ (str "?" ++ url.query) else pathQueryFragment
  if url.fragment ≠ [] then pathQueryFragment ++ (str "#" ++ url.fragment) else pathQueryFragment

end Url

/-- The constructors of `Url`, with their arguments. The one with four texts is that with five, without
a fragment; of a `FilePath` only `absolute_path()` is used. -/
inductive Constructor
  | default
  | ofText (url : Bytes)
  | ofPath (scheme pathQueryFragment : Bytes)
  | ofAuthority (scheme authority pathQueryFragment : Bytes)
  | ofParts (scheme authority path query fragment : Bytes)
  | ofFilePath (absolutePath : Option Bytes)

/-- What a constructor does with an empty object. -/
def Constructor.code : Constructor → UrlM Unit
  | default => pure ()
  | ofText url => UrlM.parse url
  | ofPath scheme pathQueryFragment => do
      UrlM.setScheme scheme
      UrlM.parsePathQueryFragment pathQueryFragment
  | ofAuthority scheme authority pathQueryFragment => do
      UrlM.setScheme scheme
      let _ ← UrlM.parseAuthority authority
      UrlM.parsePathQueryFragment pathQueryFragment
  | ofParts scheme authority path query fragment => do
      modify fun url => { url with path := path, query := query, fragment := fragment }
      UrlM.setScheme scheme
      let _ ← UrlM.parseAuthority authority
  | ofFilePath absolutePath =>
      modify fun url => { url with scheme := str "file", path := absolutePath.getD [] }

/-- The member functions that change an object, with their arguments. -/
inductive Update
  | clear
  | assign (url : Bytes)
  | normalize
  | setScheme (scheme : Bytes)
  | setAuthority (authority : Bytes)
  | setUserInfo (userInfo : Bytes)
  | setHost (host : Bytes)
  | setPort (port : UInt16)
  | setPath (path : Bytes)
  | setRawQuery (query : Bytes)
  | setQuery (query : Bytes)
  | addQueryParameter (param val : Bytes)
  | setQueryParameters (params : List (Bytes × Bytes))
  | setRawFragment (fragment : Bytes)
  | setFragment (fragment : Bytes)
  | setPathQueryFragment (pathQueryFragment : Bytes)

/-- A call of a member function. -/
def Update.code : Update → UrlM Unit
  | clear => UrlM.clear
  | assign url => UrlM.assign url
  | normalize => modify Url.normalize
  | setScheme scheme => UrlM.setScheme scheme
  | setAuthority authority => UrlM.setAuthority authority
  | setUserInfo userInfo => UrlM.setUserInfo userInfo
  | setHost host => modify fun url => url.setHost host
  | setPort port => modify fun url => url.setPort port
  | setPath path => UrlM.setPath path
  | setRawQuery query => modify fun url => url.setRawQuery query
  | setQuery query => modify fun url => url.setQuery query
  | addQueryParameter param val => modify fun url => url.addQueryParameter param val
  | setQueryParameters params => modify fun url => url.setQueryParameters params
  | setRawFragment fragment => modify fun url => url.setRawFragment fragment
  | setFragment fragment => modify fun url => url.setFragment fragment
  | setPathQueryFragment pathQueryFragment => UrlM.setPathQueryFragment pathQueryFragment

namespace Url

/-! ## The members of a well-formed object -/

/-- A scheme that is read as one. -/
def SchemeText (scheme : Bytes) : Prop :=
  scheme.head? ≠ some (chr '.') ∧ ∀ c ∈ scheme, c ∉ str ":?#/"

/-- A scheme that is read back. -/
def SchemeMember (scheme : Bytes) : Prop := toLowercase scheme = scheme ∧ SchemeText scheme

/-- A user info that is read back. -/
def UserInfoMember (userInfo : Bytes) : Prop := ∀ c ∈ userInfo, c ∉ str "@/?#"

/-- A host that is read back. -/
def HostMember (host : Bytes) : Prop :=
  hostCase host = host ∧ (∀ c ∈ host, c ∉ str "@/?#") ∧
    (chr ':' ∈ host ∨ host.head? = some (chr '[') → chr ']' ∉ host)

/-- A query that is read back. -/
def QueryMember (query : Bytes) : Prop := chr '#' ∉ query

/-- What the printer needs of the object, member by member. -/
theorem wellFormed_iff {url : Url} : WellFormed url ↔ SchemeMember url.scheme ∧
    UserInfoMember url.userInfo ∧ HostMember url.host ∧ QueryMember url.query := by
  constructor
  · intro h
    exact ⟨⟨h.scheme_lower, h.scheme_head, h.scheme_chars⟩, h.userInfo_chars,
      ⟨h.host_lower, h.host_chars, h.host_bracket⟩, h.query_chars⟩
  · intro ⟨⟨hlower, hhead, hchars⟩, huser, ⟨hhostLower, hhostChars, hbracket⟩, hquery⟩
    exact ⟨hlower, hhead, hchars, huser, hhostLower, hhostChars, hbracket, hquery⟩

/-- The case of a scheme does not matter. -/
theorem schemeMember_toLowercase {scheme : Bytes} :
    SchemeMember (toLowercase scheme) ↔ SchemeText scheme := by
  have hhead : (toLowercase scheme).head? = some (chr '.') ↔ scheme.head? = some (chr '.') := by
    cases scheme with
    | nil => simp [toLowercase]
    | cons c scheme =>
        simp only [toLowercase, List.map_cons, List.head?_cons, Option.some.injEq]
        constructor
        · exact eq_of_toLowercaseCh (by decide)
        · rintro rfl
          decide
  have hall : ∀ x ∈ str ":?#/", x ∈ str "[]:@/?#%" := forall_mem_of_all (by decide)
  have hmem : ∀ x ∈ str ":?#/", (x ∈ toLowercase scheme ↔ x ∈ scheme) := fun x hx =>
    mem_toLowercase (hall x hx)
  rw [SchemeMember, SchemeText, SchemeText, toLowercase_idem, Ne, hhead]
  simp only [true_and]
  refine and_congr_right fun _ => ⟨fun h c hc hx => ?_, fun h c hc hx => ?_⟩
  · exact h c ((hmem c hx).mpr hc) hx
  · exact h c ((hmem c hx).mp hc) hx

/-- No scheme is read back. -/
theorem schemeMember_nil : SchemeMember [] := ⟨rfl, by simp, by simp⟩

/-- No user info is read back. -/
theorem userInfoMember_nil : UserInfoMember [] := by simp [UserInfoMember]

/-- No host is read back. -/
theorem hostMember_nil : HostMember [] := ⟨by decide, by simp, by simp⟩

/-- No query is read back. -/
theorem queryMember_nil : QueryMember [] := List.not_mem_nil

/-- The empty object is well formed. -/
theorem wellFormed_empty : WellFormed empty :=
  wellFormed_iff.mpr ⟨schemeMember_nil, userInfoMember_nil, hostMember_nil, queryMember_nil⟩

/-- An encoded query has no `#`. -/
theorem queryMember_encode (s : Bytes) {reserved : Bytes} (h : chr '#' ∈ reserved) :
    QueryMember (encode s reserved) := not_mem_encode h (by decide) (by decide)

/-- The authority that is read is well formed. -/
theorem members_of_parseAuthority {res res' : Url} {text rest : Bytes}
    (h : parseAuthority res text = .ok (res', rest)) :
    UserInfoMember res'.userInfo ∧ HostMember res'.host ∧ res'.scheme = res.scheme ∧
      res'.query = res.query := by
  simp only [parseAuthority, bind_eq_ok, pure_eq_ok, Prod.mk.injEq] at h
  obtain ⟨⟨host, port⟩, hpart, rfl, rfl⟩ := h
  -- the same authority in the text of an URL
  have hauthority : parseAuthority { empty with scheme := str "postgresql" } text =
      .ok ({ empty with
        scheme := str "postgresql", userInfo := (authorityLoop [] [] text).1, host := host
        port := port }, (authorityLoop [] [] text).2.2) := by
    simp only [parseAuthority, hpart, bind, Except.bind, pure, Except.pure]
  have hparse := parse_postgresql text
  rw [hauthority] at hparse
  obtain ⟨-, huser, hhost, -⟩ := wellFormed_iff.mp (wellFormed_of_parse hparse)
  rw [parsePathQueryFragment_ofPath _ none []] at huser hhost
  exact ⟨huser, hhost, rfl, rfl⟩

end Url

/-! ## What a call keeps -/

open Url UrlM

/-- The texts that a constructor stores as they are given are read back: its scheme begins with no dot
and has none of `:?#/`, and a query of its own has no `#`. -/
def Constructor.Admissible : Constructor → Prop
  | ofPath scheme _ => SchemeText scheme
  | ofAuthority scheme _ _ => SchemeText scheme
  | ofParts scheme _ _ query _ => SchemeText scheme ∧ QueryMember query
  | _ => True

/-- The text that a call stores as it is given, or decoded, is read back: `set_scheme` as for a
constructor; `set_user_info` without `@/?#` once it is decoded; `set_host` in lower case unless it
begins with `%`, without `@/?#`, and without `]` if it has a colon or begins with a bracket;
`set_raw_query` without `#`. -/
def Update.Admissible : Update → Prop
  | setScheme scheme => SchemeText scheme
  | setUserInfo userInfo => UserInfoMember (decode userInfo)
  | setHost host => HostMember host
  | setRawQuery query => QueryMember query
  | _ => True

/-- What is left of an object that is assigned a text which is refused. -/
theorem wellFormed_refused {text e : Bytes} (h : Url.parse text = .error e) :
    WellFormed (refused text) := by
  have hscheme : hasScheme text = true := by
    by_contra hnone
    rw [parse_relative (Bool.eq_false_of_not_eq_true hnone)] at h
    cases h
  rw [hasScheme, Bool.and_eq_true, decide_eq_true_eq] at hscheme
  have hpart : SchemeText (schemePart text) := by
    rw [schemePart, schemeDelimiter]
    refine ⟨fun hdot => hscheme.1 ?_, fun c hc => ?_⟩
    · rw [List.head?_takeWhile, Option.filter_eq_some_iff] at hdot
      exact hdot.1
    · simpa using List.mem_takeWhile_imp hc
  refine wellFormed_iff.mpr ⟨?_, userInfoMember_nil, hostMember_nil, queryMember_nil⟩
  unfold refused
  split
  · exact schemeMember_nil
  · exact schemeMember_toLowercase.mpr hpart

/-- `operator=` leaves a well-formed object, whatever it is given. -/
theorem wellFormed_assign (text : Bytes) (url : Url) :
    WellFormed (after ((UrlM.assign text).run url)) := by
  rw [run_assign]
  cases hparse : Url.parse text with
  | ok url' => exact wellFormed_of_parse hparse
  | error e => exact wellFormed_refused hparse

/-- So does `set_authority`, of a well-formed one. -/
theorem wellFormed_setAuthority {url : Url} (hwf : WellFormed url) (text : Bytes) :
    WellFormed (after ((UrlM.setAuthority text).run url)) := by
  obtain ⟨hscheme, -, -, hquery⟩ := wellFormed_iff.mp hwf
  rw [run_setAuthority]
  cases hauth : Url.parseAuthority { url with userInfo := [], host := [], port := 0 } text with
  | error e =>
      exact wellFormed_iff.mpr ⟨hscheme, userInfoMember_nil, hostMember_nil, hquery⟩
  | ok out =>
      obtain ⟨url', rest⟩ := out
      obtain ⟨huser, hhost, hsame, hsame'⟩ := members_of_parseAuthority hauth
      exact wellFormed_iff.mpr ⟨hsame ▸ hscheme, huser, hhost, hsame' ▸ hquery⟩

/-- Adding a parameter to a query. -/
theorem queryMember_addQueryParameter {url : Url} (hquery : QueryMember url.query)
    (param val : Bytes) : QueryMember (url.addQueryParameter param val).query := by
  have hparam := queryMember_encode param (show chr '#' ∈ urlReservedQueryParam by decide)
  have hval := queryMember_encode val (show chr '#' ∈ urlReservedQueryParam by decide)
  unfold QueryMember at hquery hparam hval ⊢
  simp only [addQueryParameter, List.mem_append, not_or]
  refine ⟨⟨⟨⟨hquery, ?_⟩, hparam⟩, by decide⟩, hval⟩
  split <;> decide

/-- The parameters of a query, added one by one. -/
theorem addQueryParameters_frame (params : List (Bytes × Bytes)) {url : Url}
    (hquery : QueryMember url.query) :
    let url' := params.foldl (fun url p => url.addQueryParameter p.1 p.2) url
    QueryMember url'.query ∧ url' = { url with query := url'.query } := by
  induction params generalizing url with
  | nil => exact ⟨hquery, rfl⟩
  | cons p params ih =>
      have hadded := queryMember_addQueryParameter hquery p.1 p.2
      exact ⟨(ih hadded).1, (ih hadded).2⟩

/-- **What a call keeps.** A call of a member function, whether it returns or throws, leaves a
well-formed object well-formed exactly if its argument is admissible. -/
theorem wellFormed_update_iff {url : Url} (hwf : WellFormed url) (u : Update) :
    WellFormed (after (u.code.run url)) ↔ u.Admissible := by
  obtain ⟨hscheme, huser, hhost, hquery⟩ := wellFormed_iff.mp hwf
  cases u with
  | clear => exact iff_of_true wellFormed_empty trivial
  | assign text => exact iff_of_true (wellFormed_assign text url) trivial
  | normalize =>
      refine iff_of_true ?_ trivial
      change WellFormed url.normalize
      rw [normalize_eq]
      exact wellFormed_iff.mpr ⟨hscheme, huser, hhost, hquery⟩
  | setScheme scheme =>
      change WellFormed { url with scheme := toLowercase scheme } ↔ SchemeText scheme
      rw [wellFormed_iff, schemeMember_toLowercase]
      exact and_iff_left ⟨huser, hhost, hquery⟩
  | setAuthority authority => exact iff_of_true (wellFormed_setAuthority hwf authority) trivial
  | setUserInfo userInfo =>
      change WellFormed (url.setUserInfo userInfo) ↔ UserInfoMember (decode userInfo)
      rw [wellFormed_iff]
      exact ⟨fun h => h.2.1, fun h => ⟨hscheme, h, hhost, hquery⟩⟩
  | setHost host =>
      change WellFormed (url.setHost host) ↔ HostMember host
      rw [wellFormed_iff]
      exact ⟨fun h => h.2.2.1, fun h => ⟨hscheme, huser, h, hquery⟩⟩
  | setRawQuery query =>
      change WellFormed (url.setRawQuery query) ↔ QueryMember query
      rw [wellFormed_iff]
      exact ⟨fun h => h.2.2.2, fun h => ⟨hscheme, huser, hhost, h⟩⟩
  | setQuery query =>
      have hencoded := queryMember_encode query (show chr '#' ∈ urlReservedQuery by decide)
      exact iff_of_true (wellFormed_iff.mpr ⟨hscheme, huser, hhost, hencoded⟩) trivial
  | addQueryParameter param val =>
      have hadded := queryMember_addQueryParameter hquery param val
      exact iff_of_true (wellFormed_iff.mpr ⟨hscheme, huser, hhost, hadded⟩) trivial
  | setQueryParameters params =>
      refine iff_of_true ?_ trivial
      change WellFormed (url.setQueryParameters params)
      obtain ⟨hadded, hsame⟩ := addQueryParameters_frame params
        (show QueryMember ({ url with query := [] } : Url).query from queryMember_nil)
      rw [setQueryParameters, hsame]
      exact wellFormed_iff.mpr ⟨hscheme, huser, hhost, hadded⟩
  | setPathQueryFragment text =>
      refine iff_of_true ?_ trivial
      change WellFormed (after ((UrlM.setPathQueryFragment text).run url))
      rw [run_setPathQueryFragment]
      exact wellFormed_iff.mpr ⟨hscheme, huser, hhost, UrlText.query_ofPath none [] text⟩
  | setPort | setPath | setRawFragment | setFragment =>
      exact iff_of_true (wellFormed_iff.mpr ⟨hscheme, huser, hhost, hquery⟩) trivial

/-- **What a constructor makes.** An object that comes to exist is well-formed exactly if the arguments
are admissible. -/
theorem wellFormed_constructor_iff {c : Constructor} {url : Url}
    (h : c.code.run Url.empty = .ok () url) : WellFormed url ↔ c.Admissible := by
  -- the scheme is assigned before anything is parsed
  have hset : ∀ scheme (base : Url), (UrlM.setScheme scheme).run base =
      .ok () { base with scheme := toLowercase scheme } := fun _ _ => rfl
  cases c with
  | default =>
      obtain rfl : Url.empty = url := by cases h; rfl
      exact iff_of_true wellFormed_empty trivial
  | ofText text =>
      have hassign : (UrlM.assign text).run Url.empty = .ok () url := h
      rw [run_assign] at hassign
      cases hparse : Url.parse text with
      | error e =>
          rw [hparse] at hassign
          cases hassign
      | ok parsed =>
          rw [hparse] at hassign
          obtain rfl : parsed = url := by cases hassign; rfl
          exact iff_of_true (wellFormed_of_parse hparse) trivial
  | ofPath scheme text =>
      change (do UrlM.setScheme scheme; UrlM.parsePathQueryFragment text : UrlM Unit).run _ = _ at h
      rw [run_bind_ok (hset scheme _), run_parsePathQueryFragment text rfl rfl rfl,
        parsePathQueryFragment_ofPath _ none []] at h
      obtain rfl := (EStateM.Result.ok.inj h).2
      rw [wellFormed_iff, schemeMember_toLowercase]
      exact and_iff_left ⟨userInfoMember_nil, hostMember_nil, UrlText.query_ofPath none [] text⟩
  | ofAuthority scheme authority text =>
      change (do
        UrlM.setScheme scheme
        let _ ← UrlM.parseAuthority authority
        UrlM.parsePathQueryFragment text : UrlM Unit).run _ = _ at h
      rw [run_bind_ok (hset scheme _), run_bind_eq_ok] at h
      obtain ⟨rest, url', hauth, h⟩ := h
      rw [run_parseAuthority authority rfl rfl] at hauth
      split at hauth
      · rename_i url'' rest' hparse
        obtain ⟨rfl, rfl⟩ := EStateM.Result.ok.inj hauth
        obtain ⟨hpath, hquery, hfragment⟩ := parseAuthority_frame hparse
        obtain ⟨huser, hhost, hscheme, -⟩ := members_of_parseAuthority hparse
        rw [run_parsePathQueryFragment text hpath hquery hfragment,
          parsePathQueryFragment_ofPath _ none []] at h
        obtain rfl := (EStateM.Result.ok.inj h).2
        rw [wellFormed_iff]
        change SchemeMember url''.scheme ∧ _ ↔ SchemeText scheme
        rw [hscheme, schemeMember_toLowercase]
        exact and_iff_left ⟨huser, hhost, UrlText.query_ofPath none [] text⟩
      · cases hauth
  | ofParts scheme authority path query fragment =>
      change (do
        UrlM.setScheme scheme
        let _ ← UrlM.parseAuthority authority : UrlM Unit).run
          { Url.empty with path := path, query := query, fragment := fragment } = _ at h
      rw [run_bind_ok (hset scheme _), run_bind_eq_ok] at h
      obtain ⟨rest, url', hauth, h⟩ := h
      obtain rfl : url' = url := by cases h; rfl
      rw [run_parseAuthority authority rfl rfl] at hauth
      split at hauth
      · rename_i url'' rest' hparse
        obtain ⟨rfl, rfl⟩ := EStateM.Result.ok.inj hauth
        obtain ⟨huser, hhost, hscheme, hquery⟩ := members_of_parseAuthority hparse
        rw [wellFormed_iff, hscheme, hquery]
        change SchemeMember (toLowercase scheme) ∧ _ ∧ _ ∧ QueryMember query ↔
          SchemeText scheme ∧ QueryMember query
        rw [schemeMember_toLowercase]
        exact ⟨fun h => ⟨h.1, h.2.2.2⟩, fun h => ⟨h.1, huser, hhost, h.2⟩⟩
      · cases hauth
  | ofFilePath absolutePath =>
      obtain rfl : { Url.empty with scheme := str "file", path := absolutePath.getD [] } = url := by
        cases h
        rfl
      have hfile : SchemeMember (str "file") :=
        ⟨by decide, by decide, forall_mem_of_all (by decide)⟩
      exact iff_of_true
        (wellFormed_iff.mpr ⟨hfile, userInfoMember_nil, hostMember_nil, queryMember_nil⟩) trivial

/-! ## Runs -/

/-- An object from its constructor on, with admissible arguments. A call that throws is caught. -/
def UrlObject : System Url Update where
  init url := ∃ c : Constructor, c.Admissible ∧ c.code.run Url.empty = .ok () url
  step url u url' := u.Admissible ∧ after (u.code.run url) = url'

/-- Well-formedness is an invariant. -/
theorem urlObject_wellFormed : UrlObject.Invariant WellFormed where
  init := by
    rintro url ⟨c, hadmissible, hmade⟩
    exact (wellFormed_constructor_iff hmade).mpr hadmissible
  step := by
    rintro url u url' - hwf ⟨hadmissible, rfl⟩
    exact (wellFormed_update_iff hwf u).mpr hadmissible

namespace Url

variable {url : Url}

/-- The object can be told from its text: `UrlText.Reprints`, of an object. -/
def Printable (url : Url) : Prop :=
  if url.scheme = [] then
    (url.userInfo = [] ∧ url.host = [] ∧ url.port = 0) ∧ colonFirst url.path = false
  else if url.getAuthority = [] then
    if url.scheme = str "file" then url.path = [] ∨ url.path.head? = some (chr '/')
    else ¬(url.path = [] ∧ url.query = [] ∧ url.fragment = []) ∧ ¬str "//" <+: url.path
  else url.host.head? = some (chr '[') → chr ':' ∈ url.host

/-- A well-formed object is read back exactly if it can be told from its text. -/
theorem reparses_iff_printable (hwf : WellFormed url) : Reparses url ↔ Printable url := by
  unfold Printable
  split
  · exact reparses_relative hwf ‹_›
  · split
    · split
      · exact reparses_file hwf ‹_› ‹_›
      · exact reparses_hierarchy hwf ‹_› ‹_› ‹_›
    · exact reparses_authority hwf ‹_› ‹_›

/-- What `get_path_query_fragment` prints: the encoded path, and what is printed after a path. -/
theorem getPathQueryFragment_eq (url : Url) : url.getPathQueryFragment =
    encode url.path urlReservedPath ++ suffixText url.query url.fragment := by
  unfold getPathQueryFragment suffixText
  by_cases hquery : url.query = [] <;> by_cases hfragment : url.fragment = [] <;>
    simp [hquery, hfragment]

/-- `set_path_query_fragment` undoes `get_path_query_fragment`. -/
theorem setPathQueryFragment_get (hwf : WellFormed url) :
    (UrlM.setPathQueryFragment url.getPathQueryFragment).run url = .ok () url := by
  have hclear : (UrlM.setPathQueryFragment url.getPathQueryFragment).run url =
      (UrlM.parsePathQueryFragment url.getPathQueryFragment).run
        { url with path := [], query := [], fragment := [] } := rfl
  rw [hclear, run_parsePathQueryFragment _ rfl rfl rfl, getPathQueryFragment_eq,
    parsePathQueryFragment_encode hwf.query_chars]

/-- `set_authority` undoes `get_authority`, and makes the port explicit. -/
theorem setAuthority_get (hwf : WellFormed url) :
    (UrlM.setAuthority url.getAuthority).run url =
      if url.host.head? = some (chr '[') ∧ chr ':' ∉ url.host then
        .error (str "unterminated IPv6 address") { url with userInfo := [], host := [], port := 0 }
      else .ok () { url with port := url.getPort } := by
  have hend : ∀ c, ([] : Bytes).head? = some c → c ∈ str "/?#" := by simp
  have hparse := parseAuthority_getAuthority hwf hend { url with userInfo := [], host := [], port := 0 }
  rw [List.append_nil] at hparse
  rw [run_setAuthority, hparse]
  by_cases hopen : url.host.head? = some (chr '[') ∧ chr ':' ∉ url.host
  · rw [if_pos hopen, if_pos hopen]
  · rw [if_neg hopen, if_neg hopen]

end Url

/-- **What can be undone in the life of an URL object.** After any constructor and any calls of member
functions, with `Admissible` arguments, some of which may have thrown: the printed text is accepted and
gives back the object, with the path that was printed, exactly if the object is printable;
`set_path_query_fragment` undoes `get_path_query_fragment`; and `set_authority` undoes `get_authority`
up to the port, which becomes explicit, unless the host starts with a bracket and has no colon, in
which case it throws.
Source: `Url`, `Url::to_string`, `Url::get_authority`, `Url::get_path_query_fragment` -/
theorem urlObject_laws {url : Url} (h : UrlObject.Reachable url) :
    (Reparses url ↔ Printable url) ∧
    (UrlM.setPathQueryFragment url.getPathQueryFragment).run url = .ok () url ∧
    (UrlM.setAuthority url.getAuthority).run url =
      if url.host.head? = some (chr '[') ∧ chr ':' ∉ url.host then
        .error (str "unterminated IPv6 address") { url with userInfo := [], host := [], port := 0 }
      else .ok () { url with port := url.getPort } := by
  have hwf := urlObject_wellFormed.reachable h
  exact ⟨reparses_iff_printable hwf, setPathQueryFragment_get hwf, setAuthority_get hwf⟩

/-- An object that was made of five texts, after an authority that was refused, a new host and a
normalisation. -/
def rebuiltUrl : Url := ⟨str "http", [], str "::1", 0, str "/c", str "q=1", str "top"⟩

/-- The calls that make `rebuiltUrl`, of which one throws. -/
theorem rebuiltUrl_reachable : UrlObject.Reachable rebuiltUrl := by
  have hmade : UrlObject.Reachable
      ⟨str "http", str "Bob", str "example", 8080, str "/a b/../c", str "q=1", str "top"⟩ :=
    .init ⟨.ofParts (str "HTTP") (str "Bob@Example:8080") (str "/a b/../c") (str "q=1") (str "top"),
      ⟨⟨by decide, forall_mem_of_all (by decide)⟩, show chr '#' ∉ str "q=1" by decide⟩, rfl⟩
  have hrefused : UrlObject.Reachable
      ⟨str "http", [], [], 0, str "/a b/../c", str "q=1", str "top"⟩ :=
    .step (a := .setAuthority (str "other:0")) hmade ⟨trivial, by decide⟩
  have hhost : UrlObject.Reachable
      ⟨str "http", [], str "::1", 0, str "/a b/../c", str "q=1", str "top"⟩ :=
    .step (a := .setHost (str "::1")) hrefused
      ⟨⟨by decide, forall_mem_of_all (by decide), by decide⟩, by decide⟩
  exact .step (a := .normalize) hhost ⟨trivial, by decide⟩

/-- What can be undone for `rebuiltUrl`. -/
theorem urlObject_laws_rebuiltUrl : (Reparses rebuiltUrl ↔ Printable rebuiltUrl) ∧
    (UrlM.setPathQueryFragment rebuiltUrl.getPathQueryFragment).run rebuiltUrl = .ok () rebuiltUrl ∧
    (UrlM.setAuthority rebuiltUrl.getAuthority).run rebuiltUrl =
      if rebuiltUrl.host.head? = some (chr '[') ∧ chr ':' ∉ rebuiltUrl.host then
        .error (str "unterminated IPv6 address")
          { rebuiltUrl with userInfo := [], host := [], port := 0 }
      else .ok () { rebuiltUrl with port := rebuiltUrl.getPort } :=
  urlObject_laws rebuiltUrl_reachable

end SocialNetwork.Helpers
