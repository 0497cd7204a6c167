import SocialNetwork.Helpers.UrlSyntax

/-!
# Updates of an URL

The member functions of `Url` that take a text, with the object that they write to: they clear,
parse and assign in an order of their own, and an exception leaves the object as it is at that
moment. `parse_run` and `parseAuthority_run` give the object after each way out, in terms of the
parser of `Helpers.Url`.

A text that is refused leaves the object as it was only if what the function had already cleared or
assigned was so before (`rejected_update_iff`).
-/

namespace SocialNetwork.Helpers

open Foundation

/-- A member function of `Url`: it may throw a `std::runtime_error`, and then leaves the object as
it is. -/
abbrev UrlM := EStateM Bytes Url

namespace UrlM

/-! ## The code -/

/-- `Url::clear`. -/
def clear : UrlM Unit := set Url.empty

/-- `Url::set_scheme`. -/
def setScheme (scheme : Bytes) : UrlM Unit :=
  modify fun url => { url with scheme := toLowercase scheme }

/-- `Url::parse_host_and_port`. -/
def parseHostAndPort (part : Bytes) : UrlM Unit := do
  if part ≠ [] then
    let (host, it) ← MonadExcept.ofExcept (Url.parseHost part)
    let port ← MonadExcept.ofExcept (Url.parsePortPart it)
    modify fun url => { url with port := port }
    modify fun url => { url with
      host := if host.head? = some (chr '%') then host else toLowercase host }

/-- `Url::parse_authority`. -/
def parseAuthority (it : Bytes) : UrlM Bytes := do
  let (userInfo, part, it) := Url.authorityLoop [] [] it
  parseHostAndPort part
  modify fun url => { url with userInfo := userInfo }
  return it

/-- `Url::parse_path`. -/
def parsePath (it : Bytes) : UrlM Bytes := do
  let (path, it) := it.span fun c => c ≠ chr '?' && c ≠ chr '#'
  modify fun url => { url with path := decodeInto path url.path false }
  return it

/-- `Url::parse_query`. -/
def parseQuery (it : Bytes) : UrlM Bytes := do
  let (query, it) := it.span (· ≠ chr '#')
  modify fun url => { url with query := query }
  return it

/-- `Url::parse_fragment`. -/
def parseFragment (it : Bytes) : UrlM Unit :=
  modify fun url => { url with fragment := it }

/-- The path of `parse_path_query_fragment`. -/
def pathStep (it : Bytes) : UrlM Bytes :=
  if it ≠ [] ∧ it.head? ≠ some (chr '?') ∧ it.head? ≠ some (chr '#') then parsePath it else pure it

/-- Its query. -/
def queryStep (it : Bytes) : UrlM Bytes :=
  if it.head? = some (chr '?') then parseQuery (it.drop 1) else pure it

/-- Its fragment. -/
def fragmentStep (it : Bytes) : UrlM Unit :=
  if it.head? = some (chr '#') then parseFragment (it.drop 1) else pure ()

/-- `Url::parse_path_query_fragment`. -/
def parsePathQueryFragment (it : Bytes) : UrlM Unit := do
  let it ← pathStep it
  let it ← queryStep it
  fragmentStep it

/-- What `parse` does with the text after the scheme. -/
def parseHierarchy (it : Bytes) : UrlM Unit :=
  if str "//" <+: it then do
    let it ← parseAuthority (it.drop 2)
    parsePathQueryFragment it
  else parsePathQueryFragment it

/-- `Url::parse`. -/
def parse (url : Bytes) : UrlM Unit :=
  match url with
  | [] => pure ()
  | start :: _ =>
      if start = chr '/' || start = chr '.' || start = chr '?' || start = chr '#' then
        parsePathQueryFragment url
      else
        match url.span fun c => c ≠ chr ':' && c ≠ chr '?' && c ≠ chr '#' && c ≠ chr '/' with
        | (_, []) => parsePathQueryFragment url
        | (scheme, c :: it) =>
            if c = chr ':' then
              if it = [] then
                throw (str "URL scheme must be followed by authority or path (" ++ url ++ str ")")
              else do
                setScheme scheme
                parseHierarchy it
            else parsePathQueryFragment url

/-- `Url::operator=(const std::string&)`. -/
def assign (url : Bytes) : UrlM Unit := do
  clear
  parse url

/-- `Url::set_authority`. -/
def setAuthority (authority : Bytes) : UrlM Unit := do
  modify fun url => { url with userInfo := [] }
  modify fun url => { url with host := [] }
  modify fun url => { url with port := 0 }
  let _ ← parseAuthority authority

/-- `Url::set_user_info`. -/
def setUserInfo (userInfo : Bytes) : UrlM Unit := do
  modify fun url => { url with userInfo := [] }
  modify fun url => { url with userInfo := decodeInto userInfo url.userInfo false }

/-- `Url::set_path`. -/
def setPath (path : Bytes) : UrlM Unit := do
  modify fun url => { url with path := [] }
  modify fun url => { url with path := decodeInto path url.path false }

/-- `Url::set_path_query_fragment`. -/
def setPathQueryFragment (pathQueryFragment : Bytes) : UrlM Unit := do
  modify fun url => { url with path := [] }
  modify fun url => { url with query := [] }
  modify fun url => { url with fragment := [] }
  parsePathQueryFragment pathQueryFragment

/-! ## Runs -/

/-- What is left of an object, whether the function returned or threw. -/
def after {α : Type} (r : EStateM.Result Bytes Url α) : Url :=
  match r with
  | .ok _ url => url
  | .error _ url => url

/-- `parse_host_and_port` assigns the port and the host at its end. -/
theorem run_parseHostAndPort (part : Bytes) {url : Url} (hhost : url.host = [])
    (hport : url.port = 0) :
    (parseHostAndPort part).run url =
      match Url.parseHostAndPort part with
      | .ok (host, port) => .ok () { url with host := host, port := port }
      | .error e => .error e url := by
  obtain ⟨scheme, userInfo, host, port, path, query, fragment⟩ := url
  obtain rfl : host = [] := hhost
  obtain rfl : port = 0 := hport
  by_cases hpart : part = []
  · subst hpart
    rfl
  · rw [parseHostAndPort, if_pos hpart, Url.parseHostAndPort]
    cases hh : Url.parseHost part with
    | error e => rfl
    | ok out =>
        obtain ⟨host, it⟩ := out
        rw [run_bind_ok (run_ofExcept_ok _ _)]
        cases hp : Url.parsePortPart it with
        | error e =>
            simp only [hp, bind, Except.bind]
            rfl
        | ok port =>
            simp only [hp, bind, Except.bind]
            rfl

/-- `parse_authority` leaves the three components as they are when it throws. -/
theorem run_parseAuthority (it : Bytes) {url : Url} (hhost : url.host = []) (hport : url.port = 0) :
    (parseAuthority it).run url =
      match Url.parseAuthority url it with
      | .ok (url', rest) => .ok rest url'
      | .error e => .error e url := by
  rcases hloop : Url.authorityLoop [] [] it with ⟨userInfo, part, rest⟩
  have hrun := run_parseHostAndPort part hhost hport
  rw [parseAuthority, Url.parseAuthority, hloop]
  dsimp only
  cases hp : Url.parseHostAndPort part with
  | error e =>
      rw [hp] at hrun
      exact run_bind_error hrun _
  | ok out =>
      rw [hp] at hrun
      exact run_bind_ok hrun

/-- The authority says nothing about path, query and fragment. -/
theorem parseAuthority_frame {it rest : Bytes} {url url' : Url}
    (h : Url.parseAuthority url it = .ok (url', rest)) :
    url'.path = url.path ∧ url'.query = url.query ∧ url'.fragment = url.fragment := by
  simp only [Url.parseAuthority, bind_eq_ok, pure_eq_ok, Prod.mk.injEq] at h
  obtain ⟨out, -, rfl, -⟩ := h
  exact ⟨rfl, rfl, rfl⟩

/-- The path ends before a query or a fragment. -/
theorem run_pathStep (it : Bytes) {url : Url} (hpath : url.path = []) :
    (pathStep it).run url = .ok (it.dropWhile fun c => c ≠ chr '?' && c ≠ chr '#')
      { url with path := decode (it.takeWhile fun c => c ≠ chr '?' && c ≠ chr '#') } := by
  unfold pathStep
  split
  · rw [parsePath, List.span_eq_takeWhile_dropWhile]
    show EStateM.Result.ok _ { url with path := decodeInto _ url.path false } = _
    rw [hpath]
    rfl
  · rename_i hnone
    have htake : it.takeWhile (fun c => c ≠ chr '?' && c ≠ chr '#') = [] ∧
        it.dropWhile (fun c => c ≠ chr '?' && c ≠ chr '#') = it := by
      cases it with
      | nil => exact ⟨rfl, rfl⟩
      | cons c it =>
          have hstop : ¬(c ≠ chr '?' && c ≠ chr '#') = true := by
            intro hkeep
            refine hnone ⟨List.cons_ne_nil _ _, ?_⟩
            simpa using hkeep
          exact ⟨List.takeWhile_cons_of_neg hstop, List.dropWhile_cons_of_neg hstop⟩
    rw [htake.1, htake.2]
    show EStateM.Result.ok it url = .ok it { url with path := [] }
    rw [← hpath]

/-- The query ends before a fragment. -/
theorem run_queryStep (text : Bytes) (url : Url) :
    (queryStep (chr '?' :: text)).run url = .ok (text.dropWhile (· ≠ chr '#'))
      { url with query := text.takeWhile (· ≠ chr '#') } := by
  rw [queryStep, if_pos List.head?_cons, List.drop_succ_cons, List.drop_zero, parseQuery,
    List.span_eq_takeWhile_dropWhile]
  rfl

/-- No query. -/
theorem run_queryStep_of_ne {it : Bytes} (hit : it.head? ≠ some (chr '?')) (url : Url) :
    (queryStep it).run url = .ok it url := by
  rw [queryStep, if_neg hit]
  rfl

/-- The end of the text is the fragment. -/
theorem run_fragmentStep {it : Bytes} (hit : ∀ c, it.head? = some c → c = chr '#') {url : Url}
    (hfragment : url.fragment = []) :
    (fragmentStep it).run url = .ok () { url with fragment := it.drop 1 } := by
  cases it with
  | nil =>
      rw [fragmentStep, if_neg (by simp)]
      show EStateM.Result.ok () url = .ok () { url with fragment := [] }
      rw [← hfragment]
  | cons c it =>
      rw [fragmentStep, if_pos (by rw [hit c rfl]; rfl)]
      rfl

/-- The object after the path, the query and the fragment are read into an object without any. -/
theorem run_parsePathQueryFragment (it : Bytes) {url : Url} (hpath : url.path = [])
    (hquery : url.query = []) (hfragment : url.fragment = []) :
    (parsePathQueryFragment it).run url = .ok () (Url.parsePathQueryFragment url it) := by
  have hrest : ∀ c, (it.dropWhile fun c => c ≠ chr '?' && c ≠ chr '#').head? = some c →
      c ≠ chr '?' → c = chr '#' := by
    intro c hc hne
    by_contra hfragment
    simpa [hne, hfragment] using head_dropWhile hc
  rw [parsePathQueryFragment, run_bind_ok (run_pathStep it hpath), Url.parsePathQueryFragment,
    List.span_eq_takeWhile_dropWhile]
  dsimp only
  generalize (it.dropWhile fun c => c ≠ chr '?' && c ≠ chr '#') = it at hrest ⊢
  by_cases hit : it.head? = some (chr '?')
  · obtain ⟨text, rfl⟩ := List.head?_eq_some_iff.mp hit
    have hstop : ∀ c, (text.dropWhile (· ≠ chr '#')).head? = some c → c = chr '#' := by
      intro c hc
      simpa using head_dropWhile hc
    rw [run_bind_ok (run_queryStep text _)]
    dsimp only
    rw [run_fragmentStep hstop (by exact hfragment), if_pos rfl, List.span_eq_takeWhile_dropWhile]
  · have hstop : ∀ c, it.head? = some c → c = chr '#' := by
      intro c hc
      refine hrest c hc fun heq => hit ?_
      rw [hc, heq]
    rw [run_bind_ok (run_queryStep_of_ne hit _), run_fragmentStep hstop (by exact hfragment)]
    cases it with
    | nil => rw [hquery]
    | cons c it =>
        have hc : c ≠ chr '?' := fun heq => hit (by rw [heq]; rfl)
        simp only [hc, if_false, hquery]

/-- The object after what follows the scheme: the scheme is all that is kept of a text that is
refused. -/
theorem run_parseHierarchy (scheme it : Bytes) :
    (parseHierarchy it).run { Url.empty with scheme := scheme } =
      match Url.parseHierarchy { Url.empty with scheme := scheme } it with
      | .ok url' => .ok () url'
      | .error e => .error e { Url.empty with scheme := scheme } := by
  rw [parseHierarchy, Url.parseHierarchy]
  by_cases hslashes : str "//" <+: it
  · rw [if_pos hslashes, if_pos hslashes]
    have hrun := run_parseAuthority (it.drop 2)
      (show ({ Url.empty with scheme := scheme } : Url).host = [] from rfl) rfl
    cases hauth : Url.parseAuthority { Url.empty with scheme := scheme } (it.drop 2) with
    | error e =>
        rw [hauth] at hrun
        exact run_bind_error hrun _
    | ok out =>
        obtain ⟨url', rest⟩ := out
        rw [hauth] at hrun
        rw [run_bind_ok hrun]
        obtain ⟨hpath, hquery, hfragment⟩ := parseAuthority_frame hauth
        exact run_parsePathQueryFragment rest hpath hquery hfragment
  · rw [if_neg hslashes, if_neg hslashes]
    exact run_parsePathQueryFragment it rfl rfl rfl

/-- The scheme in front of the first colon. -/
def schemePart (url : Bytes) : Bytes :=
  url.takeWhile fun c => c ≠ chr ':' && c ≠ chr '?' && c ≠ chr '#' && c ≠ chr '/'

/-- What is left of an object that is assigned a text which is refused: the scheme, unless nothing
follows it. -/
def refused (url : Bytes) : Url :=
  { Url.empty with scheme := if url.drop ((schemePart url).length + 1) = [] then []
      else toLowercase (schemePart url) }

/-- **`operator=` assigns what the constructor parses**, and leaves a scheme where that throws. -/
theorem run_assign (text : Bytes) (url : Url) :
    (assign text).run url =
      match Url.parse text with
      | .ok url' => .ok () url'
      | .error e => .error e (refused text) := by
  have hclear : clear.run url = .ok () Url.empty := rfl
  rw [assign, run_bind_ok hclear]
  cases text with
  | nil => rfl
  | cons start rest =>
      have hpath : ∀ it, (parsePathQueryFragment it).run Url.empty =
          .ok () (Url.parsePathQueryFragment Url.empty it) := fun it =>
        run_parsePathQueryFragment it rfl rfl rfl
      rw [parse, Url.parse]
      split
      · exact hpath _
      · -- the text is cut at the end of the scheme
        have hcut := List.takeWhile_append_dropWhile
          (p := fun c => c ≠ chr ':' && c ≠ chr '?' && c ≠ chr '#' && c ≠ chr '/')
          (l := start :: rest)
        rw [List.span_eq_takeWhile_dropWhile]
        cases hdrop : (start :: rest).dropWhile
            fun c => c ≠ chr ':' && c ≠ chr '?' && c ≠ chr '#' && c ≠ chr '/' with
        | nil => exact hpath _
        | cons c it =>
            have hafter : (start :: rest).drop ((schemePart (start :: rest)).length + 1) = it := by
              rw [hdrop] at hcut
              apply (congrArg (List.drop _) hcut.symm).trans
              rw [schemePart, List.drop_length_add_append, List.drop_succ_cons, List.drop_zero]
            dsimp only
            by_cases hc : c = chr ':'
            · rw [if_pos hc, if_pos hc]
              by_cases hit : it = []
              · rw [if_pos hit, if_pos hit, refused, hafter, if_pos hit]
                rfl
              · have hrefused : refused (start :: rest) =
                    { Url.empty with scheme := toLowercase (schemePart (start :: rest)) } := by
                  rw [refused, hafter, if_neg hit]
                have hscheme : (setScheme (schemePart (start :: rest))).run Url.empty =
                    .ok () { Url.empty with scheme := toLowercase (schemePart (start :: rest)) } :=
                  rfl
                rw [if_neg hit, if_neg hit, ← schemePart, run_bind_ok hscheme, hrefused]
                exact run_parseHierarchy _ it
            · rw [if_neg hc, if_neg hc]
              exact hpath _

/-- `set_authority` has cleared the user info, the host and the port before it throws. -/
theorem run_setAuthority (text : Bytes) (url : Url) :
    (setAuthority text).run url =
      match Url.parseAuthority { url with userInfo := [], host := [], port := 0 } text with
      | .ok (url', _) => .ok () url'
      | .error e => .error e { url with userInfo := [], host := [], port := 0 } := by
  have hclear : (setAuthority text).run url = (do let _ ← parseAuthority text : UrlM Unit).run
      { url with userInfo := [], host := [], port := 0 } := rfl
  have hrun := run_parseAuthority text
    (show ({ url with userInfo := [], host := [], port := 0 } : Url).host = [] from rfl) rfl
  rw [hclear]
  cases hauth : Url.parseAuthority { url with userInfo := [], host := [], port := 0 } text with
  | error e =>
      rw [hauth] at hrun
      exact run_bind_error hrun _
  | ok out =>
      rw [hauth] at hrun
      exact run_bind_ok hrun

/-- `set_user_info` never throws. -/
theorem run_setUserInfo (text : Bytes) (url : Url) :
    (setUserInfo text).run url = .ok () (url.setUserInfo text) := rfl

/-- `set_path` never throws. -/
theorem run_setPath (text : Bytes) (url : Url) :
    (setPath text).run url = .ok () (url.setPath text) := rfl

/-- `set_path_query_fragment` never throws. -/
theorem run_setPathQueryFragment (text : Bytes) (url : Url) :
    (setPathQueryFragment text).run url = .ok ()
      { url with
        path := decode (UrlText.ofPath none [] text).path
        query := (UrlText.ofPath none [] text).query
        fragment := (UrlText.ofPath none [] text).fragment } := by
  have hclear : (setPathQueryFragment text).run url = (parsePathQueryFragment text).run
      { url with path := [], query := [], fragment := [] } := rfl
  rw [hclear, run_parsePathQueryFragment text rfl rfl rfl,
    Url.parsePathQueryFragment_ofPath _ none []]

/-! ## What a refused text leaves -/

/-- A text that is not percent-encoded is decoded to nothing. -/
theorem decode_of_none {text : Bytes} (h : decodeLoop false false text = none) : decode text = [] := by
  rw [decode, decodeInto, h]
  rfl

/-- `operator=` throws: the object had nothing but the scheme that is left. -/
theorem assign_unchanged_iff {text e : Bytes} {url url' : Url}
    (h : (assign text).run url = .error e url') : url' = url ↔ url = refused text := by
  rw [run_assign] at h
  cases hparse : Url.parse text with
  | ok parsed =>
      rw [hparse] at h
      cases h
  | error e' =>
      rw [hparse] at h
      cases h
      exact eq_comm

/-- `set_authority` throws: the object had no authority. -/
theorem setAuthority_unchanged_iff {text e : Bytes} {url url' : Url}
    (h : (setAuthority text).run url = .error e url') :
    url' = url ↔ url.userInfo = [] ∧ url.host = [] ∧ url.port = 0 := by
  rw [run_setAuthority] at h
  cases hauth : Url.parseAuthority { url with userInfo := [], host := [], port := 0 } text with
  | ok out =>
      rw [hauth] at h
      cases h
  | error e' =>
      rw [hauth] at h
      cases h
      obtain ⟨scheme, userInfo, host, port, path, query, fragment⟩ := url
      simp only [Url.mk.injEq, true_and, and_true, eq_comm]

/-- **When a refused text leaves an URL as it was.** `operator=`, when it throws: if the URL has
nothing but the scheme of the text, or nothing at all where nothing follows that scheme.
`set_authority`, when it throws: if the URL has no user info, host and port. `set_path` and
`set_user_info`, given a text that is not percent-encoded: if the component is empty.
`set_path_query_fragment`, given such a text: if the URL has the text's query and fragment already,
and the decoded path, which is empty if the malformed escape is in the path.

Source: `Url::operator=`, `Url::set_authority`, `Url::set_user_info`, `Url::set_path`,
`Url::set_path_query_fragment`, `Url::decode`. -/
theorem rejected_update_iff (url : Url) (text : Bytes) :
    (∀ e url', (assign text).run url = .error e url' → (url' = url ↔ url = refused text)) ∧
    (∀ e url', (setAuthority text).run url = .error e url' →
      (url' = url ↔ url.userInfo = [] ∧ url.host = [] ∧ url.port = 0)) ∧
    (decodeLoop false false text = none →
      (after ((setPath text).run url) = url ↔ url.path = []) ∧
      (after ((setUserInfo text).run url) = url ↔ url.userInfo = []) ∧
      (after ((setPathQueryFragment text).run url) = url ↔
        url.path = decode (UrlText.ofPath none [] text).path ∧
        url.query = (UrlText.ofPath none [] text).query ∧
        url.fragment = (UrlText.ofPath none [] text).fragment)) := by
  refine ⟨fun e url' => assign_unchanged_iff, fun e url' => setAuthority_unchanged_iff,
    fun hmalformed => ?_⟩
  have hnil := decode_of_none hmalformed
  rw [run_setPath, run_setUserInfo, run_setPathQueryFragment]
  obtain ⟨scheme, userInfo, host, port, path, query, fragment⟩ := url
  refine ⟨?_, ?_, ?_⟩
  · show Url.mk _ _ _ _ (decode text) _ _ = _ ↔ _
    rw [hnil]
    simp only [Url.mk.injEq, true_and, and_true, eq_comm]
  · show Url.mk _ (decode text) _ _ _ _ _ = _ ↔ _
    rw [hnil]
    simp only [Url.mk.injEq, true_and, and_true, eq_comm]
  · show Url.mk _ _ _ _ _ _ _ = _ ↔ _
    simp only [Url.mk.injEq, true_and, eq_comm]

/-- An URL with every component. -/
def bobsUrl : Url :=
  ⟨str "http", str "bob", str "db.example", 8080, str "/p", str "q=1", str "top"⟩

theorem rejected_update_bobsUrl :
    (refused (str "http:") = bobsUrl ↔ bobsUrl = refused (str "http:")) ∧
    ({ bobsUrl with userInfo := [], host := [], port := 0 } = bobsUrl ↔
      bobsUrl.userInfo = [] ∧ bobsUrl.host = [] ∧ bobsUrl.port = 0) ∧
    (after ((setPath (str "/%zz?a")).run bobsUrl) = bobsUrl ↔ bobsUrl.path = []) :=
  ⟨(rejected_update_iff bobsUrl (str "http:")).1 _ _ rfl,
    (rejected_update_iff bobsUrl (str "db.example:0")).2.1 _ _ rfl,
    ((rejected_update_iff bobsUrl (str "/%zz?a")).2.2 (by decide)).1⟩

/-- None of the five functions leaves an URL with every component as it was. -/
theorem rejected_update_destroys :
    (∃ text e url', (assign text).run bobsUrl = .error e url' ∧ url' ≠ bobsUrl) ∧
    (∃ text e url', (setAuthority text).run bobsUrl = .error e url' ∧ url' ≠ bobsUrl) ∧
    (∃ text, decodeLoop false false text = none ∧
      after ((setPath text).run bobsUrl) ≠ bobsUrl ∧
      after ((setUserInfo text).run bobsUrl) ≠ bobsUrl ∧
      after ((setPathQueryFragment text).run bobsUrl) ≠ bobsUrl) :=
  ⟨⟨str "http:", _, _, rfl, by decide⟩, ⟨str "db.example:0", _, _, rfl, by decide⟩,
    ⟨str "/%zz?a", by decide, by decide, by decide, by decide⟩⟩

end UrlM

end SocialNetwork.Helpers
