import SocialNetwork.Config.Listening
import SocialNetwork.Db.UsableUrls
import SocialNetwork.Net.FamilyAddresses

/-!
# Validating again

`validate` rewrites the nodes that it checks. What it stores is checked again when the configuration is
validated once more, so the rewritten nodes should be left alone. They are, with one exception. A text
without `://` is given the scheme `postgresql` before it is parsed (`withScheme`), so that only a text
such as `://host` has an empty scheme. It is printed without its authority, and what is left is no URL
of a database. The second validation makes one of it, and leaves it alone from then on
(`validation_settles`).
-/

namespace SocialNetwork.Db

open Foundation Helpers Net Config

variable {R : Resolver}

/-- If the host of the URL is resolved, its scheme is not empty, once `postgresql://` is put before a
text without `://`. -/
def Schemed (R : Resolver) (url : Bytes) : Prop :=
  ∀ parsed sockAddr, resolve R (withScheme url) = .ok (parsed, sockAddr) → parsed.scheme ≠ []

/-! ## A host with another port -/

/-- The host joined to a port is cut at a place that does not depend on the port. -/
theorem exists_cut (host : Bytes) : ∃ rest : UInt16 → Bytes, ∀ port, rest port ≠ [] ∧
    endpointText host port = beforeColon host ++ str ":" ++ rest port := by
  by_cases hcolon : chr ':' ∈ host
  · refine ⟨fun port => afterColon host ++ str ":" ++ decimal port.toNat, fun port => ⟨?_, ?_⟩⟩
    · simp [str]
    · rw [endpointText]
      conv_lhs => rw [eq_beforeColon_append hcolon]
      simp
  · have hall : beforeColon host = host :=
      List.takeWhile_eq_self_iff.mpr (decide_ne_of_not_mem hcolon)
    exact ⟨fun port => decimal port.toNat, fun port => ⟨decimal_ne_nil _, by rw [hall, endpointText]⟩⟩

/-- Whether a name is resolved does not depend on the port. -/
theorem exists_initByName {addr : Bytes} {port : UInt16} {sockAddr : SocketAddress}
    (h : SocketAddress.initByName R addr port = .ok sockAddr) (port' : UInt16) :
    ∃ sockAddr', SocketAddress.initByName R addr port' = .ok sockAddr' := by
  obtain ⟨ip, hip, -⟩ := SocketAddress.initByName_ok_iff_head.mp h
  exact ⟨_, SocketAddress.initByName_ok_iff_head.mpr ⟨ip, hip, rfl⟩⟩

/-- A host that is resolved with one port can only fail with another one because of a service. -/
theorem no_runtime_of_ok {host : Bytes} {port : UInt16} {sockAddr : SocketAddress}
    (hne : host ≠ []) (hopen : host.head? ≠ some (chr '[')) (hslash : chr '/' ∉ host)
    (h : SocketAddress.ofString R (endpointText host port) = .ok sockAddr) (port' : UInt16)
    (what : Bytes) : SocketAddress.ofString R (endpointText host port') ≠ .error (.runtime what) := by
  obtain ⟨rest, hcut⟩ := exists_cut host
  have hpath : ∀ p, (endpointText host p).head? ≠ some (chr '/') := by
    intro p hhead
    rw [endpointText, List.append_assoc, List.head?_append_of_ne_nil _ hne] at hhead
    exact hslash (List.mem_of_head? hhead)
  -- nothing before the first colon is an error for every port
  have hbefore : beforeColon host ≠ [] := by
    intro hnil
    have htext : endpointText host port = str ":" ++ rest port := by
      rw [(hcut port).2, hnil, List.nil_append]
    rw [SocketAddress.ofString, if_neg (hpath port), htext] at h
    cases h
  have hbracket : (beforeColon host).head? ≠ some (chr '[') := by
    intro hhead
    have hfront : beforeColon host <+: host := List.takeWhile_prefix _
    obtain ⟨tail, htail⟩ := hfront
    rw [← htail, List.head?_append_of_ne_nil _ hbefore] at hopen
    exact hopen hhead
  have hsplit : ∀ p, SocketAddress.splitToHostAndPort (endpointText host p) =
      .ok (beforeColon host, rest p) := by
    intro p
    rw [(hcut p).2, SocketAddress.splitToHostAndPort_plain hbefore (hcut p).1 hbracket
      colon_not_mem_beforeColon]
  have hread : ∀ p, SocketAddress.ofString R (endpointText host p) =
      (Dns.resolveServiceToPort R (rest p)).bind (SocketAddress.initByName R (beforeColon host)) := by
    intro p
    cases hservice : Dns.resolveServiceToPort R (rest p) <;>
      simp only [SocketAddress.ofString, if_neg (hpath p), hsplit p, hservice, Except.bind]
  rw [hread] at h ⊢
  cases hservice : Dns.resolveServiceToPort R (rest port) with
  | error e =>
      rw [hservice] at h
      cases h
  | ok q =>
      rw [hservice] at h
      cases hservice' : Dns.resolveServiceToPort R (rest port') with
      | error e =>
          obtain ⟨text, rfl⟩ := exists_dns_of_resolveServiceToPort hservice'
          intro heq
          cases heq
      | ok q' =>
          obtain ⟨sockAddr', hinit⟩ := exists_initByName h q'
          rw [Except.bind, hinit]
          intro heq
          cases heq

/-! ## The credentials of a stored node -/

/-- A validated node has a login. -/
theorem login_validateNode (node : Pgsql) : (validateNode R node).1.login ≠ [] := by
  have hfill : ∀ login : Bytes, (if login = [] then pgsqlLogin else login) ≠ [] := by
    intro login
    split
    · decide
    · assumption
  exact hfill _

/-- A node with a login keeps its credentials if there are none in its URL. -/
theorem credentials_validateNode {node : Pgsql} (hlogin : node.login ≠ [])
    (huser : ∀ parsed sockAddr, resolve R (withScheme node.url) = .ok (parsed, sockAddr) →
      parsed.userInfo = []) :
    (validateNode R node).1.login = node.login ∧ (validateNode R node).1.password = node.password := by
  have hpassword : ∀ password : Bytes,
      (if password = [] then pgsqlPassword else password) = password := by
    intro password
    split
    · rename_i hnil
      exact hnil.symm
    · rfl
  cases hcheck : checkNode R { node with url := withScheme node.url } with
  | error e =>
      simp only [validateNode, hcheck, hpassword]
      cases e <;> simp [hlogin]
  | ok checked =>
      simp only [validateNode, hcheck, hpassword]
      rw [checkNode_eq, bind_eq_ok] at hcheck
      obtain ⟨⟨parsed, sockAddr⟩, hres, hcheck⟩ := hcheck
      obtain ⟨port, -, hrepack⟩ := bind_eq_ok.mp hcheck
      obtain rfl := Except.ok.inj hrepack
      have hinfo : (completeUrl parsed port).userInfo = [] := by
        rw [completeUrl_eq]
        exact huser parsed sockAddr hres
      have hsplit : splitUserInfo [] = ([], []) := by decide
      simp only [repack, hinfo, hsplit, hlogin, if_false, ne_eq, not_true_eq_false, true_and]
      exact hpassword node.password

/-- A node with a login is left alone if its URL is, and has no credentials. -/
theorem validateNode_eq_self_iff {node : Pgsql} (hlogin : node.login ≠ [])
    (huser : ∀ parsed sockAddr, resolve R (withScheme node.url) = .ok (parsed, sockAddr) →
      parsed.userInfo = []) :
    (validateNode R node).1 = node ↔ (validateNode R node).1.url = node.url := by
  refine ⟨fun h => congrArg Pgsql.url h, fun hurl => ?_⟩
  obtain ⟨hl, hp⟩ := credentials_validateNode hlogin huser
  obtain ⟨url, login, password⟩ := node
  rw [show (validateNode R ⟨url, login, password⟩).1 =
    ⟨(validateNode R ⟨url, login, password⟩).1.url, (validateNode R ⟨url, login, password⟩).1.login,
      (validateNode R ⟨url, login, password⟩).1.password⟩ from rfl, hurl, hl, hp]

/-! ## The URL of a stored node -/

/-- The default URL, as it is parsed. -/
def defaultUrl : Url := ⟨str "postgresql", [], str "localhost", 5432, str "/postgres", [], []⟩

theorem parse_pgsqlUrl : Url.parse pgsqlUrl = .ok defaultUrl := by decide +kernel

theorem withScheme_pgsqlUrl : withScheme pgsqlUrl = pgsqlUrl :=
  withScheme_postgresql (str "localhost:5432/postgres")

/-- An URL with a scheme separator is taken as it is. -/
theorem withScheme_idem (url : Bytes) : withScheme (withScheme url) = withScheme url := by
  by_cases hinfix : str "://" <:+: url
  · have hself : withScheme url = url := if_pos hinfix
    rw [hself, hself]
  · have hfront : withScheme url = str "postgresql://" ++ url := if_neg hinfix
    rw [hfront, withScheme_postgresql]

/-- The parsed URL of a host that is resolved. -/
theorem resolving_of_ok {url : Bytes} {parsed : Url} {sockAddr : SocketAddress}
    (h : resolve R (withScheme url) = .ok (parsed, sockAddr)) : Resolving R url parsed ∧
      SocketAddress.ofString R (endpointText parsed.host parsed.port) = .ok sockAddr := by
  have hnot : ∀ what, resolve R (withScheme url) ≠ .error (.runtime what) := by
    intro what
    rw [h]
    exact nofun
  obtain ⟨parsed', hresolving, hmap⟩ := exists_resolving hnot
  rw [h] at hmap
  cases hsocket : SocketAddress.ofString R (endpointText parsed'.host parsed'.port) with
  | error e =>
      rw [hsocket] at hmap
      cases hmap
  | ok sockAddr' =>
      rw [hsocket] at hmap
      obtain ⟨rfl, rfl⟩ := Prod.mk.inj (Except.ok.inj hmap)
      exact ⟨hresolving, hsocket⟩

/-- The host of an URL of the database scheme is resolved. -/
theorem resolve_of_parse {text : Bytes} {parsed : Url} (hparse : Url.parse text = .ok parsed)
    (hpg : parsed.scheme = str "postgresql") : resolve R text =
      (SocketAddress.ofString R (endpointText parsed.host parsed.port)).map (parsed, ·) := by
  have hscheme : ¬(parsed.scheme ≠ [] ∧ parsed.scheme ≠ str "postgresql") := fun hne => hne.2 hpg
  unfold resolve
  rw [hparse]
  simp only [Except.mapError, bind, Except.bind]
  rw [if_neg hscheme]
  cases SocketAddress.ofString R (endpointText parsed.host parsed.port) <;> rfl

/-- The text of an URL with a scheme is determined by its parts. -/
theorem toString_congr {u v : Url} (hscheme : u.scheme ≠ []) (hs : v.scheme = u.scheme)
    (huser : v.userInfo = u.userInfo) (hhost : v.host = u.host) (hport : v.getPort = u.getPort)
    (hpath : v.printedPath = u.printedPath) (hquery : v.query = u.query)
    (hfragment : v.fragment = u.fragment) : v.toString = u.toString := by
  have hauth : v.getAuthority = u.getAuthority := by
    rw [Url.getAuthority_eq, Url.getAuthority_eq, huser, hhost, hport]
  rw [Url.toString_absolute hscheme, Url.toString_absolute (hs ▸ hscheme), hs, hauth, hpath, hquery,
    hfragment]

namespace Resolving

variable {url : Bytes} {parsed : Url} {sockAddr : SocketAddress} {port : UInt16}

/-- The stored URL, as it is parsed again. -/
def reparsed (parsed : Url) (port : UInt16) : Url :=
  { storedUrl parsed port with
    port := (storedUrl parsed port).getPort, path := (storedUrl parsed port).printedPath }

/-- The stored URL of the database scheme has its scheme in the text. -/
theorem withScheme_stored (hpg : parsed.scheme = str "postgresql") :
    withScheme (storedUrl parsed port).toString = (storedUrl parsed port).toString := by
  have hstored : (storedUrl parsed port).scheme = str "postgresql" := hpg
  rw [Url.toString_of_path hstored (storedUrl_path parsed port) rfl, List.append_assoc,
    List.append_assoc, withScheme_postgresql]

/-- The stored URL is parsed, and its host is resolved with the port that was printed. -/
theorem resolve_stored (h : Resolving R url parsed) (hpg : parsed.scheme = str "postgresql") :
    resolve R (withScheme (storedUrl parsed port).toString) =
      (SocketAddress.ofString R (endpointText parsed.host (storedUrl parsed port).getPort)).map
        (reparsed parsed port, ·) := by
  have hparse := parse_storedUrl_eq (Url.wellFormed_of_parse h.parse) hpg
    (fun hopen => absurd hopen h.host.2) port
  rw [withScheme_stored hpg, resolve_of_parse hparse hpg]
  rfl

/-- The printed port, unless it is the default one, is the port that was resolved. -/
theorem getPort_stored (hpg : parsed.scheme = str "postgresql") :
    (storedUrl parsed port).getPort = pgsqlPort ∨
      ((storedUrl parsed port).getPort = parsed.port ∧ port ≠ 0) := by
  have hlookup : urlWellKnownPorts.lookup (str "postgresql") = some 5432 := rfl
  unfold Url.getPort storedUrl
  dsimp only
  rw [hpg, hlookup]
  by_cases hport : port = 0
  · rw [if_pos hport]
    exact .inl rfl
  · rw [if_neg hport]
    by_cases hspecified : parsed.port = 0
    · rw [hspecified]
      exact .inl rfl
    · rw [if_pos hspecified]
      exact .inr ⟨rfl, hport⟩

/-- What is printed of the URL that was parsed again, with a port that is only replaced by itself. -/
theorem toString_reparsed (h : Resolving R url parsed) (hpg : parsed.scheme = str "postgresql")
    {port' : UInt16} (hport : port' = 0 → (storedUrl parsed port).getPort = pgsqlPort) :
    (storedUrl (reparsed parsed port) port').toString = (storedUrl parsed port).toString := by
  have hslash := Url.path_of_host h.parse h.host.1
  have hpath := printedPath_storedUrl hpg hslash port
  have hagain : (reparsed parsed port).path.head? = some (chr '/') ∧
      (reparsed parsed port).getPathSegments ≠ [] := by
    change (storedUrl parsed port).printedPath.head? = _ ∧
      Url.segmentsLoop [] (storedUrl parsed port).printedPath ≠ _
    rw [hpath]
    by_cases hsegments : parsed.getPathSegments = []
    · rw [if_pos hsegments]
      decide
    · rw [if_neg hsegments]
      refine ⟨hslash.resolve_left fun hnil => hsegments ?_, hsegments⟩
      rw [Url.getPathSegments, hnil]
      rfl
  have hne : (storedUrl parsed port).getPort ≠ 0 := getPort_postgresql hpg
  have hpg' : (reparsed parsed port).scheme = str "postgresql" := hpg
  refine toString_congr ?_ rfl rfl rfl ?_ ?_ rfl rfl
  · rw [show (storedUrl parsed port).scheme = str "postgresql" from hpg]
    decide
  · have hnew : (storedUrl (reparsed parsed port) port').port = (storedUrl parsed port).getPort := by
      change (if port' = 0 then pgsqlPort else (storedUrl parsed port).getPort) = _
      by_cases hzero : port' = 0
      · rw [if_pos hzero, hport hzero]
      · rw [if_neg hzero]
    rw [Url.getPort, hnew, if_pos hne]
  · rw [printedPath_storedUrl hpg' (.inr hagain.1), if_neg hagain.2]
    rfl

/-- **A stored URL with a scheme is stored again as it is.** -/
theorem url_again (h : Resolving R url parsed) (hpg : parsed.scheme = str "postgresql")
    (hsocket : SocketAddress.ofString R (endpointText parsed.host parsed.port) = .ok sockAddr)
    (hport : sockAddr.port = .ok port) {node : Pgsql}
    (hurl : node.url = (storedUrl parsed port).toString) :
    (validateNode R node).1.url = node.url := by
  have hslash : chr '/' ∉ parsed.host := fun hmem =>
    (Url.wellFormed_of_parse h.parse).host_chars (chr '/') hmem (by decide)
  rw [url_validateNode, hurl, h.resolve_stored hpg]
  cases hagain : SocketAddress.ofString R
      (endpointText parsed.host (storedUrl parsed port).getPort) with
  | error e =>
      cases e with
      | dns what => exact withScheme_stored hpg
      | runtime what =>
          exact absurd hagain (no_runtime_of_ok h.host.1 h.host.2 hslash hsocket _ what)
  | ok sockAddr' =>
      obtain ⟨port', hport'⟩ := exists_port_of_host hslash hagain
      simp only [Except.map, hport']
      refine h.toString_reparsed hpg fun hzero => ?_
      rcases getPort_stored hpg with hdefault | ⟨hsame, hne⟩
      · exact hdefault
      · -- with the same port the text is the same, and so is what it is resolved to
        rw [hsame, hsocket] at hagain
        obtain rfl := Except.ok.inj hagain
        rw [hport] at hport'
        exact absurd (Except.ok.inj hport' ▸ hzero) hne

end Resolving

/-! ## Rounds of validation -/

/-- What the URL of a validated node can be: the default, the configured text whose host is not known,
or the printed URL. -/
theorem stored_cases (node : Pgsql) :
    ((validateNode R node).1.url = pgsqlUrl ∧
        ∃ what, resolve R (withScheme node.url) = .error (.runtime what)) ∨
      ((validateNode R node).1.url = withScheme node.url ∧
        ∃ what, resolve R (withScheme node.url) = .error (.dns what)) ∨
      ∃ parsed sockAddr port, resolve R (withScheme node.url) = .ok (parsed, sockAddr) ∧
        sockAddr.port = .ok port ∧
        (validateNode R node).1.url = (storedUrl parsed port).toString := by
  rw [url_validateNode]
  cases hres : resolve R (withScheme node.url) with
  | error e =>
      cases e with
      | dns what => exact .inr (.inl ⟨rfl, what, rfl⟩)
      | runtime what => exact .inl ⟨rfl, what, rfl⟩
  | ok out =>
      obtain ⟨parsed, sockAddr⟩ := out
      obtain ⟨hresolving, hsocket⟩ := resolving_of_ok hres
      obtain ⟨port, hport⟩ := hresolving.exists_port hsocket
      refine .inr (.inr ⟨parsed, sockAddr, port, rfl, hport, ?_⟩)
      simp only [hport]

/-- The default URL is stored again. -/
theorem url_default {node : Pgsql} (hurl : node.url = pgsqlUrl) :
    (validateNode R node).1.url = pgsqlUrl := by
  have hprinted : ∀ port, (storedUrl defaultUrl port).toString = pgsqlUrl := by
    intro port
    have hsame : storedUrl defaultUrl port = defaultUrl := by
      unfold storedUrl
      rw [show (if port = 0 then pgsqlPort else defaultUrl.port) = defaultUrl.port from ite_self _]
      decide
    rw [hsame]
    decide
  rcases stored_cases (R := R) node with ⟨hdefault, -⟩ | ⟨hwritten, -⟩ |
    ⟨parsed, sockAddr, port, hres, -, hstored⟩
  · exact hdefault
  · rw [hwritten, hurl, withScheme_pgsqlUrl]
  · rw [hurl] at hres
    have hparse := (resolving_of_ok hres).1.parse
    rw [withScheme_pgsqlUrl, parse_pgsqlUrl] at hparse
    rw [hstored, ← Except.ok.inj hparse, hprinted]

/-- Behind the default scheme everything is parsed with it. -/
theorem scheme_of_parse_postgresql {s : Bytes} {url : Url}
    (h : Url.parse (str "postgresql://" ++ s) = .ok url) : url.scheme = str "postgresql" := by
  rw [Url.parse_postgresql, bind_eq_ok] at h
  obtain ⟨⟨res, it⟩, hauthority, h⟩ := h
  obtain rfl := Except.ok.inj h
  simp only [Url.parseAuthority, bind_eq_ok] at hauthority
  obtain ⟨⟨host, port⟩, -, hres⟩ := hauthority
  obtain ⟨rfl, -⟩ := Prod.mk.inj (Except.ok.inj hres)
  rfl

/-- A text without `://`, such as `db.example/app`, is given a scheme. -/
theorem schemed_of_not_infix {text : Bytes} (h : ¬str "://" <:+: text) : Schemed R text := by
  intro parsed sockAddr hres
  have hfront : withScheme text = str "postgresql://" ++ text := if_neg h
  have hparse := (resolving_of_ok hres).1.parse
  rw [hfront] at hparse
  rw [scheme_of_parse_postgresql hparse]
  decide

/-- A host is found in an URL without scheme only behind the default one. -/
theorem schemed_of_relative {text path query : Bytes}
    (hparse : Url.parse text = .ok { Url.empty with path := path, query := query }) :
    (str "://" <:+: text → ∀ parsed, ¬Resolving R text parsed) ∧ Schemed R text := by
  have hnone : str "://" <:+: text → ∀ parsed, ¬Resolving R text parsed := by
    intro hinfix parsed h
    have hself : withScheme text = text := if_pos hinfix
    have hparse' := h.parse
    rw [hself, hparse] at hparse'
    apply h.host.1
    rw [← Except.ok.inj hparse']
    rfl
  refine ⟨hnone, ?_⟩
  by_cases hinfix : str "://" <:+: text
  · exact fun parsed sockAddr hres => absurd (resolving_of_ok hres).1 (hnone hinfix parsed)
  · exact schemed_of_not_infix hinfix

/-- A URL without scheme is not what is stored. -/
theorem url_relative_ne {node : Pgsql} {path query : Bytes}
    (hparse : Url.parse node.url = .ok { Url.empty with path := path, query := query }) :
    (validateNode R node).1.url ≠ node.url := by
  obtain ⟨hnone, hschemed⟩ := schemed_of_relative (R := R) hparse
  intro hsame
  rcases stored_cases (R := R) node with ⟨hdefault, -⟩ | ⟨hwritten, what, hdns⟩ |
    ⟨parsed, sockAddr, port, hres, -, hstored⟩
  · rw [← hsame, hdefault, parse_pgsqlUrl] at hparse
    have hscheme : str "postgresql" = [] := congrArg Url.scheme (Except.ok.inj hparse)
    exact absurd hscheme (by decide)
  · by_cases hinfix : str "://" <:+: node.url
    · have hnot : ∀ text, resolve R (withScheme node.url) ≠ .error (.runtime text) := by
        intro text
        rw [hdns]
        exact nofun
      obtain ⟨parsed, hresolving, -⟩ := exists_resolving hnot
      exact hnone hinfix parsed hresolving
    · have hfront : withScheme node.url = str "postgresql://" ++ node.url := if_neg hinfix
      have hlength := congrArg List.length (hsame.symm.trans (hwritten.trans hfront))
      rw [List.length_append, show (str "postgresql://").length = 13 from rfl] at hlength
      omega
  · have hresolving := (resolving_of_ok hres).1
    have hpg := hresolving.scheme.resolve_left (hschemed parsed sockAddr hres)
    have hagain := parse_storedUrl_eq (Url.wellFormed_of_parse hresolving.parse) hpg
      (fun hopen => absurd hopen hresolving.host.2) port
    rw [← hstored, hsame, hparse] at hagain
    have hscheme := congrArg Url.scheme (Except.ok.inj hagain)
    have hnil : parsed.scheme = [] := hscheme.symm
    exact hschemed parsed sockAddr hres hnil

/-- The printed URL without scheme. -/
theorem parse_stored_relative {url : Bytes} {parsed : Url} (h : Resolving R url parsed)
    (hnil : parsed.scheme = []) (port : UInt16) : Url.parse (storedUrl parsed port).toString =
      .ok { Url.empty with path := (storedUrl parsed port).path, query := parsed.query } :=
  parse_storedUrl_noScheme (Url.wellFormed_of_parse h.parse) hnil
    (Url.path_of_host h.parse h.host.1) port

/-- **A validated node is left alone** by the next validation exactly if the scheme of its URL is not
empty, after `withScheme`, when its host is resolved. -/
theorem settled_iff (node : Pgsql) :
    (validateNode R (validateNode R node).1).1 = (validateNode R node).1 ↔ Schemed R node.url := by
  have hlogin := login_validateNode (R := R) node
  rcases stored_cases (R := R) node with ⟨hdefault, what, hruntime⟩ | ⟨hwritten, what, hdns⟩ |
    ⟨parsed, sockAddr, port, hres, hport, hstored⟩
  · refine iff_of_true ?_ fun parsed sockAddr hres => ?_
    · rw [validateNode_eq_self_iff hlogin, url_default hdefault, hdefault]
      intro parsed sockAddr hres
      have hparse := (resolving_of_ok hres).1.parse
      rw [hdefault, withScheme_pgsqlUrl, parse_pgsqlUrl] at hparse
      exact congrArg Url.userInfo (Except.ok.inj hparse).symm
    · rw [hruntime] at hres
      cases hres
  · -- the text is read as before, and its host is as unknown as before
    have hagain : resolve R (withScheme (validateNode R node).1.url) = .error (.dns what) := by
      rw [hwritten, withScheme_idem, hdns]
    refine iff_of_true ?_ fun parsed sockAddr hres => ?_
    · rw [validateNode_eq_self_iff hlogin, url_validateNode, hagain, hwritten]
      · exact withScheme_idem node.url
      · intro parsed sockAddr hres
        rw [hagain] at hres
        cases hres
    · rw [hdns] at hres
      cases hres
  · obtain ⟨hresolving, hsocket⟩ := resolving_of_ok hres
    have hschemed : Schemed R node.url ↔ parsed.scheme ≠ [] := by
      refine ⟨fun h => h parsed sockAddr hres, fun h parsed' sockAddr' hres' => ?_⟩
      rw [hres] at hres'
      rwa [← (Prod.mk.inj (Except.ok.inj hres')).1]
    rw [hschemed]
    rcases hresolving.scheme with hnil | hpg
    · refine iff_of_false (fun hself => ?_) (not_not.mpr hnil)
      have hparse := parse_stored_relative hresolving hnil port
      rw [← hstored] at hparse
      exact url_relative_ne hparse (congrArg Pgsql.url hself)
    · refine iff_of_true ?_ (by rw [hpg]; decide)
      rw [validateNode_eq_self_iff hlogin]
      · exact hresolving.url_again hpg hsocket hport hstored
      · intro parsed' sockAddr' hres'
        rw [hstored, hresolving.resolve_stored hpg] at hres'
        cases hagain : SocketAddress.ofString R
            (endpointText parsed.host (storedUrl parsed port).getPort) with
        | error e =>
            rw [hagain] at hres'
            cases hres'
        | ok sockAddr'' =>
            rw [hagain] at hres'
            obtain rfl := (Prod.mk.inj (Except.ok.inj hres')).1
            rfl

/-- Whatever was configured, the stored URL has a scheme, after `withScheme`, when its host is
resolved. -/
theorem schemed_stored (node : Pgsql) : Schemed R (validateNode R node).1.url := by
  rcases stored_cases (R := R) node with ⟨hdefault, -⟩ | ⟨hwritten, what, hdns⟩ |
    ⟨parsed, sockAddr, port, hres, hport, hstored⟩
  · intro parsed sockAddr hres
    have hparse := (resolving_of_ok hres).1.parse
    rw [hdefault, withScheme_pgsqlUrl, parse_pgsqlUrl] at hparse
    rw [← Except.ok.inj hparse]
    decide
  · intro parsed sockAddr hres
    rw [hwritten, withScheme_idem, hdns] at hres
    cases hres
  · have hresolving := (resolving_of_ok hres).1
    rw [hstored]
    rcases hresolving.scheme with hnil | hpg
    · exact (schemed_of_relative (parse_stored_relative hresolving hnil port)).2
    · intro parsed' sockAddr' hres'
      have hparse := (resolving_of_ok hres').1.parse
      rw [Resolving.withScheme_stored hpg, parse_storedUrl_eq
        (Url.wellFormed_of_parse hresolving.parse) hpg (fun hopen => absurd hopen hresolving.host.2)
        port] at hparse
      rw [← Except.ok.inj hparse]
      rw [show (storedUrl parsed port).scheme = str "postgresql" from hpg]
      decide

/-! ## The whole configuration -/

/-- The configuration that `validate` leaves. -/
def stored (dns : Nat → Resolver) (cfg : ConfigS) : ConfigS := (validate dns cfg).1

/-- Everything of a configuration that is checked, apart from the listening address of the HTTP
server. -/
structure SameChecked (cfg cfg' : ConfigS) : Prop where
  master : cfg.pgsqlMaster = cfg'.pgsqlMaster
  replicas : cfg.pgsqlReplica = cfg'.pgsqlReplica
  threads : cfg.httpThreadsCount = cfg'.httpThreadsCount
  queue : cfg.httpQueueCapacity = cfg'.httpQueueCapacity
  prometheus : cfg.prometheusListening = cfg'.prometheusListening ∧
    cfg.prometheusPort = cfg'.prometheusPort

/-- Every node of the configuration is `Schemed`, with the resolver that answers for it. -/
def AllSchemed (dns : Nat → Resolver) (cfg : ConfigS) : Prop :=
  Schemed (dns 0) cfg.pgsqlMaster.url ∧
    ∀ i node, cfg.pgsqlReplica[i]? = some node → Schemed (dns (i + 1)) node.url

/-- A number that was checked is not changed again. -/
theorem validateRange_again (key : Bytes) {min max dflt : Int} (v : Int)
    (h : min ≤ dflt ∧ dflt ≤ max) :
    (validateRange key min max dflt (validateRange key min max dflt v).1).1 =
      (validateRange key min max dflt v).1 := by
  obtain ⟨hmin, hmax⟩ := validateRange_mem key v h
  conv_lhs => rw [validateRange, if_neg (by omega)]

section rounds

variable {dns : Nat → Resolver} {cfg : ConfigS}

/-- A replica of the stored configuration. -/
theorem getElem?_stored (i : Nat) : (stored dns cfg).pgsqlReplica[i]? =
    (cfg.pgsqlReplica[i]?).map fun node => (validateNode (dns (i + 1)) node).1 := by
  cases hnode : cfg.pgsqlReplica[i]? with
  | some node => exact (validate_replica hnode).1
  | none =>
      have hlen := List.getElem?_eq_none_iff.mp hnode
      rw [Option.map_none, List.getElem?_eq_none_iff]
      simpa [stored, validate, validateReports] using hlen

/-- The replicas are left alone if each of them is. -/
theorem replicas_again_iff :
    (stored dns (stored dns cfg)).pgsqlReplica = (stored dns cfg).pgsqlReplica ↔
      ∀ i node, cfg.pgsqlReplica[i]? = some node → Schemed (dns (i + 1)) node.url := by
  constructor
  · intro h i node hnode
    have hi := congrArg (fun l => l[i]?) h
    rw [getElem?_stored, getElem?_stored, hnode, Option.map_some, Option.map_some] at hi
    exact (settled_iff node).mp (Option.some.inj hi)
  · intro h
    apply List.ext_getElem?
    intro i
    rw [getElem?_stored, getElem?_stored]
    cases hnode : cfg.pgsqlReplica[i]? with
    | none => rfl
    | some node =>
        rw [Option.map_some, Option.map_some, (settled_iff node).mpr (h i node hnode)]

/-- The numbers are left alone, and so is the address that is made from one of them. -/
theorem numbers_again :
    (stored dns (stored dns cfg)).httpThreadsCount = (stored dns cfg).httpThreadsCount ∧
    (stored dns (stored dns cfg)).httpQueueCapacity = (stored dns cfg).httpQueueCapacity ∧
    (stored dns (stored dns cfg)).prometheusListening = (stored dns cfg).prometheusListening := by
  refine ⟨validateRange_again _ _ (by decide), validateRange_again _ _ (by decide), ?_⟩
  simp [stored, validate, validateReports]

end rounds

/-- **Validation settles.** A second validation, with the same answers about names, leaves a validated
configuration alone exactly if every configured URL whose host is resolved has a scheme that is not
empty, once `postgresql://` is put before a text without `://`; and a third one leaves it alone in any
case.
Source: `config_s::validate` -/
theorem validation_settles (dns : Nat → Resolver) (cfg : ConfigS) :
    (SameChecked (stored dns (stored dns cfg)) (stored dns cfg) ↔ AllSchemed dns cfg) ∧
      SameChecked (stored dns (stored dns (stored dns cfg))) (stored dns (stored dns cfg)) := by
  have hiff : ∀ cfg,
      SameChecked (stored dns (stored dns cfg)) (stored dns cfg) ↔ AllSchemed dns cfg := by
    intro cfg
    obtain ⟨hthreads, hqueue, hprometheus⟩ := @numbers_again dns cfg
    constructor
    · intro h
      exact ⟨(settled_iff cfg.pgsqlMaster).mp h.master, replicas_again_iff.mp h.replicas⟩
    · intro ⟨hmaster, hreplicas⟩
      exact ⟨(settled_iff cfg.pgsqlMaster).mpr hmaster, replicas_again_iff.mpr hreplicas, hthreads,
        hqueue, hprometheus, rfl⟩
  refine ⟨hiff cfg, (hiff (stored dns cfg)).mpr ⟨schemed_stored cfg.pgsqlMaster, ?_⟩⟩
  intro i node hnode
  rw [getElem?_stored] at hnode
  obtain ⟨node', -, rfl⟩ := Option.map_eq_some_iff.mp hnode
  exact schemed_stored node'

end SocialNetwork.Db
