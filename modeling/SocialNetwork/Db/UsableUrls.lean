import SocialNetwork.Config.Credentials
import SocialNetwork.Db.DbStart
import SocialNetwork.Helpers.UrlReparse

/-!
# Stored URLs that `db_start` can use

`validate` has three ways out of the `try` block of a node. A `DnsException` leaves the URL as it was
written, so that nobody adds the port or the path that it may lack; any other exception puts the
default in its place; and a resolved host leads to the printed URL, which is only a path if the scheme
is empty. `Usable` says what `db_start` needs of a stored URL, and `Storable` which nodes get it.
-/

namespace SocialNetwork.Db

open Foundation Helpers Net Config

variable {R : Resolver}

/-! ## The two properties -/

/-- The `try` block of a node up to the resolution of its host: the parsed URL and the socket
address. -/
def resolve (R : Resolver) (url : Bytes) : Except SocketError (Url × SocketAddress) := do
  let url ← (Url.parse url).mapError .runtime
  if url.scheme ≠ [] ∧ url.scheme ≠ str "postgresql" then
    throw (.runtime (str "scheme should be 'postgresql'"))
  let sockAddr ← SocketAddress.ofString R (endpointText url.host url.port)
  return (url, sockAddr)

/-- The stored URL of a node is one that `db_start` makes a connection of: to the host that was
validated, if `url` is not replaced by the default. -/
def Usable (R : Resolver) (url : Bytes) (node : Pgsql) : Prop :=
  ∃ stored, Url.parse node.url = .ok stored ∧ stored.host ≠ [] ∧ stored.getPort ≠ 0 ∧
    1 ≤ stored.path.length ∧
    nodeConnection node = .ok
      (connStr node.login node.password stored.host stored.getPort (stored.path.drop 1),
        stored.host ++ str ":" ++ decimal stored.getPort.toNat) ∧
    ∀ parsed, Url.parse (withScheme url) = .ok parsed →
      (∀ what, resolve R (withScheme url) ≠ .error (.runtime what)) → stored.host = parsed.host

/-- What a configured URL has to be like: with a scheme if its host is resolved, and with a path, and
a scheme or a port, if the name of its host is not. -/
def Storable (R : Resolver) (url : Bytes) : Prop :=
  let text := UrlText.ofBytes (withScheme url)
  match resolve R (withScheme url) with
  | .ok _ => text.scheme.getD [] ≠ []
  | .error (.dns _) => decode text.path ≠ [] ∧ (text.scheme.getD [] ≠ [] ∨ text.port ≠ [])
  | .error (.runtime _) => True

/-! ## The outcomes of the resolution -/

/-- The block in terms of its first part. -/
theorem checkNode_eq (node : Pgsql) : checkNode R node = (do
    let (url, sockAddr) ← resolve R node.url
    let port ← sockAddr.port
    return repack node (completeUrl url port)) := by
  unfold checkNode resolve endpointText
  cases Url.parse node.url with
  | error e => rfl
  | ok url =>
      simp only [Except.mapError, bind, Except.bind]
      split
      · rfl
      · cases SocketAddress.ofString R (url.host ++ str ":" ++ decimal url.port.toNat) <;> rfl

/-- What is known when the host is resolved, or its name is not. -/
theorem parse_of_resolve {url : Bytes} (h : ∀ what, resolve R url ≠ .error (.runtime what)) :
    ∃ parsed, Url.parse url = .ok parsed ∧ (parsed.scheme = [] ∨ parsed.scheme = str "postgresql") ∧
      resolve R url = (SocketAddress.ofString R (endpointText parsed.host parsed.port)).map
        (parsed, ·) := by
  unfold resolve at h ⊢
  cases hparse : Url.parse url with
  | error e => exact absurd (by rw [hparse]; rfl) (h e)
  | ok parsed =>
      simp only [hparse, Except.mapError, bind, Except.bind] at h ⊢
      split at h
      · exact absurd rfl (h _)
      · rename_i hscheme
        refine ⟨parsed, rfl, by tauto, ?_⟩
        rw [if_neg hscheme]
        cases SocketAddress.ofString R (endpointText parsed.host parsed.port) <;> rfl

/-- Without a host there is no socket address, and the name is not to blame. -/
theorem ofString_noHost (port : UInt16) :
    ∃ what, SocketAddress.ofString R (endpointText [] port) = .error (.runtime what) := by
  have hslash : (endpointText [] port).head? ≠ some (chr '/') := by
    exact fun h => absurd (Option.some.inj h) (by decide)
  refine ⟨str "missing host and/or port number", ?_⟩
  rw [SocketAddress.ofString, if_neg hslash]
  rfl

/-- A host that starts with an unclosed bracket is no host either. -/
theorem ofString_bracket {host : Bytes} (hopen : host.head? = some (chr '['))
    (hclose : chr ']' ∉ host) (port : UInt16) :
    ∃ what, SocketAddress.ofString R (endpointText host port) = .error (.runtime what) := by
  cases host with
  | nil => cases hopen
  | cons c host =>
      obtain rfl : c = chr '[' := Option.some.inj hopen
      have hfree : chr ']' ∉ host ++ str ":" ++ decimal port.toNat := by
        intro hx
        simp only [List.append_assoc, List.mem_append] at hx
        rcases hx with hx | hx | hx
        · exact hclose (List.mem_cons_of_mem _ hx)
        · exact absurd hx (by decide)
        · exact absurd (isDigit_of_mem_decimal hx) (by decide)
      refine ⟨str "malformed IPv6 address", ?_⟩
      have htext : endpointText (chr '[' :: host) port =
          chr '[' :: (host ++ str ":" ++ decimal port.toNat) := rfl
      rw [htext, SocketAddress.ofString, if_neg (by simp; decide), SocketAddress.splitToHostAndPort]
      rw [if_pos rfl, span_eq_self (decide_ne_of_not_mem hfree)]

/-! ## The printed URL -/

/-- The stored URL is well formed if the parsed one is. -/
theorem wellFormed_storedUrl {url : Url} (h : url.WellFormed) (port : UInt16) :
    (storedUrl url port).WellFormed :=
  { scheme_lower := h.scheme_lower
    scheme_head := h.scheme_head
    scheme_chars := h.scheme_chars
    userInfo_chars := fun _ hc => absurd hc (by simp [storedUrl])
    host_lower := h.host_lower
    host_chars := h.host_chars
    host_bracket := h.host_bracket
    query_chars := h.query_chars }

/-- An URL of the database scheme has an effective port. -/
theorem getPort_postgresql {url : Url} (h : url.scheme = str "postgresql") : url.getPort ≠ 0 := by
  intro hzero
  have hlookup := (Url.getPort_eq_zero.mp hzero).2
  rw [h] at hlookup
  cases hlookup

/-- An URL without scheme has the port that was specified. -/
theorem getPort_noScheme {url : Url} (h : url.scheme = []) : url.getPort = 0 ↔ url.port = 0 := by
  rw [Url.getPort_eq_zero, h]
  exact and_iff_left rfl

/-- With the database scheme, what is printed is read back with the effective port and the printed
path. -/
theorem parse_storedUrl_eq {url : Url} (hwf : url.WellFormed) (hscheme : url.scheme = str "postgresql")
    (hhost : url.host.head? = some (chr '[') → chr ':' ∈ url.host) (port : UInt16) :
    Url.parse (storedUrl url port).toString =
      .ok { storedUrl url port with
        port := (storedUrl url port).getPort, path := (storedUrl url port).printedPath } := by
  have hstored : (storedUrl url port).scheme = str "postgresql" := hscheme
  have hauth : (storedUrl url port).getAuthority ≠ [] := fun h =>
    getPort_postgresql hstored (Url.getAuthority_eq_nil.mp h).2.2
  have hne : (storedUrl url port).scheme ≠ [] := by
    rw [hstored]
    decide
  have hparse := Url.parse_authority (wellFormed_storedUrl hwf port) hne hauth
  rwa [if_neg fun h => h.2 (hhost h.1)] at hparse

/-- The path that is printed with the database scheme. -/
theorem printedPath_storedUrl {url : Url} (hscheme : url.scheme = str "postgresql")
    (hpath : url.path = [] ∨ url.path.head? = some (chr '/')) (port : UInt16) :
    (storedUrl url port).printedPath =
      if url.getPathSegments = [] then chr '/' :: pgsqlDatabase else url.path := by
  have hstored : (storedUrl url port).scheme = str "postgresql" := hscheme
  have hauth : (storedUrl url port).getAuthority ≠ [] := fun h =>
    getPort_postgresql hstored (Url.getAuthority_eq_nil.mp h).2.2
  rw [Url.printedPath, if_neg (by rw [hstored]; decide), if_neg (storedUrl_path url port)]
  by_cases hsegments : url.getPathSegments = []
  · have hdefault : (storedUrl url port).path = pgsqlDatabase := if_pos hsegments
    rw [if_pos hsegments, hdefault, if_pos ⟨hauth, by decide⟩]
  · have hkept : (storedUrl url port).path = url.path := if_neg hsegments
    have hhead : url.path.head? = some (chr '/') :=
      hpath.resolve_left fun hnil => hsegments (by rw [Url.getPathSegments, hnil]; rfl)
    rw [if_neg hsegments, hkept, if_neg fun h => h.2 hhead]

/-- With the database scheme, what is printed is read back with its host, a port and a path. -/
theorem parse_storedUrl {url : Url} (hwf : url.WellFormed) (hscheme : url.scheme = str "postgresql")
    (hhost : url.host.head? = some (chr '[') → chr ':' ∈ url.host) (port : UInt16) :
    ∃ stored, Url.parse (storedUrl url port).toString = .ok stored ∧ stored.host = url.host ∧
      stored.getPort ≠ 0 ∧ stored.path ≠ [] := by
  have hne : (storedUrl url port).scheme ≠ [] := by
    rw [show (storedUrl url port).scheme = str "postgresql" from hscheme]
    decide
  refine ⟨_, parse_storedUrl_eq hwf hscheme hhost port, rfl, getPort_postgresql hscheme, ?_⟩
  dsimp only
  rw [Url.printedPath, if_neg hne, if_neg (storedUrl_path url port)]
  split
  · exact List.cons_ne_nil _ _
  · exact storedUrl_path url port

/-- Without a scheme, only the path and the query are printed. -/
theorem parse_storedUrl_noScheme {url : Url} (hwf : url.WellFormed) (hscheme : url.scheme = [])
    (hpath : url.path = [] ∨ url.path.head? = some (chr '/')) (port : UInt16) :
    Url.parse (storedUrl url port).toString =
      .ok { Url.empty with path := (storedUrl url port).path, query := url.query } := by
  have hrelative : Url.colonFirst (storedUrl url port).path = false := by
    simp only [storedUrl]
    split
    · decide
    · rename_i hsegments
      cases hcons : url.path with
      | nil => exact absurd (by rw [Url.getPathSegments, hcons]; rfl) hsegments
      | cons c path =>
          rw [hcons] at hpath
          obtain rfl : c = chr '/' := by simpa using hpath
          rw [Url.colonFirst, List.dropWhile_cons_of_neg (by decide)]
          rfl
  rw [Url.toString_relative (show (storedUrl url port).scheme = [] from hscheme),
    Url.parse_relative ((Url.hasScheme_encode _ _ _).trans hrelative),
    Url.parsePathQueryFragment_encode (show chr '#' ∉ (storedUrl url port).query from hwf.query_chars)]
  rfl

/-! ## From the configuration to `db_start` -/

/-- The URL that a node ends up with. -/
theorem url_validateNode (node : Pgsql) : (validateNode R node).1.url =
    match resolve R (withScheme node.url) with
    | .ok (url, sockAddr) => match sockAddr.port with
      | .ok port => (storedUrl url port).toString
      | .error (.dns _) => withScheme node.url
      | .error (.runtime _) => pgsqlUrl
    | .error (.dns _) => withScheme node.url
    | .error (.runtime _) => pgsqlUrl := by
  simp only [validateNode, checkNode_eq]
  cases resolve R (withScheme node.url) with
  | error e => cases e <;> rfl
  | ok out =>
      obtain ⟨url, sockAddr⟩ := out
      simp only [bind, Except.bind]
      cases sockAddr.port with
      | error e => cases e <;> rfl
      | ok port =>
          simp only [pure, Except.pure, repack, setUserInfo_completeUrl]

/-- A host that is resolved, or whose name is not, is not empty and starts with no bracket. -/
theorem host_of_ofString {url : Url} (hwf : url.WellFormed)
    (h : ∀ what, SocketAddress.ofString R (endpointText url.host url.port) ≠ .error (.runtime what)) :
    url.host ≠ [] ∧ url.host.head? ≠ some (chr '[') := by
  constructor
  · intro hnil
    rw [hnil] at h
    obtain ⟨what, hwhat⟩ := ofString_noHost (R := R) url.port
    exact h what hwhat
  · intro hopen
    obtain ⟨what, hwhat⟩ := ofString_bracket (R := R) hopen (hwf.host_bracket (.inr hopen)) url.port
    exact h what hwhat

/-- An URL is parsed, and its scheme is allowed, if it comes to the resolution of its host. -/
structure Resolving (R : Resolver) (url : Bytes) (parsed : Url) : Prop where
  parse : Url.parse (withScheme url) = .ok parsed
  scheme : parsed.scheme = [] ∨ parsed.scheme = str "postgresql"
  host : parsed.host ≠ [] ∧ parsed.host.head? ≠ some (chr '[')
  no_runtime : ∀ what, resolve R (withScheme url) ≠ .error (.runtime what)

theorem exists_resolving {url : Bytes} (h : ∀ what, resolve R (withScheme url) ≠ .error (.runtime what)) :
    ∃ parsed, Resolving R url parsed ∧ resolve R (withScheme url) =
      (SocketAddress.ofString R (endpointText parsed.host parsed.port)).map (parsed, ·) := by
  obtain ⟨parsed, hparse, hscheme, hmap⟩ := parse_of_resolve h
  refine ⟨parsed, ⟨hparse, hscheme, ?_, h⟩, hmap⟩
  refine host_of_ofString (R := R) (Url.wellFormed_of_parse hparse) fun what hwhat => ?_
  rw [hwhat] at hmap
  exact h what hmap

namespace Resolving

variable {url : Bytes} {node : Pgsql} {parsed : Url}

/-- The scheme is empty exactly if its text is. -/
theorem scheme_eq_nil (h : Resolving R url parsed) :
    parsed.scheme = [] ↔ (UrlText.ofBytes (withScheme url)).scheme.getD [] = [] := by
  rw [(Url.reads_of_parse h.parse).scheme]
  exact List.map_eq_nil_iff

/-- The node is usable if its URL is read back with the host, a port and a path. -/
theorem usable_iff (h : Resolving R url parsed) : Usable R url node ↔
    ∃ stored, Url.parse node.url = .ok stored ∧ stored.host = parsed.host ∧ stored.getPort ≠ 0 ∧
      stored.path ≠ [] := by
  constructor
  · rintro ⟨stored, hstored, -, hport, hpath, -, hsame⟩
    exact ⟨stored, hstored, hsame parsed h.parse h.no_runtime, hport, List.length_pos_iff.mp hpath⟩
  · rintro ⟨stored, hstored, hsame, hport, hpath⟩
    refine ⟨stored, hstored, ?_, hport, List.length_pos_iff.mpr hpath,
      nodeConnection_of_parse hstored (List.length_pos_iff.mpr hpath), fun parsed' hparse' _ => ?_⟩
    · rw [hsame]
      exact h.host.1
    · rw [hsame, Except.ok.inj (h.parse.symm.trans hparse')]

/-- A node whose URL stays as it was written is usable if nothing is missing there. -/
theorem usable_written (h : Resolving R url parsed) (hurl : node.url = withScheme url) :
    Usable R url node ↔ decode (UrlText.ofBytes (withScheme url)).path ≠ [] ∧
      ((UrlText.ofBytes (withScheme url)).scheme.getD [] ≠ [] ∨
        (UrlText.ofBytes (withScheme url)).port ≠ []) := by
  have hreads := Url.reads_of_parse h.parse
  have hport : parsed.getPort ≠ 0 ↔ (UrlText.ofBytes (withScheme url)).scheme.getD [] ≠ [] ∨
      (UrlText.ofBytes (withScheme url)).port ≠ [] := by
    rw [ne_eq, ne_eq, ne_eq, ← h.scheme_eq_nil, ← hreads.port]
    rcases h.scheme with hnil | hpg
    · rw [getPort_noScheme hnil]
      simp [hnil]
    · refine iff_of_true (getPort_postgresql hpg) (.inl ?_)
      rw [hpg]
      decide
  rw [h.usable_iff, hurl, h.parse, ← hreads.path, ← hport]
  constructor
  · rintro ⟨stored, hstored, -, hne, hpath⟩
    obtain rfl := Except.ok.inj hstored
    exact ⟨hpath, hne⟩
  · rintro ⟨hpath, hne⟩
    exact ⟨parsed, rfl, rfl, hne, hpath⟩

/-- A node whose URL is printed is usable if there is a scheme to print. -/
theorem usable_printed (h : Resolving R url parsed) {port : UInt16}
    (hurl : node.url = (storedUrl parsed port).toString) :
    Usable R url node ↔ (UrlText.ofBytes (withScheme url)).scheme.getD [] ≠ [] := by
  have hwf := Url.wellFormed_of_parse h.parse
  rw [h.usable_iff, hurl, ne_eq, ← h.scheme_eq_nil]
  rcases h.scheme with hnil | hpg
  · refine iff_of_false ?_ (not_not.mpr hnil)
    rintro ⟨stored, hstored, hsame, -, -⟩
    apply h.host.1
    rw [parse_storedUrl_noScheme hwf hnil (Url.path_of_host h.parse h.host.1)] at hstored
    obtain rfl := Except.ok.inj hstored
    exact hsame.symm
  · have hne : parsed.scheme ≠ [] := by
      rw [hpg]
      decide
    exact iff_of_true (parse_storedUrl hwf hpg (fun hopen => absurd hopen h.host.2) port) hne

/-- The socket address of the host has a port. -/
theorem exists_port (h : Resolving R url parsed) {sockAddr : SocketAddress}
    (hsocket : SocketAddress.ofString R (endpointText parsed.host parsed.port) = .ok sockAddr) :
    ∃ port, sockAddr.port = .ok port :=
  exists_port_of_host
    (fun hmem => (Url.wellFormed_of_parse h.parse).host_chars (chr '/') hmem (by decide)) hsocket

end Resolving

/-- A node is validated without an error exactly if its host is resolved to an address with a
port. -/
theorem errors_validateNode (node : Pgsql) : (validateNode R node).2 = [] ↔
    ∃ parsed sockAddr port, resolve R (withScheme node.url) = .ok (parsed, sockAddr) ∧
      sockAddr.port = .ok port := by
  simp only [validateNode, checkNode_eq]
  cases resolve R (withScheme node.url) with
  | error e => cases e <;> simp [bind, Except.bind]
  | ok out =>
      obtain ⟨parsed, sockAddr⟩ := out
      simp only [bind, Except.bind]
      cases hport : sockAddr.port with
      | error e => cases e <;> simp [hport]
      | ok port => simp [pure, Except.pure, hport]

/-- What is stored for a node that is validated without an error. -/
theorem stored_of_no_errors {node : Pgsql} (h : (validateNode R node).2 = []) :
    ∃ parsed sockAddr port, Resolving R node.url parsed ∧
      SocketAddress.ofString R (endpointText parsed.host parsed.port) = .ok sockAddr ∧
      sockAddr.port = .ok port ∧
      (validateNode R node).1.url = (storedUrl parsed port).toString := by
  obtain ⟨parsed, sockAddr, port, hres, hport⟩ := (errors_validateNode node).mp h
  have hnot : ∀ what, resolve R (withScheme node.url) ≠ .error (.runtime what) := by
    simp [hres]
  obtain ⟨parsed', hresolving, hmap⟩ := exists_resolving hnot
  rw [hres] at hmap
  cases hsocket : SocketAddress.ofString R (endpointText parsed'.host parsed'.port) with
  | error e => rw [hsocket] at hmap; cases hmap
  | ok sockAddr' =>
      rw [hsocket] at hmap
      obtain ⟨rfl, rfl⟩ := Prod.mk.inj (Except.ok.inj hmap)
      refine ⟨parsed, sockAddr, port, hresolving, hsocket, hport, ?_⟩
      rw [url_validateNode, hres]
      simp only [hport]

/-- The default URL is usable. -/
theorem usable_pgsqlUrl {url : Bytes} {node : Pgsql} (hurl : node.url = pgsqlUrl) {what : Bytes}
    (h : resolve R (withScheme url) = .error (.runtime what)) : Usable R url node := by
  have hparse : Url.parse pgsqlUrl =
      .ok ⟨str "postgresql", [], str "localhost", 5432, str "/postgres", [], []⟩ := by
    decide +kernel
  rw [← hurl] at hparse
  exact ⟨_, hparse, by decide, by decide, by decide, nodeConnection_of_parse hparse (by decide),
    fun _ _ hnot => absurd h (hnot what)⟩

/-- **Which nodes `db_start` can use.** -/
theorem usable_iff (node : Pgsql) :
    Usable R node.url (validateNode R node).1 ↔ Storable R node.url := by
  have hurl := url_validateNode (R := R) node
  unfold Storable
  cases hres : resolve R (withScheme node.url) with
  | error e =>
      rw [hres] at hurl
      cases e with
      | runtime what => exact iff_of_true (usable_pgsqlUrl hurl hres) trivial
      | dns what =>
          have hnot : ∀ what, resolve R (withScheme node.url) ≠ .error (.runtime what) := by
            simp [hres]
          obtain ⟨parsed, hresolving, -⟩ := exists_resolving hnot
          exact hresolving.usable_written hurl
  | ok out =>
      have hnot : ∀ what, resolve R (withScheme node.url) ≠ .error (.runtime what) := by
        simp [hres]
      obtain ⟨parsed, hresolving, hmap⟩ := exists_resolving hnot
      cases hsocket : SocketAddress.ofString R (endpointText parsed.host parsed.port) with
      | error e => rw [hres, hsocket] at hmap; cases hmap
      | ok sockAddr =>
          obtain ⟨port, hport⟩ := hresolving.exists_port hsocket
          rw [hmap, hsocket] at hurl
          simp only [Except.map, hport] at hurl
          exact hresolving.usable_printed hurl

/-- **Which validated database URLs are usable**: for the master and for each replica, `db_start` can
make a connection of the stored URL to the validated host exactly if the configured URL is storable.
Source: `config_s::validate`, `App::db_start` -/
theorem validated_usable_iff (dns : Nat → Resolver) (cfg : ConfigS) :
    (Usable (dns 0) cfg.pgsqlMaster.url (validate dns cfg).1.pgsqlMaster ↔
      Storable (dns 0) cfg.pgsqlMaster.url) ∧
    ∀ i node, cfg.pgsqlReplica[i]? = some node →
      ∃ node', (validate dns cfg).1.pgsqlReplica[i]? = some node' ∧
        (Usable (dns (i + 1)) node.url node' ↔ Storable (dns (i + 1)) node.url) := by
  constructor
  · rw [validate_master.1]
    exact usable_iff _
  · intro i node hreplica
    exact ⟨_, (validate_replica hreplica).1, usable_iff node⟩

/-- Both nodes of `aliceConfig` are usable, although the name of the replica is not resolved. -/
theorem validated_usable_alice :
    (Usable knowingResolver aliceUrl.text
        (validate (fun i => if i = 0 then knowingResolver else failingResolver)
          aliceConfig).1.pgsqlMaster ↔ Storable knowingResolver aliceUrl.text) ∧
      ∃ node', (validate (fun i => if i = 0 then knowingResolver else failingResolver)
        aliceConfig).1.pgsqlReplica[0]? = some node' ∧
          (Usable failingResolver aliceUrl.text node' ↔ Storable failingResolver aliceUrl.text) :=
  have h := validated_usable_iff (fun i => if i = 0 then knowingResolver else failingResolver)
    aliceConfig
  ⟨h.1, h.2 0 aliceUrl.node rfl⟩

/-- A configuration with an URL that names only a host. -/
def bareConfig : ConfigS := { aliceConfig with pgsqlMaster := ⟨str "postgresql://db.example", [], []⟩ }

/-- Without a name server the URL stays without a path, and `db_start` cannot take its database
name. -/
theorem validated_unusable :
    ¬∀ (dns : Nat → Resolver) (cfg : ConfigS),
      Usable (dns 0) cfg.pgsqlMaster.url (validate dns cfg).1.pgsqlMaster := by
  intro h
  obtain ⟨stored, hparse, -, -, hpath, -⟩ := h (fun _ => failingResolver) bareConfig
  have hread : Url.parse (validate (fun _ => failingResolver) bareConfig).1.pgsqlMaster.url =
      .ok ⟨str "postgresql", [], str "db.example", 0, [], [], []⟩ := by
    decide
  obtain rfl := Except.ok.inj (hread.symm.trans hparse)
  exact absurd hpath (by decide)

end SocialNetwork.Db
