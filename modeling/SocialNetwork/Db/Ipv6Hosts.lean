import SocialNetwork.Db.UsableUrls
import SocialNetwork.Net.BareHosts

/-!
# IPv6 hosts of database URLs

`Url` takes the brackets off an IPv6 host, and `validate` joins host and port with a colon and hands
the text to `SocketAddress`, which wants the brackets. So the host is cut at its first colon: the first
group is taken for a host name and the rest for a service. The URL survives exactly if both happen to
be resolved (`ReadsAsName`).
-/

namespace SocialNetwork.Db

open Foundation Helpers Net Config

variable {R : Resolver}

/-- `postgresql://[host]:port/database`, with an IPv6 literal for the host. -/
structure Ipv6Url where
  host : Bytes
  port : UInt16
  database : Bytes
  host_accepted : (IpAddress.tryParse host).isSome
  host_chars : ∀ c ∈ host, c = chr ':' ∨ (hexDigitValue c).isSome
  port_ne_zero : port ≠ 0
  database_ne_nil : database ≠ []
  database_chars : ∀ c ∈ database, c ∉ str "/?#%"

namespace Ipv6Url

variable (u : Ipv6Url)

/-- The text of the URL. -/
def text : Bytes :=
  str "postgresql://" ++ (str "[" ++ u.host ++ str "]" ++ (str ":" ++ decimal u.port.toNat) ++
    chr '/' :: u.database)

/-- The node is validated without an error, and its URL is read back with the host in lower case, the
port and the path. -/
def Survives (node : Pgsql) (errors : List Bytes) : Prop :=
  errors = [] ∧ ∃ url, Url.parse node.url = .ok url ∧ url.host = toLowercase u.host ∧
    url.port = u.port ∧ url.path = chr '/' :: u.database

/-- The first group of the host is resolved as the name of a host, and the other groups, with the
port, as the name of a service: to a port that is not zero unless the default port is meant. -/
def ReadsAsName (R : Resolver) : Prop :=
  ∃ port, ReadsAsNames R (toLowercase u.host) u.port port ∧ (port = 0 → u.port = pgsqlPort)

/-! ## The literal -/

/-- The only delimiter in the host is the colon. -/
theorem not_mem_host {c : UInt8} (hc : c ∈ str "[]@/?#%.") : c ∉ u.host := by
  have hall : ∀ x ∈ str "[]@/?#%.", x ≠ chr ':' ∧ hexDigitValue x = none :=
    forall_mem_of_all (by decide)
  intro hmem
  rcases u.host_chars c hmem with hcolon | hdigit
  · exact (hall c hc).1 hcolon
  · rw [(hall c hc).2] at hdigit
    cases hdigit

/-- Without a dot, the literal has a colon. -/
theorem colon_mem_host : chr ':' ∈ u.host := by
  by_contra hcolon
  have haccepted := u.host_accepted
  rw [IpAddress.tryParse_noSeparator (u.not_mem_host (by decide)) hcolon] at haccepted
  cases haccepted

theorem mem_lower_host {c : UInt8} (hc : c ∈ str "[]:@/?#%") :
    c ∈ toLowercase u.host ↔ c ∈ u.host := Url.mem_toLowercase hc

/-- The host in lower case is cut at its first colon. -/
theorem bareHost : BareHost (toLowercase u.host) where
  colon := (u.mem_lower_host (by decide)).mpr u.colon_mem_host
  bracket := fun h =>
    u.not_mem_host (by decide) ((u.mem_lower_host (by decide)).mp (List.mem_of_head? h))
  slash := fun h =>
    u.not_mem_host (by decide) ((u.mem_lower_host (by decide)).mp (List.mem_of_head? h))
  dot := fun h => by
    obtain ⟨c, hc, heq⟩ := List.mem_map.mp ((List.takeWhile_prefix _).subset h)
    obtain rfl := eq_of_toLowercaseCh (by decide) heq
    exact u.not_mem_host (by decide) hc

/-! ## The validated node -/

/-- The URL as it is parsed. -/
def parsed : Url where
  scheme := str "postgresql"
  userInfo := []
  host := toLowercase u.host
  port := u.port
  path := chr '/' :: u.database
  query := []
  fragment := []

theorem parse_text : Url.parse u.text = .ok u.parsed := by
  have hdelimiters : ∀ x ∈ str "@/?#", x ∈ str "[]@/?#%." := forall_mem_of_all (by decide)
  have hhost : ∀ c ∈ u.host, c ∉ str "@/?#" := fun c hc hmem =>
    u.not_mem_host (hdelimiters c hmem) hc
  have hpart : Url.hostText u.host ++ Url.portText u.port =
      str "[" ++ u.host ++ str "]" ++ (str ":" ++ decimal u.port.toNat) := by
    rw [Url.hostText, if_pos u.colon_mem_host, Url.portText, if_neg u.port_ne_zero]
  have hchars := Url.hostText_portText_chars hhost u.port
  have hend : ∀ c, (chr '/' :: u.database).head? = some c → c ∈ str "/?#" := by
    intro c hc
    obtain rfl : chr '/' = c := Option.some.inj hc
    decide
  have hread := Url.parseHostAndPort_hostText (fun _ => u.not_mem_host (by decide)) u.port
  have hpercent : u.host.head? ≠ some (chr '%') := fun h =>
    u.not_mem_host (by decide) (List.mem_of_head? h)
  rw [if_neg fun h => h.2 u.colon_mem_host, Url.hostCase, if_neg hpercent] at hread
  have hpath : ∀ c ∈ str "?#%", c ∉ chr '/' :: u.database := by
    have hall : ∀ x ∈ str "?#%", x ≠ chr '/' ∧ x ∈ str "/?#%" := forall_mem_of_all (by decide)
    intro c hc hmem
    rcases List.mem_cons.mp hmem with heq | hmem
    · exact (hall c hc).1 heq
    · exact u.database_chars c hmem (hall c hc).2
  rw [text, Url.parse_postgresql, ← hpart, Url.parseAuthority_part hchars hend, hread]
  simp only [bind, Except.bind, pure, Except.pure,
    Url.parsePathQueryFragment_path ⟨hpath _ (by decide), hpath _ (by decide)⟩,
    decode_plain (hpath _ (by decide))]
  rfl

/-- The database is a segment of the path. -/
theorem segments_ne_nil : u.parsed.getPathSegments ≠ [] := by
  obtain ⟨c, hc⟩ := List.exists_mem_of_ne_nil _ u.database_ne_nil
  have hslash : c ≠ chr '/' := fun h => u.database_chars (chr '/') (h ▸ hc) (by decide)
  exact Url.segmentsLoop_ne_nil_of_mem (List.mem_cons_of_mem _ hc) hslash

/-- The stored URL is read back with the host and the path; the port is the default one if that of
the socket address is zero. -/
theorem parse_stored (port : UInt16) : ∃ url, Url.parse (storedUrl u.parsed port).toString = .ok url ∧
    url.host = toLowercase u.host ∧ url.port = (if port = 0 then pgsqlPort else u.port) ∧
    url.path = chr '/' :: u.database := by
  have hopen : u.parsed.host.head? = some (chr '[') → chr ':' ∈ u.parsed.host :=
    fun _ => (u.mem_lower_host (by decide)).mpr u.colon_mem_host
  have hparse := parse_storedUrl_eq (Url.wellFormed_of_parse u.parse_text) rfl hopen port
  have hport : (storedUrl u.parsed port).getPort = if port = 0 then pgsqlPort else u.port := by
    have hne : (storedUrl u.parsed port).port ≠ 0 := by
      change (if port = 0 then pgsqlPort else u.port) ≠ 0
      split
      · decide
      · exact u.port_ne_zero
    rw [Url.getPort, if_pos hne]
    rfl
  refine ⟨_, hparse, rfl, hport, ?_⟩
  dsimp only
  rw [printedPath_storedUrl rfl (.inr rfl), if_neg u.segments_ne_nil]
  rfl

/-- The resolution of the URL is that of its host and port. -/
theorem resolve_text : resolve R (withScheme u.text) =
    (SocketAddress.ofString R (endpointText (toLowercase u.host) u.port)).map (u.parsed, ·) := by
  have hscheme : withScheme u.text = u.text := withScheme_postgresql _
  rw [hscheme, resolve, u.parse_text]
  rfl

/-- **The URL survives exactly if its groups are resolved as names.** -/
theorem survives_iff {node : Pgsql} (h : node.url = u.text) :
    u.Survives (validateNode R node).1 (validateNode R node).2 ↔ u.ReadsAsName R := by
  have hresolve := u.resolve_text (R := R)
  rw [← h] at hresolve
  constructor
  · rintro ⟨herrors, url, hparse, -, hport, -⟩
    obtain ⟨parsed, sockAddr, port, hres, hsocketPort⟩ := (errors_validateNode node).mp herrors
    have hurl := url_validateNode (R := R) node
    rw [hres] at hurl
    simp only [hsocketPort] at hurl
    rw [hresolve] at hres
    cases hsocket : SocketAddress.ofString R (endpointText (toLowercase u.host) u.port) with
    | error e => rw [hsocket] at hres; cases hres
    | ok sockAddr' =>
        rw [hsocket] at hres
        obtain ⟨rfl, rfl⟩ := Prod.mk.inj (Except.ok.inj hres)
        refine ⟨port, u.bareHost.ofString_ok_iff.mp ⟨_, hsocket, hsocketPort⟩, fun hzero => ?_⟩
        obtain ⟨url', hparse', -, hport', -⟩ := u.parse_stored port
        rw [hurl, hparse'] at hparse
        obtain rfl := Except.ok.inj hparse
        rw [hport, if_pos hzero] at hport'
        exact hport'
  · rintro ⟨port, hnames, hzero⟩
    obtain ⟨sockAddr, hsocket, hsocketPort⟩ := u.bareHost.ofString_ok_iff.mpr hnames
    have hres : resolve R (withScheme node.url) = .ok (u.parsed, sockAddr) := by
      rw [hresolve, endpointText, hsocket]
      rfl
    have hurl := url_validateNode (R := R) node
    rw [hres] at hurl
    simp only [hsocketPort] at hurl
    obtain ⟨url, hparse, hhost, hport, hpath⟩ := u.parse_stored port
    refine ⟨(errors_validateNode node).mpr ⟨_, _, _, hres, hsocketPort⟩, url, ?_, hhost, ?_, hpath⟩
    · rw [hurl]
      exact hparse
    · rw [hport]
      split
      · rename_i h0
        exact (hzero h0).symm
      · rfl

end Ipv6Url

/-- **Which database URLs with an IPv6 host survive the validation**: for the master and for each
replica, those whose first group is resolved as a host name and whose other groups, with the port, are
resolved as a service.
Source: `config_s::validate`, `Url::parse_host_and_port`, `SocketAddress::split_to_host_and_port` -/
theorem ipv6_host_survives_iff (dns : Nat → Resolver) (cfg : ConfigS) (u : Ipv6Url) :
    (cfg.pgsqlMaster.url = u.text → ∃ errors, (validateReports dns cfg).2[0]? = some errors ∧
      (u.Survives (validate dns cfg).1.pgsqlMaster errors ↔ u.ReadsAsName (dns 0))) ∧
    ∀ i node, cfg.pgsqlReplica[i]? = some node → node.url = u.text →
      ∃ node' errors, (validate dns cfg).1.pgsqlReplica[i]? = some node' ∧
        (validateReports dns cfg).2[i + 1]? = some errors ∧
        (u.Survives node' errors ↔ u.ReadsAsName (dns (i + 1))) := by
  constructor
  · intro hurl
    refine ⟨_, validate_master.2, ?_⟩
    rw [validate_master.1]
    exact u.survives_iff hurl
  · intro i node hreplica hurl
    exact ⟨_, _, (validate_replica hreplica).1, (validate_replica hreplica).2, u.survives_iff hurl⟩

/-- `postgresql://[::1]:5432/app`. -/
def localIpv6Url : Ipv6Url where
  host := str "::1"
  port := 5432
  database := str "app"
  host_accepted := by decide
  host_chars := forall_mem_of_all (by decide)
  port_ne_zero := by decide
  database_ne_nil := by decide
  database_chars := forall_mem_of_all (by decide)

/-- A configuration whose nodes are given by `localIpv6Url`. -/
def ipv6Config : ConfigS :=
  { aliceConfig with
    pgsqlMaster := ⟨localIpv6Url.text, [], []⟩, pgsqlReplica := [⟨localIpv6Url.text, [], []⟩] }

theorem ipv6_host_survives_local :
    (∃ errors, (validateReports (fun _ => knowingResolver) ipv6Config).2[0]? = some errors ∧
      (localIpv6Url.Survives (validate (fun _ => knowingResolver) ipv6Config).1.pgsqlMaster errors ↔
        localIpv6Url.ReadsAsName knowingResolver)) ∧
    ∃ node' errors, (validate (fun _ => knowingResolver) ipv6Config).1.pgsqlReplica[0]? = some node' ∧
      (validateReports (fun _ => knowingResolver) ipv6Config).2[0 + 1]? = some errors ∧
      (localIpv6Url.Survives node' errors ↔ localIpv6Url.ReadsAsName knowingResolver) := by
  obtain ⟨hmaster, hreplica⟩ :=
    ipv6_host_survives_iff (fun _ => knowingResolver) ipv6Config localIpv6Url
  exact ⟨hmaster rfl, hreplica 0 ⟨localIpv6Url.text, [], []⟩ rfl rfl⟩

/-- The URL of `::1` is reported, and replaced by the default. -/
theorem not_survives_local :
    (validate (fun _ => knowingResolver) ipv6Config).1.pgsqlMaster.url = pgsqlUrl ∧
      ∀ errors, (validateReports (fun _ => knowingResolver) ipv6Config).2[0]? = some errors →
        errors ≠ [] ∧
        ¬localIpv6Url.Survives (validate (fun _ => knowingResolver) ipv6Config).1.pgsqlMaster errors := by
  have hnot : ¬localIpv6Url.ReadsAsName knowingResolver := by
    rintro ⟨_, hnames, _⟩
    exact absurd hnames.1 (by decide)
  have hresolve : resolve knowingResolver (withScheme localIpv6Url.text) =
      .error (.runtime (str "missing host and/or port number")) := by
    rw [localIpv6Url.resolve_text, endpointText, localIpv6Url.bareHost.ofString, if_pos (by decide)]
    rfl
  have hurl : (validateNode knowingResolver ipv6Config.pgsqlMaster).1.url = pgsqlUrl := by
    rw [url_validateNode, show ipv6Config.pgsqlMaster.url = localIpv6Url.text from rfl, hresolve]
  refine ⟨hurl, fun errors herrors => ?_⟩
  rw [validate_master.2] at herrors
  obtain rfl := Option.some.inj herrors
  refine ⟨fun hnil => ?_, fun h => hnot ((localIpv6Url.survives_iff rfl).mp h)⟩
  obtain ⟨_, _, _, hres, -⟩ := (errors_validateNode _).mp hnil
  rw [show ipv6Config.pgsqlMaster.url = localIpv6Url.text from rfl, hresolve] at hres
  cases hres

end SocialNetwork.Db
