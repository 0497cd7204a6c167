import SocialNetwork.Config.Credentials
import SocialNetwork.Db.DbStart
import SocialNetwork.Helpers.UrlReparse

/-!
# Database URLs from the configuration to `db_start`

A well-formed database URL goes through `validate`, which takes the credentials out, fills in the
port and prints it, and is parsed again by `db_start`. `DatabaseUrl` is the grammar, and
`DatabaseUrl.Honoured` says what has to come out at the other end.
-/

namespace SocialNetwork.Db

open Foundation Helpers Net Config

variable {R : Resolver}

/-! ## The grammar -/

/-- `postgresql://[login[:password]@]host[:port]/database`. -/
structure DatabaseUrl where
  login : Option Bytes
  password : Option Bytes
  host : Bytes
  port : Option UInt16
  database : Bytes
  login_of_password : password.isSome → login.isSome
  login_ne_nil : login ≠ some []
  password_ne_nil : password ≠ some []
  host_ne_nil : host ≠ []
  port_ne_zero : port ≠ some 0
  database_ne_nil : database ≠ []
  login_chars : ∀ l ∈ login, ∀ c ∈ l, c ∉ str ":@/?#%"
  password_chars : ∀ p ∈ password, ∀ c ∈ p, c ∉ str "@/?#%"
  host_head : host.head? ≠ some (chr '%')
  host_chars : ∀ c ∈ host, c ∉ str ":[@/?#"
  database_chars : ∀ c ∈ database, c ∉ str "/?#%"

namespace DatabaseUrl

variable (u : DatabaseUrl)

/-- `login[:password]`. -/
def userInfo : Bytes :=
  match u.login, u.password with
  | some login, some password => login ++ str ":" ++ password
  | some login, none => login
  | none, _ => []

/-- `[:port]`. -/
def portText : Bytes :=
  match u.port with
  | some port => str ":" ++ decimal port.toNat
  | none => []

/-- The text of the URL. -/
def text : Bytes :=
  str "postgresql://" ++ ((if u.login.isSome then u.userInfo ++ str "@" else []) ++
    (u.host ++ u.portText ++ chr '/' :: u.database))

/-- A node that is configured with the URL alone. -/
def node : Pgsql := ⟨u.text, [], []⟩

/-- The socket address of the URL is made: of the host in lower case, and of the port, where `0`
stands for an absent one. -/
def Resolves (R : Resolver) : Prop :=
  ∃ sa, SocketAddress.ofString R (endpointText (toLowercase u.host) (u.port.getD 0)) = .ok sa

/-- What the node and its errors have to be. -/
structure Honoured (node : Pgsql) (errors : List Bytes) : Prop where
  no_errors : errors = []
  login : node.login = u.login.getD (str "postgres")
  password : node.password = u.password.getD []
  reparsed : ∃ url, Url.parse node.url = .ok url ∧ url.host = toLowercase u.host ∧
    url.getPort = u.port.getD 5432 ∧ substr url.path 1 = .ok u.database ∧ url.userInfo = []
  no_userInfo : chr '@' ∉ Url.authorityOf node.url

/-! ## The parsed URL -/

/-- Without a login there is no password. -/
theorem login_eq : u.login = none → u.password = none := fun h => by
  cases hp : u.password with
  | none => rfl
  | some p => simpa [h, hp] using u.login_of_password

/-- The login and the password are read from the user info. -/
theorem splitUserInfo_userInfo :
    splitUserInfo u.userInfo = (u.login.getD [], u.password.getD []) := by
  have hcolon : ∀ l ∈ u.login, chr ':' ∉ l := fun l hl h => u.login_chars l hl _ h (by decide)
  unfold userInfo
  cases hl : u.login with
  | none => rw [u.login_eq hl]; rfl
  | some login =>
      cases u.password with
      | none => exact splitUserInfo_login (hcolon login hl)
      | some password => exact splitUserInfo_append (hcolon login hl) password

/-- The characters of the host that end or start no part of the URL. -/
theorem not_mem_host {c : UInt8} (hc : c ∈ str ":[@/?#") : c ∉ u.host := fun h => u.host_chars c h hc

/-- The host has no delimiters in lower case either. -/
theorem not_mem_lower_host {c : UInt8} (hc : c ∈ str ":[@/?#") : c ∉ toLowercase u.host := by
  have hall : ∀ x ∈ str ":[@/?#", x ∈ str "[]:@/?#%" :=
    forall_mem_of_all (by decide)
  exact fun h => u.not_mem_host hc (Url.mem_of_mem_toLowercase (hall c hc) h)

/-- The host is not empty in lower case either. -/
theorem lower_host_ne_nil : toLowercase u.host ≠ [] := by
  simpa [toLowercase] using u.host_ne_nil

/-- The first character of the host is neither a bracket nor a percent sign, in either case. -/
theorem host_heads :
    (u.host.head? ≠ some (chr '[') ∧ u.host.head? ≠ some (chr '%')) ∧
      (toLowercase u.host).head? ≠ some (chr '[') ∧ (toLowercase u.host).head? ≠ some (chr '%') := by
  refine ⟨⟨fun h => u.not_mem_host (by decide) (List.mem_of_head? h), u.host_head⟩,
    fun h => u.not_mem_lower_host (by decide) (List.mem_of_head? h), fun h => u.host_head ?_⟩
  cases hhost : u.host with
  | nil => exact absurd hhost u.host_ne_nil
  | cons c host =>
      rw [hhost] at h
      have hc : toLowercaseCh c = chr '%' := Option.some.inj h
      rw [Url.eq_of_toLowercaseCh_delimiter (by decide) hc]
      rfl

/-- The delimiters that the grammar excludes from each part. -/
theorem delimiter_mem {c : UInt8} (h : c ∈ str "@/?#") :
    c ∈ str ":[@/?#" ∧ c ∈ str ":@/?#%" ∧ c ∈ str "@/?#%" := by
  have hall : ∀ x ∈ str "@/?#", x ∈ str ":[@/?#" ∧ x ∈ str ":@/?#%" ∧ x ∈ str "@/?#%" :=
    forall_mem_of_all (by decide)
  exact hall c h

/-- The user info contains no delimiter of the authority. -/
theorem not_mem_userInfo : ∀ c ∈ u.userInfo, c ∉ str "@/?#" := by
  intro c hc h
  unfold userInfo at hc
  cases hl : u.login with
  | none => rw [hl] at hc; cases hc
  | some login =>
      have hlogin : c ∉ login := fun hm => u.login_chars login hl c hm (delimiter_mem h).2.1
      cases hp : u.password with
      | none => rw [hl, hp] at hc; exact hlogin hc
      | some password =>
          rw [hl, hp] at hc
          simp only [List.mem_append] at hc
          rcases hc with (hc | hc) | hc
          · exact hlogin hc
          · obtain rfl : c = chr ':' := by simpa [str] using hc
            exact absurd h (by decide)
          · exact u.password_chars password hp c hc (delimiter_mem h).2.2

/-- The URL as it is parsed. -/
def parsed : Url where
  scheme := str "postgresql"
  userInfo := u.userInfo
  host := toLowercase u.host
  port := u.port.getD 0
  path := chr '/' :: u.database
  query := []
  fragment := []

/-- The host and the port are written as `get_authority` prints them. -/
theorem hostText_portText :
    Url.hostText u.host ++ Url.portText (u.port.getD 0) = u.host ++ u.portText := by
  have hport : Url.portText (u.port.getD 0) = u.portText := by
    unfold portText
    cases hport : u.port with
    | none => rfl
    | some port => exact if_neg fun h0 : port = 0 => u.port_ne_zero (by rw [hport, h0])
  rw [Url.hostText, if_neg (u.not_mem_host (by decide)), hport]

/-- **The configured URL is parsed to its parts.** -/
theorem parse_text : Url.parse u.text = .ok u.parsed := by
  have hpart : ∀ c ∈ u.host ++ u.portText, c ∉ str "@/?#" := by
    rw [← hostText_portText]
    exact Url.hostText_portText_chars (fun c hc h => u.host_chars c hc (delimiter_mem h).1) _
  have hend : ∀ c, (chr '/' :: u.database).head? = some c → c ∈ str "/?#" := by
    intro c hc
    obtain rfl : chr '/' = c := Option.some.inj hc
    decide
  have hread : Url.parseHostAndPort (u.host ++ u.portText) =
      .ok (toLowercase u.host, u.port.getD 0) := by
    have hbracket : chr ':' ∈ u.host ∨ u.host.head? = some (chr '[') → chr ']' ∉ u.host :=
      fun h => h.elim (fun hcolon => absurd hcolon (u.not_mem_host (by decide)))
        fun hopen => absurd hopen u.host_heads.1.1
    rw [← hostText_portText, Url.parseHostAndPort_hostText hbracket,
      if_neg fun h => u.host_heads.1.1 h.1, Url.hostCase, if_neg u.host_head]
  have hchars : chr '?' ∉ chr '/' :: u.database ∧ chr '#' ∉ chr '/' :: u.database ∧
      chr '%' ∉ chr '/' :: u.database := by
    have hdb : ∀ c ∈ str "?#%", c ∉ chr '/' :: u.database := by
      intro c hc hmem
      have hall : ∀ x ∈ str "?#%", x ≠ chr '/' ∧ x ∈ str "/?#%" :=
        forall_mem_of_all (by decide)
      rcases List.mem_cons.mp hmem with heq | hmem
      · exact (hall c hc).1 heq
      · exact u.database_chars c hmem (hall c hc).2
    exact ⟨hdb _ (by decide), hdb _ (by decide), hdb _ (by decide)⟩
  rw [text, Url.parse_postgresql]
  cases hl : u.login with
  | none =>
      have huser : u.userInfo = [] := by rw [userInfo, hl]
      simp only [Option.isSome_none, Bool.false_eq_true, if_false, List.nil_append]
      rw [Url.parseAuthority_part hpart hend, hread]
      simp only [bind, Except.bind, pure, Except.pure,
        Url.parsePathQueryFragment_path ⟨hchars.1, hchars.2.1⟩, decode_plain hchars.2.2]
      rw [parsed, huser]
  | some login =>
      simp only [Option.isSome_some, if_true]
      rw [show u.userInfo ++ str "@" ++ (u.host ++ u.portText ++ chr '/' :: u.database) =
          u.userInfo ++ chr '@' :: (u.host ++ u.portText ++ chr '/' :: u.database) by simp [str],
        Url.parseAuthority_userInfo u.not_mem_userInfo hpart hend, hread]
      simp only [bind, Except.bind, pure, Except.pure,
        Url.parsePathQueryFragment_path ⟨hchars.1, hchars.2.1⟩, decode_plain hchars.2.2]
      rfl

/-! ## The stored URL -/

/-- The URL that `validate` stores: the port is filled in, the user info is gone. -/
def stored : Url where
  scheme := str "postgresql"
  userInfo := []
  host := toLowercase u.host
  port := u.port.getD 5432
  path := chr '/' :: u.database
  query := []
  fragment := []

/-- The stored port is not zero: an explicit one is not, nor is that of PostgreSQL. -/
theorem stored_port_ne_zero : u.stored.port ≠ 0 := by
  change u.port.getD 5432 ≠ 0
  cases hport : u.port with
  | none => decide
  | some port => exact fun h0 : port = 0 => u.port_ne_zero (by rw [hport, h0])

/-- The database is a segment of the path. -/
theorem segments_ne_nil : u.parsed.getPathSegments ≠ [] := by
  obtain ⟨c, hc⟩ := List.exists_mem_of_ne_nil _ u.database_ne_nil
  have hslash : c ≠ chr '/' := fun h => u.database_chars (chr '/') (h ▸ hc) (by decide)
  exact Url.segmentsLoop_ne_nil_of_mem (List.mem_cons_of_mem _ hc) hslash

/-- What validation stores of the parsed URL. -/
theorem storedUrl_parsed : storedUrl u.parsed (u.port.getD 0) = u.stored := by
  have hsegments := u.segments_ne_nil
  have hport : (if u.port.getD 0 = 0 then pgsqlPort else u.parsed.port) = u.port.getD 5432 := by
    cases hport : u.port with
    | none => rfl
    | some port =>
        have hne : port ≠ 0 := fun h0 => u.port_ne_zero (by rw [hport, h0])
        simp [parsed, hport, hne]
  rw [storedUrl, hport, if_neg hsegments]
  rfl

/-- The stored URL is printed as one that is read back. -/
theorem wellFormed_stored : u.stored.WellFormed where
  scheme_lower := show toLowercase (str "postgresql") = str "postgresql" by decide
  scheme_head := show (str "postgresql").head? ≠ some (chr '.') by decide
  scheme_chars := forall_mem_of_all (s := str "postgresql") (by decide)
  userInfo_chars := fun _ hc => by cases hc
  host_lower := by
    change (if (toLowercase u.host).head? = some (chr '%') then toLowercase u.host
      else toLowercase (toLowercase u.host)) = toLowercase u.host
    rw [if_neg u.host_heads.2.2, toLowercase_idem]
  host_chars := fun _ hc h => u.not_mem_lower_host (delimiter_mem h).1 hc
  host_bracket := fun h => h.elim (fun hcolon => absurd hcolon (u.not_mem_lower_host (by decide)))
    fun hopen => absurd hopen u.host_heads.2.1
  query_chars := List.not_mem_nil

/-- The stored URL has a scheme. -/
theorem stored_scheme_ne_nil : u.stored.scheme ≠ [] := List.cons_ne_nil _ _

/-- **The stored URL is parsed to what was stored.** -/
theorem parse_stored : Url.parse u.stored.toString = .ok u.stored := by
  have hport : u.stored.getPort = u.stored.port := if_pos u.stored_port_ne_zero
  have hauth : u.stored.getAuthority ≠ [] := fun h =>
    u.stored_port_ne_zero (hport.symm.trans (Url.getAuthority_eq_nil.mp h).2.2)
  have hne : u.stored.path ≠ [] := List.cons_ne_nil _ _
  have hpath : u.stored.printedPath = u.stored.path := by
    rw [Url.printedPath, if_neg u.stored_scheme_ne_nil, if_neg hne, if_neg fun h => h.2 rfl]
  have hparse := Url.parse_authority u.wellFormed_stored u.stored_scheme_ne_nil hauth
  rw [if_neg fun h => u.host_heads.2.1 h.1, hport, hpath] at hparse
  exact hparse

/-! ## From the configuration to `db_start` -/

/-- **A well-formed database URL is honoured** if its host is resolved. -/
theorem honoured (h : u.Resolves R) :
    u.Honoured (validateNode R u.node).1 (validateNode R u.node).2 := by
  obtain ⟨sa, hsa⟩ := h
  have hport : sa.port = .ok (u.port.getD 0) :=
    SocketAddress.port_ofString u.lower_host_ne_nil
      ⟨u.host_heads.2.1, fun h => u.not_mem_lower_host (by decide) (List.mem_of_head? h)⟩
      (u.not_mem_lower_host (by decide)) hsa
  have hcheck : checkNode R u.node = .ok (repack u.node (completeUrl u.parsed (u.port.getD 0))) :=
    checkNode_ok u.parsed u.parse_text rfl hsa hport
  have huser : (completeUrl u.parsed (u.port.getD 0)).userInfo = u.userInfo := by
    rw [completeUrl_eq]
    rfl
  have hrepack : repack u.node (completeUrl u.parsed (u.port.getD 0)) =
      ⟨u.stored.toString, u.login.getD (str "postgres"), u.password.getD []⟩ := by
    have hlogin : (if u.login.getD [] ≠ [] then u.login.getD [] else pgsqlLogin) =
        u.login.getD (str "postgres") := by
      cases hl : u.login with
      | none => rfl
      | some login =>
          have hne : login ≠ [] := fun hnil => u.login_ne_nil (by rw [hl, hnil])
          simp [hne]
    have hpassword : (if u.password.getD [] ≠ [] then u.password.getD [] else pgsqlPassword) =
        u.password.getD [] := by
      split
      · rfl
      · rename_i hnil
        exact (not_not.mp hnil).symm
    simp only [repack, huser, splitUserInfo_userInfo, setUserInfo_completeUrl, storedUrl_parsed]
    simp only [node, if_true, hlogin, hpassword]
  rw [hrepack] at hcheck
  have hne : u.login.getD (str "postgres") ≠ [] := by
    cases hl : u.login with
    | none => decide
    | some login => exact fun hnil : login = [] => u.login_ne_nil (by rw [hl, hnil])
  have hvalid : validateNode R u.node =
      (⟨u.stored.toString, u.login.getD (str "postgres"), u.password.getD []⟩, []) :=
    validateNode_ok (withScheme_postgresql _) hcheck hne
  rw [hvalid]
  refine ⟨rfl, rfl, rfl, ⟨u.stored, u.parse_stored, rfl, ?_, ?_, rfl⟩, fun hat => ?_⟩
  · rw [Url.getPort, if_pos u.stored_port_ne_zero]
    rfl
  · rw [substr, if_neg (by simp [stored])]
    rfl
  · rw [← storedUrl_parsed] at hat
    rcases mem_authorityOf_storedUrl rfl hat with hhost | hbracket | hdigit
    · exact u.not_mem_lower_host (by decide) hhost
    · exact absurd hbracket (by decide)
    · exact absurd hdigit (by decide)

end DatabaseUrl

/-- **The database URL grammar is honoured end to end**, for the master and for each replica: a node
that is configured with a well-formed URL whose host is resolved is validated without an error, has
the login and the password of the URL or the defaults, and its stored URL is parsed by `db_start` to
the host in lower case, the port and the database name, without user info.

Source: `config_s::validate`, `App::db_start`. -/
theorem database_url_honoured (dns : Nat → Resolver) (cfg : ConfigS) (u : DatabaseUrl) :
    (cfg.pgsqlMaster = u.node → u.Resolves (dns 0) →
      ∃ errors, (validateReports dns cfg).2[0]? = some errors ∧
        u.Honoured (validate dns cfg).1.pgsqlMaster errors) ∧
    ∀ i, cfg.pgsqlReplica[i]? = some u.node → u.Resolves (dns (i + 1)) →
      ∃ node errors, (validate dns cfg).1.pgsqlReplica[i]? = some node ∧
        (validateReports dns cfg).2[i + 1]? = some errors ∧ u.Honoured node errors := by
  constructor
  · intro hmaster hres
    rw [validate_master.1, hmaster]
    refine ⟨_, validate_master.2, ?_⟩
    rw [hmaster]
    exact u.honoured hres
  · intro i hreplica hres
    exact ⟨_, _, (validate_replica hreplica).1, (validate_replica hreplica).2, u.honoured hres⟩

/-- `postgresql://bob:s:cret@DB.example/a@b`. -/
def bobUrl : DatabaseUrl where
  login := some (str "bob")
  password := some (str "s:cret")
  host := str "DB.example"
  port := none
  database := str "a@b"
  login_of_password := by decide
  login_ne_nil := by decide
  password_ne_nil := by decide
  host_ne_nil := by decide
  port_ne_zero := by decide
  database_ne_nil := by decide
  login_chars := by decide +kernel
  password_chars := by decide +kernel
  host_head := by decide
  host_chars := forall_mem_of_all (by decide)
  database_chars := forall_mem_of_all (by decide)

/-- A configuration whose master and first replica are given by `bobUrl`. -/
def bobConfig : ConfigS := { aliceConfig with pgsqlMaster := bobUrl.node, pgsqlReplica := [bobUrl.node] }

/-- The host of the sample URL is resolved. -/
theorem bobUrl_resolves : bobUrl.Resolves knowingResolver :=
  ⟨.ipv4 ⟨0, ⟨1, 0, 0, 10⟩⟩, by decide⟩

/-- Both nodes of `bobConfig`. -/
theorem database_url_honoured_bob :
    (∃ errors, (validateReports (fun _ => knowingResolver) bobConfig).2[0]? = some errors ∧
      bobUrl.Honoured (validate (fun _ => knowingResolver) bobConfig).1.pgsqlMaster errors) ∧
    ∃ node errors, (validate (fun _ => knowingResolver) bobConfig).1.pgsqlReplica[0]? = some node ∧
      (validateReports (fun _ => knowingResolver) bobConfig).2[1]? = some errors ∧
      bobUrl.Honoured node errors :=
  have h := database_url_honoured (fun _ => knowingResolver) bobConfig bobUrl
  ⟨h.1 rfl bobUrl_resolves, h.2 0 rfl bobUrl_resolves⟩

end SocialNetwork.Db
