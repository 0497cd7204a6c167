import SocialNetwork.Config.Layers
import SocialNetwork.Foundation.Conninfo
import SocialNetwork.Foundation.Exceptions

/-!
# `App::db_start`

The model of the part of `app.cpp` that turns the configured nodes into the connection strings and
tags of the pool, and what libpq makes of such a string. The values are written without quotes, so
a connection string means what was configured exactly if each of them is a plain value; the default
password, which is empty, is not.
-/

namespace SocialNetwork.Db

open Foundation Helpers Config

/-! ## The model -/

/-- `std::string::substr` of one argument; the exception is `std::out_of_range`. -/
def substr (s : Bytes) (pos : Nat) : Except Bytes Bytes :=
  if s.length < pos then .error (str "basic_string::substr") else .ok (s.drop pos)

/-- The `conn_str` of `db_start`. -/
def connStr (login password host : Bytes) (port : UInt16) (dbname : Bytes) : Bytes :=
  str "user=" ++ login ++ str " password=" ++ password ++ str " host=" ++ host ++ str " port=" ++
    decimal port.toNat ++ str " dbname=" ++ dbname ++
    str " connect_timeout=60 application_name=social_network"

/-- What `db_start` makes of a node: its connection string and its tag. -/
def nodeConnection (node : Pgsql) : Except Bytes (Bytes × Bytes) := do
  let url ← Url.parse node.url
  let tag := url.host ++ str ":" ++ decimal url.getPort.toNat
  let dbname ← substr url.path 1
  return (connStr node.login node.password url.host url.getPort dbname, tag)

/-- The arguments of the `ConnectionPool` that `db_start` creates: the masters, the replicas and the
size; an exception is logged, and there is no pool. -/
def dbStart (cfg : ConfigS) : Except Bytes (List (Bytes × Bytes) × List (Bytes × Bytes) × Int) := do
  let master ← nodeConnection cfg.pgsqlMaster
  let replicas ← cfg.pgsqlReplica.mapM nodeConnection
  return ([master], replicas, cfg.httpThreadsCount)

/-- The connection string of a node has its credentials, and the rest comes from its URL. -/
theorem nodeConnection_ok {node : Pgsql} {conn : Bytes × Bytes} (h : nodeConnection node = .ok conn) :
    ∃ url dbname, Url.parse node.url = .ok url ∧ substr url.path 1 = .ok dbname ∧
      conn = (connStr node.login node.password url.host url.getPort dbname,
        url.host ++ str ":" ++ decimal url.getPort.toNat) := by
  simp only [nodeConnection, bind_eq_ok, pure_eq_ok] at h
  obtain ⟨url, hurl, dbname, hdb, hconn⟩ := h
  exact ⟨url, dbname, hurl, hdb, hconn.symm⟩

/-- `db_start` makes a connection of an URL with a path. -/
theorem nodeConnection_of_parse {node : Pgsql} {url : Url} (hparse : Url.parse node.url = .ok url)
    (hpath : 1 ≤ url.path.length) : nodeConnection node =
      .ok (connStr node.login node.password url.host url.getPort (url.path.drop 1),
        url.host ++ str ":" ++ decimal url.getPort.toNat) := by
  have hsubstr : substr url.path 1 = .ok (url.path.drop 1) := if_neg (by omega)
  simp only [nodeConnection, hparse, bind, Except.bind, hsubstr, pure, Except.pure]

/-- **The connections of the pool are those of the configured nodes**, the master first and the
replicas in their order. -/
theorem dbStart_ok {cfg : ConfigS} {masters replicas : List (Bytes × Bytes)} {n : Int}
    (h : dbStart cfg = .ok (masters, replicas, n)) :
    List.Forall₂ (fun node conn => nodeConnection node = .ok conn)
      (cfg.pgsqlMaster :: cfg.pgsqlReplica) (masters ++ replicas) ∧ n = cfg.httpThreadsCount := by
  simp only [dbStart, bind_eq_ok, mapM_eq_ok, pure_eq_ok] at h
  obtain ⟨master, hmaster, replicas, hreplicas, h⟩ := h
  cases h
  exact ⟨.cons hmaster hreplicas, rfl⟩

/-! ## What libpq reads -/

/-- The settings that a node is meant to be connected with. -/
def configured (login password host : Bytes) (port : UInt16) (dbname : Bytes) :
    List (Bytes × Bytes) :=
  [(str "user", login), (str "password", password), (str "host", host),
   (str "port", decimal port.toNat), (str "dbname", dbname), (str "connect_timeout", str "60"),
   (str "application_name", str "social_network")]

/-- The fixed end of a connection string. -/
theorem settings_tail (fuel : Nat) :
    settings (fuel + 2) (str "connect_timeout=60 application_name=social_network") =
      some [(str "connect_timeout", str "60"), (str "application_name", str "social_network")] := by
  have htimeout : str "connect_timeout=60 application_name=social_network" =
      str "connect_timeout" ++ chr '=' :: (str "60" ++ chr ' ' ::
        (str "application_name" ++ chr '=' :: str "social_network")) := rfl
  rw [htimeout, settings_eq_cons_iff ⟨by decide, forall_mem_of_all (by decide)⟩ (by rfl)]
  refine ⟨⟨by decide, forall_mem_of_all (by decide), by decide⟩, ?_⟩
  rw [settings_append ⟨by decide, forall_mem_of_all (by decide)⟩,
    value_plain_end ⟨by decide, forall_mem_of_all (by decide), by decide⟩, Option.bind_some]
  cases fuel <;> rfl

/-- A port is a plain value. -/
theorem plainValue_decimal (n : Nat) : PlainValue (decimal n) := by
  have hdigit : ∀ c ∈ decimal n, isBreaking c = false ∧ c ≠ chr '\'' := fun c hc =>
    forall_digit (p := fun c => isBreaking c = false ∧ c ≠ chr '\'') (by decide)
      (isDigit_of_mem_decimal hc)
  refine ⟨decimal_ne_nil n, fun c hc => (hdigit c hc).1, fun hhead => ?_⟩
  exact (hdigit _ (List.mem_of_head? hhead)).2 rfl

/-- The settings of a connection string, read one after another. -/
theorem settings_connStr {login password host dbname : Bytes} {port : UInt16} (fuel : Nat) :
    settings (fuel + 7) (connStr login password host port dbname) =
        some (configured login password host port dbname) ↔
      PlainValue login ∧ PlainValue password ∧ PlainValue host ∧ PlainValue dbname := by
  have htext : connStr login password host port dbname =
      str "user" ++ chr '=' :: (login ++ chr ' ' ::
        (str "password" ++ chr '=' :: (password ++ chr ' ' ::
          (str "host" ++ chr '=' :: (host ++ chr ' ' ::
            (str "port" ++ chr '=' :: (decimal port.toNat ++ chr ' ' ::
              (str "dbname" ++ chr '=' :: (dbname ++ chr ' ' ::
                str "connect_timeout=60 application_name=social_network"))))))))) := by
    simp [connStr, str]
  rw [htext, configured]
  rw [settings_eq_cons_iff ⟨by decide, forall_mem_of_all (by decide)⟩ (by rfl),
    settings_eq_cons_iff ⟨by decide, forall_mem_of_all (by decide)⟩ (by rfl),
    settings_eq_cons_iff ⟨by decide, forall_mem_of_all (by decide)⟩ (by rfl),
    settings_eq_cons_iff ⟨by decide, forall_mem_of_all (by decide)⟩ (by rfl),
    settings_eq_cons_iff ⟨by decide, forall_mem_of_all (by decide)⟩ (by rfl)]
  simp only [settings_tail, plainValue_decimal, true_and, and_true]

/-- **When a connection string means what was configured.** It gives exactly the seven settings,
with the configured values, if and only if login, password, host and database name are plain:
not empty, without white space and backslashes, and not starting with a single quote.

Source: `App::db_start`. -/
theorem connStr_settings_iff {login password host dbname : Bytes} (port : UInt16)
    (hlogin : 0 ∉ login) (hpassword : 0 ∉ password) (hhost : 0 ∉ host) (hdbname : 0 ∉ dbname) :
    conninfo (cStr (connStr login password host port dbname)) =
        some (configured login password host port dbname) ↔
      PlainValue login ∧ PlainValue password ∧ PlainValue host ∧ PlainValue dbname := by
  have hdecimal : (0 : UInt8) ∉ decimal port.toNat := fun h =>
    absurd (isDigit_of_mem_decimal h) (by decide)
  have hnul : (0 : UInt8) ∉ connStr login password host port dbname := by
    simp only [connStr, List.mem_append, hlogin, hpassword, hhost, hdbname, hdecimal, or_false]
    decide
  obtain ⟨fuel, hfuel⟩ : ∃ fuel, (connStr login password host port dbname).length = fuel + 7 := by
    refine ⟨(connStr login password host port dbname).length - 7, ?_⟩
    have hlen : (str "user=" ++ login ++ str " password=").length ≤
        (connStr login password host port dbname).length := by
      simp only [connStr, List.append_assoc, List.length_append]
      omega
    simp only [List.length_append, show (str " password=").length = 10 from rfl] at hlen
    omega
  rw [cStr_eq_self hnul, conninfo, hfuel, settings_connStr]

/-- The connection string of an ordinary node. -/
theorem connStr_settings_ordinary :
    conninfo (cStr (connStr (str "alice") (str "secret") (str "db.example") 5432 (str "app"))) =
        some (configured (str "alice") (str "secret") (str "db.example") 5432 (str "app")) ↔
      PlainValue (str "alice") ∧ PlainValue (str "secret") ∧ PlainValue (str "db.example") ∧
        PlainValue (str "app") :=
  connStr_settings_iff 5432 (by decide) (by decide) (by decide) (by decide)

/-- With the default credentials the password swallows the host. -/
theorem connStr_default_password :
    conninfo (cStr (connStr pgsqlLogin pgsqlPassword (str "localhost") pgsqlPort pgsqlDatabase)) =
        some [(str "user", str "postgres"), (str "password", str "host=localhost"),
          (str "port", str "5432"), (str "dbname", str "postgres"),
          (str "connect_timeout", str "60"), (str "application_name", str "social_network")] ∧
      conninfo (cStr (connStr pgsqlLogin pgsqlPassword (str "localhost") pgsqlPort pgsqlDatabase)) ≠
        some (configured pgsqlLogin pgsqlPassword (str "localhost") pgsqlPort pgsqlDatabase) := by
  have hread : conninfo (cStr (connStr pgsqlLogin pgsqlPassword (str "localhost") pgsqlPort
      pgsqlDatabase)) = some [(str "user", str "postgres"), (str "password", str "host=localhost"),
        (str "port", str "5432"), (str "dbname", str "postgres"),
        (str "connect_timeout", str "60"), (str "application_name", str "social_network")] := by
    decide +kernel
  refine ⟨hread, fun h => ?_⟩
  rw [hread] at h
  exact absurd h (by decide)

/-! ## What the service is started with -/

/-- The node that is made of a configured URL. -/
def urlNode (R : Net.Resolver) (url : Bytes) : Pgsql := (validateNode R ⟨url, [], []⟩).1

/-- A configured number, or its default if there is none in the range. -/
def inRange (min max dflt : Int) (val : Option Int) : Int :=
  (val.filter fun n => min ≤ n ∧ n ≤ max).getD dflt

/-- The pool that a layer asks for: a connection for the URL of the master, or for the default, and one
for each replica, in their order; and as many of each as there are threads. -/
structure Started (dns : Nat → Net.Resolver) (layer : Layer) (masters replicas : List (Bytes × Bytes))
    (size : Int) : Prop where
  master : ∃ conn, masters = [conn] ∧
    nodeConnection (urlNode (dns 0) (layer.masterUrl.getD pgsqlUrl)) = .ok conn
  replicas : List.Forall₂ (fun node conn => nodeConnection node = .ok conn)
    (layer.replicaUrls.mapIdx fun i url => urlNode (dns (i + 1)) url) replicas
  size : size = inRange 1 10 1 layer.httpThreadsCount

/-- Checking a number that was configured, or else its default. -/
theorem validateRange_getD (key : Bytes) {min max dflt : Int} (h : min ≤ dflt ∧ dflt ≤ max)
    (val : Option Int) :
    (validateRange key min max dflt (val.getD dflt)).1 = inRange min max dflt val := by
  unfold validateRange inRange
  cases val with
  | none =>
      have hnot : ¬(dflt < min ∨ max < dflt) := by omega
      simp [hnot]
  | some n =>
      by_cases hn : min ≤ n ∧ n ≤ max
      · have hnot : ¬(n < min ∨ max < n) := by omega
        simp [Option.filter, hn, hnot]
      · have hor : n < min ∨ max < n := by omega
        simp [Option.filter, hn, hor]

/-- What `validate` leaves of a layer over the defaults. -/
theorem validate_layer (dns : Nat → Net.Resolver) (layer : Layer) :
    let cfg := (validate dns (layer • ConfigS.init)).1
    cfg.pgsqlMaster = urlNode (dns 0) (layer.masterUrl.getD pgsqlUrl) ∧
      cfg.pgsqlReplica = layer.replicaUrls.mapIdx (fun i url => urlNode (dns (i + 1)) url) ∧
      cfg.httpThreadsCount = inRange 1 10 1 layer.httpThreadsCount ∧
      cfg.httpQueueCapacity = inRange 1 4096 1024 layer.httpQueueCapacity := by
  refine ⟨rfl, ?_, validateRange_getD _ (by decide) _, validateRange_getD _ (by decide) _⟩
  simp only [validate, validateReports, Layer.smul_def, ConfigS.init, List.nil_append]
  apply List.ext_getElem?
  intro i
  simp [urlNode, Function.comp_def]

/-- **What the service is started with.** The pool is created exactly as the layer of the command line
over that of the environment asks for: the option has the last word about the URL of the master and
about the threads, and the replicas of the environment come before those of the command line. A number
that is out of its range is replaced by its default.
Source: `Configuration::apply_`, `App::db_start` -/
theorem service_configured (dns : Nat → Net.Resolver) (env : Environment) (cli : ParseResult)
    (masters replicas : List (Bytes × Bytes)) (size : Int) :
    let layer := Layer.ofOptions cli * Layer.ofEnvironment env
    (dbStart (apply dns env cli).1 = .ok (masters, replicas, size) ↔
        Started dns layer masters replicas size) ∧
      (apply dns env cli).1.httpThreadsCount = inRange 1 10 1 layer.httpThreadsCount ∧
      (apply dns env cli).1.httpQueueCapacity = inRange 1 4096 1024 layer.httpQueueCapacity := by
  intro layer
  obtain ⟨hmaster, hreplicas, hthreads, hqueue⟩ := validate_layer dns layer
  rw [apply_eq]
  refine ⟨?_, hthreads, hqueue⟩
  rw [dbStart, hmaster, hreplicas, hthreads]
  simp only [bind_eq_ok, mapM_eq_ok, pure_eq_ok]
  constructor
  · rintro ⟨conn, hconn, conns, hconns, h⟩
    cases h
    exact ⟨⟨conn, rfl, hconn⟩, hconns, rfl⟩
  · rintro ⟨⟨conn, rfl, hconn⟩, hconns, rfl⟩
    exact ⟨conn, hconn, replicas, hconns, rfl⟩

end SocialNetwork.Db
