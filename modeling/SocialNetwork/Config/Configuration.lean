import SocialNetwork.Helpers.Url
import SocialNetwork.Net.SocketAddress

/-!
# `config_s`

The model of `configuration/configuration_data.cpp`: the defaults and `config_s::validate`. The
sections that check the master and each replica are two copies of one text and are one definition
here. The names of a configuration are resolved one after another, so `validate` takes a resolver
for each of them: `dns 0` answers for the master, `dns (i + 1)` for the replica `i`, and the next
two for the listening addresses. `logging_config` is not looked at and is left out.
-/

namespace SocialNetwork.Config

open Foundation Helpers Net

/-! ## Defaults -/

/-- `config_def::pgsql_url`. -/
def pgsqlUrl : Bytes := str "postgresql://localhost:5432/postgres"

/-- `config_def::pgsql_database`. -/
def pgsqlDatabase : Bytes := str "postgres"

/-- `config_def::pgsql_login`. -/
def pgsqlLogin : Bytes := str "postgres"

/-- `config_def::pgsql_password`. -/
def pgsqlPassword : Bytes := []

/-- `config_def::pgsql_port`. -/
def pgsqlPort : UInt16 := 5432

/-- `config_def::http_listening`. -/
def httpListeningDefault : Bytes := str "0.0.0.0:6000"

/-- `config_def::http_port`. -/
def httpPort : UInt16 := 6000

/-- `config_def::prometheus_listening`. -/
def prometheusListeningDefault : Bytes := str "0.0.0.0:6001"

/-- `config_def::prometheus_host`. -/
def prometheusHost : Bytes := str "0.0.0.0"

/-- `config_def::prometheus_port`. -/
def prometheusPortDefault : UInt16 := 6001

/-- `config_s::pgsql_s`. -/
structure Pgsql where
  url : Bytes
  login : Bytes
  password : Bytes
  deriving DecidableEq, Repr

/-- `config_s`. -/
structure ConfigS where
  pgsqlMaster : Pgsql
  pgsqlReplica : List Pgsql
  httpListening : Bytes
  httpThreadsCount : Int
  httpQueueCapacity : Int
  prometheusListening : Bytes
  prometheusPort : Int
  deriving DecidableEq, Repr

/-- `std::format` of an `int`. -/
def intText (n : Int) : Bytes := (if n < 0 then str "-" else []) ++ decimal n.natAbs

/-- The text of an entry of `errors`. -/
def validationError (key value what : Bytes) : Bytes :=
  str "validation error '" ++ key ++ str "=" ++ value ++ str "': " ++ what

/-! ## Database nodes -/

/-- The `login:password` of an URL, split at the first colon. -/
def splitUserInfo (userinfo : Bytes) : Bytes × Bytes :=
  match userinfo.span (· ≠ chr ':') with
  | (login, _ :: password) => (login, password)
  | (login, []) => (login, [])

/-- `login:password` is split where it was joined. -/
theorem splitUserInfo_append {login : Bytes} (h : chr ':' ∉ login) (password : Bytes) :
    splitUserInfo (login ++ str ":" ++ password) = (login, password) := by
  have hspan : (login ++ chr ':' :: password).span (· ≠ chr ':') = (login, chr ':' :: password) :=
    span_append_cons (fun c hc => by simpa using fun heq : c = chr ':' => h (heq ▸ hc)) (by decide)
  rw [show login ++ str ":" ++ password = login ++ chr ':' :: password by simp [str],
    splitUserInfo, hspan]

/-- A login without a password. -/
theorem splitUserInfo_login {login : Bytes} (h : chr ':' ∉ login) :
    splitUserInfo login = (login, []) := by
  have hspan : login.span (· ≠ chr ':') = (login, []) :=
    span_eq_self fun c hc => by simpa using fun heq : c = chr ':' => h (heq ▸ hc)
  rw [splitUserInfo, hspan]

/-- The endpoint with a scheme. -/
def withScheme (url : Bytes) : Bytes :=
  if str "://" <:+: url then url else str "postgresql://" ++ url

/-- The URL with a port, with a path and without a fragment; `port` is that of the resolved
address. -/
def completeUrl (url : Url) (port : UInt16) : Url :=
  let url := if port = 0 then url.setPort pgsqlPort else url
  let url := url.setFragment []
  if url.getPathSegments = [] then url.setPath pgsqlDatabase else url

/-- The end of the `try` block: the credentials of the URL fill what is empty, and the URL is
printed without them. -/
def repack (node : Pgsql) (url : Url) : Pgsql :=
  let (login, password) := splitUserInfo url.userInfo
  { url := (url.setUserInfo []).toString
    login := if node.login = [] then if login ≠ [] then login else pgsqlLogin else node.login
    password :=
      if node.password = [] then if password ≠ [] then password else pgsqlPassword
      else node.password }

/-- The `try` block of a node, whose URL has a scheme. Every exception is thrown before the node
is written. -/
def checkNode (R : Resolver) (node : Pgsql) : Except SocketError Pgsql := do
  let url ← (Url.parse node.url).mapError .runtime
  if url.scheme ≠ [] ∧ url.scheme ≠ str "postgresql" then
    throw (.runtime (str "scheme should be 'postgresql'"))
  let sockAddr ← SocketAddress.ofString R (url.host ++ str ":" ++ decimal url.port.toNat)
  let port ← sockAddr.port
  return repack node (completeUrl url port)

/-- The section of `validate` about a node: the node, and what is pushed to `errors`. -/
def validateNode (R : Resolver) (node : Pgsql) : Pgsql × List Bytes :=
  let node := { node with url := withScheme node.url }
  let (node, errors) := match checkNode R node with
    | .ok node => (node, [])
    | .error (.dns what) => (node, [validationError (str "pgsql.endpoint") node.url what])
    | .error (.runtime what) =>
        ({ node with url := pgsqlUrl }, [validationError (str "pgsql.endpoint") node.url what])
  let node := { node with login := if node.login = [] then pgsqlLogin else node.login }
  let node := { node with password := if node.password = [] then pgsqlPassword else node.password }
  (node, errors)

/-! ## The other sections -/

/-- A section about a listening address: its text if the port is zero, and its default. -/
def validateListening (key dflt : Bytes) (onZero : SocketAddress → Except SocketError Bytes)
    (R : Resolver) (listening : Bytes) : Bytes × List Bytes :=
  let checked : Except SocketError Bytes := do
    let sockAddr ← SocketAddress.ofString R listening
    let port ← sockAddr.port
    if port = 0 then onZero sockAddr else return listening
  match checked with
  | .ok listening => (listening, [])
  | .error (.dns what) => (listening, [validationError key listening what])
  | .error (.runtime what) => (dflt, [validationError key listening what])

/-- The section about `http_listening`. -/
def validateHttpListening : Resolver → Bytes → Bytes × List Bytes :=
  validateListening (str "http.listening") httpListeningDefault fun sockAddr => do
    let host ← sockAddr.host
    return host.toString ++ str ":" ++ decimal httpPort.toNat

/-- The section about `prometheus_listening`, which is made from the port. -/
def validatePrometheusListening (R : Resolver) (port : Int) : Bytes × List Bytes :=
  validateListening (str "prometheus.listening") prometheusListeningDefault
    (fun _ => .ok (prometheusHost ++ str ":" ++ decimal prometheusPortDefault.toNat)) R
    (prometheusHost ++ str ":" ++ intText port)

/-- A section about a number with its range and default. -/
def validateRange (key : Bytes) (min max dflt v : Int) : Int × List Bytes :=
  if v < min ∨ max < v then
    (dflt, [validationError key (intText v) (str "should be in range [" ++ intText min ++
      str ".." ++ intText max ++ str "]")])
  else (v, [])

/-- The section about `http_threads_count`. -/
def validateThreadsCount : Int → Int × List Bytes := validateRange (str "http.threads_count") 1 10 1

/-- The section about `http_queue_capacity`. -/
def validateQueueCapacity : Int → Int × List Bytes :=
  validateRange (str "http.queue_capacity") 1 4096 1024

/-! ## `validate` -/

/-- `config_s::validate`: the configuration, and what each section pushes to `errors`. -/
def validateReports (dns : Nat → Resolver) (cfg : ConfigS) : ConfigS × List (List Bytes) :=
  let master := validateNode (dns 0) cfg.pgsqlMaster
  let replicas := cfg.pgsqlReplica.mapIdx fun i node => validateNode (dns (i + 1)) node
  let n := cfg.pgsqlReplica.length
  let httpListening := validateHttpListening (dns (n + 1)) cfg.httpListening
  let threadsCount := validateThreadsCount cfg.httpThreadsCount
  let queueCapacity := validateQueueCapacity cfg.httpQueueCapacity
  let prometheus := validatePrometheusListening (dns (n + 2)) cfg.prometheusPort
  ({ pgsqlMaster := master.1
     pgsqlReplica := replicas.map Prod.fst
     httpListening := httpListening.1
     httpThreadsCount := threadsCount.1
     httpQueueCapacity := queueCapacity.1
     prometheusListening := prometheus.1
     prometheusPort := cfg.prometheusPort },
   master.2 :: replicas.map Prod.snd ++
     [httpListening.2, threadsCount.2, queueCapacity.2, prometheus.2])

/-- `config_s::validate` with its result, the list `errors`. -/
def validate (dns : Nat → Resolver) (cfg : ConfigS) : ConfigS × List Bytes :=
  ((validateReports dns cfg).1, (validateReports dns cfg).2.flatten)

variable {dns : Nat → Resolver} {cfg : ConfigS}

/-- What `validate` makes of the master, and reports about it. -/
theorem validate_master :
    (validate dns cfg).1.pgsqlMaster = (validateNode (dns 0) cfg.pgsqlMaster).1 ∧
      (validateReports dns cfg).2[0]? = some (validateNode (dns 0) cfg.pgsqlMaster).2 :=
  ⟨rfl, rfl⟩

/-- What `validate` makes of a replica, and reports about it. -/
theorem validate_replica {i : Nat} {node : Pgsql} (h : cfg.pgsqlReplica[i]? = some node) :
    (validate dns cfg).1.pgsqlReplica[i]? = some (validateNode (dns (i + 1)) node).1 ∧
      (validateReports dns cfg).2[i + 1]? = some (validateNode (dns (i + 1)) node).2 := by
  have hlt : i < cfg.pgsqlReplica.length := (List.getElem?_eq_some_iff.mp h).1
  constructor
  · simp [validate, validateReports, h]
  · simp only [validateReports, List.cons_append, List.getElem?_cons_succ]
    rw [List.getElem?_append_left (by simpa using hlt)]
    simp [h]

end SocialNetwork.Config
