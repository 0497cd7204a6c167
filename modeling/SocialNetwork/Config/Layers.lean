import SocialNetwork.Config.Configuration
import SocialNetwork.Helpers.Numbers
import Mathlib.Algebra.Group.Action.Defs

/-!
# Where a configuration comes from

The model of `Configuration::apply_`: the defaults, then the environment, then the command line, each
variable and each option in a block of its own, and at the end `validate`. `ParseResult` is what
`apply_` asks of the parsed command line.

Over it stands what the blocks are for. A `Layer` says for some parameters what they are to be. Layers
form a monoid, in which the left factor has the last word, except that the replicas of both are taken,
those of the right factor first; and they act on configurations. Each block acts as a layer, so that
`apply_` validates what the layer of the command line over that of the environment makes of the
defaults (`apply_eq`).
-/

namespace SocialNetwork.Config

open Foundation Helpers Net

/-! ## The blocks -/

/-- `config_s::clear`, which is all that `config_s::init` does. -/
def ConfigS.init : ConfigS where
  pgsqlMaster := ⟨pgsqlUrl, [], []⟩
  pgsqlReplica := []
  httpListening := httpListeningDefault
  httpThreadsCount := 1
  httpQueueCapacity := 1024
  prometheusListening := prometheusListeningDefault
  prometheusPort := prometheusPortDefault.toNat

namespace ConfigS

variable (cfg : ConfigS)

/-- `pgsql_master.url = val`. -/
def setMasterUrl (val : Bytes) : ConfigS :=
  { cfg with pgsqlMaster := { cfg.pgsqlMaster with url := val } }

/-- `pgsql_replica.push_back({})` and `pgsql_replica.back().url = val`. -/
def addReplica (val : Bytes) : ConfigS :=
  { cfg with pgsqlReplica := cfg.pgsqlReplica ++ [⟨val, [], []⟩] }

/-- `http_listening = val`. -/
def setHttpListening (val : Bytes) : ConfigS := { cfg with httpListening := val }

/-- `http_queue_capacity = val`. -/
def setHttpQueueCapacity (val : Int) : ConfigS := { cfg with httpQueueCapacity := val }

/-- `http_threads_count = val`. -/
def setHttpThreadsCount (val : Int) : ConfigS := { cfg with httpThreadsCount := val }

/-- `prometheus_port = val`. -/
def setPrometheusPort (val : Int) : ConfigS := { cfg with prometheusPort := val }

end ConfigS

/-- The environment, as `EnvironmentHelpers::has` and `EnvironmentHelpers::get` show it. -/
abbrev Environment := Bytes → Option Bytes

/-- `cxxopts::ParseResult`: how often an option was given, and its value as a text, as a list of texts
and as a number; `none` is an exception. -/
structure ParseResult where
  count : Bytes → Nat
  asString : Bytes → Option Bytes
  asStrings : Bytes → Option (List Bytes)
  asInt : Bytes → Option Int

/-- The block of a variable with a text. -/
def fromVariable (env : Environment) (key : Bytes) (write : ConfigS → Bytes → ConfigS)
    (cfg : ConfigS) : ConfigS :=
  match env key with
  | some val => write cfg (trim val)
  | none => cfg

/-- The block of a variable with a number; other texts are ignored. -/
def fromNumber (env : Environment) (key : Bytes) (write : ConfigS → Int → ConfigS)
    (cfg : ConfigS) : ConfigS :=
  match env key with
  | some val =>
      match tryParseInt (trim val) with
      | some val => write cfg val
      | none => cfg
  | none => cfg

/-- The block of an option: a `try` block, after which everything is ignored that was thrown. -/
def fromOption {α : Type} (cli : ParseResult) (as : Bytes → Option α) (key : Bytes)
    (write : ConfigS → α → ConfigS) (cfg : ConfigS) : ConfigS :=
  if cli.count key = 0 then cfg
  else
    match as key with
    | some val => write cfg val
    | none => cfg

/-- The part of `apply_` about the environment. -/
def readEnvironment (env : Environment) (cfg : ConfigS) : ConfigS :=
  let cfg := fromVariable env (str "PGSQL_MASTER_URL") ConfigS.setMasterUrl cfg
  let cfg := fromVariable env (str "PGSQL_REPLICA_1_URL") ConfigS.addReplica cfg
  let cfg := fromVariable env (str "PGSQL_REPLICA_2_URL") ConfigS.addReplica cfg
  let cfg := fromVariable env (str "PGSQL_REPLICA_3_URL") ConfigS.addReplica cfg
  let cfg := fromVariable env (str "PGSQL_REPLICA_4_URL") ConfigS.addReplica cfg
  let cfg := fromVariable env (str "PGSQL_REPLICA_5_URL") ConfigS.addReplica cfg
  let cfg := fromVariable env (str "HTTP_LISTENING") ConfigS.setHttpListening cfg
  let cfg := fromNumber env (str "HTTP_QUEUE_CAPACITY") ConfigS.setHttpQueueCapacity cfg
  let cfg := fromNumber env (str "HTTP_THREADS_COUNT") ConfigS.setHttpThreadsCount cfg
  fromNumber env (str "PROMETHEUS_PORT") ConfigS.setPrometheusPort cfg

/-- The part of `apply_` about the command line. -/
def readOptions (cli : ParseResult) (cfg : ConfigS) : ConfigS :=
  let cfg := fromOption cli cli.asString (str "pgsql_master_url") ConfigS.setMasterUrl cfg
  let cfg := fromOption cli cli.asStrings (str "pgsql_replica_url")
    (fun cfg val => val.foldl ConfigS.addReplica cfg) cfg
  let cfg := fromOption cli cli.asString (str "http_listening") ConfigS.setHttpListening cfg
  let cfg := fromOption cli cli.asInt (str "http_queue") ConfigS.setHttpQueueCapacity cfg
  let cfg := fromOption cli cli.asInt (str "http_threads") ConfigS.setHttpThreadsCount cfg
  fromOption cli cli.asInt (str "prometheus_port") ConfigS.setPrometheusPort cfg

/-- `Configuration::apply_`: the configuration, and the errors that are logged. -/
def apply (dns : Nat → Resolver) (env : Environment) (cli : ParseResult) : ConfigS × List Bytes :=
  validate dns (readOptions cli (readEnvironment env .init))

/-! ## Layers -/

/-- What some parameters are to be, and the replicas to add. -/
@[ext]
structure Layer where
  masterUrl : Option Bytes
  replicaUrls : List Bytes
  httpListening : Option Bytes
  httpQueueCapacity : Option Int
  httpThreadsCount : Option Int
  prometheusPort : Option Int

namespace Layer

/-- One layer over another. -/
instance : Mul Layer where
  mul l l' :=
    { masterUrl := l.masterUrl.or l'.masterUrl
      replicaUrls := l'.replicaUrls ++ l.replicaUrls
      httpListening := l.httpListening.or l'.httpListening
      httpQueueCapacity := l.httpQueueCapacity.or l'.httpQueueCapacity
      httpThreadsCount := l.httpThreadsCount.or l'.httpThreadsCount
      prometheusPort := l.prometheusPort.or l'.prometheusPort }

/-- The layer that says nothing. -/
instance : One Layer where
  one := ⟨none, [], none, none, none, none⟩

/-- One layer over another: its settings, or else those below, and the replicas of both. -/
theorem mul_def (l l' : Layer) : l * l' =
    { masterUrl := l.masterUrl.or l'.masterUrl
      replicaUrls := l'.replicaUrls ++ l.replicaUrls
      httpListening := l.httpListening.or l'.httpListening
      httpQueueCapacity := l.httpQueueCapacity.or l'.httpQueueCapacity
      httpThreadsCount := l.httpThreadsCount.or l'.httpThreadsCount
      prometheusPort := l.prometheusPort.or l'.prometheusPort } := rfl

/-- The layer that sets nothing. -/
theorem one_def : (1 : Layer) = ⟨none, [], none, none, none, none⟩ := rfl

instance : Monoid Layer where
  mul_assoc l l' l'' := by simp only [mul_def, Option.or_assoc, List.append_assoc]
  one_mul l := by simp only [mul_def, one_def, Option.none_or, List.append_nil]
  mul_one l := by simp only [mul_def, one_def, Option.or_none, List.nil_append]

/-- A configuration under a layer. -/
instance : SMul Layer ConfigS where
  smul l cfg :=
    { cfg with
      pgsqlMaster := { cfg.pgsqlMaster with url := l.masterUrl.getD cfg.pgsqlMaster.url }
      pgsqlReplica := cfg.pgsqlReplica ++ l.replicaUrls.map fun url => ⟨url, [], []⟩
      httpListening := l.httpListening.getD cfg.httpListening
      httpQueueCapacity := l.httpQueueCapacity.getD cfg.httpQueueCapacity
      httpThreadsCount := l.httpThreadsCount.getD cfg.httpThreadsCount
      prometheusPort := l.prometheusPort.getD cfg.prometheusPort }

/-- A layer over a configuration: its settings, or else the configured ones, and its replicas behind
those. -/
theorem smul_def (l : Layer) (cfg : ConfigS) : l • cfg =
    { cfg with
      pgsqlMaster := { cfg.pgsqlMaster with url := l.masterUrl.getD cfg.pgsqlMaster.url }
      pgsqlReplica := cfg.pgsqlReplica ++ l.replicaUrls.map fun url => ⟨url, [], []⟩
      httpListening := l.httpListening.getD cfg.httpListening
      httpQueueCapacity := l.httpQueueCapacity.getD cfg.httpQueueCapacity
      httpThreadsCount := l.httpThreadsCount.getD cfg.httpThreadsCount
      prometheusPort := l.prometheusPort.getD cfg.prometheusPort } := rfl

instance : MulAction Layer ConfigS where
  one_smul cfg := by simp [smul_def, one_def]
  mul_smul l l' cfg := by simp [smul_def, mul_def]

/-! ### The layers of the blocks -/

/-- The layer that gives `pgsql_master.url` a value, or says nothing; the others likewise. -/
def ofMasterUrl (val : Option Bytes) : Layer := { (1 : Layer) with masterUrl := val }

def ofReplicaUrl (val : Option Bytes) : Layer := { (1 : Layer) with replicaUrls := val.toList }

def ofReplicaUrls (val : Option (List Bytes)) : Layer :=
  { (1 : Layer) with replicaUrls := val.getD [] }

def ofHttpListening (val : Option Bytes) : Layer := { (1 : Layer) with httpListening := val }

def ofHttpQueueCapacity (val : Option Int) : Layer := { (1 : Layer) with httpQueueCapacity := val }

def ofHttpThreadsCount (val : Option Int) : Layer := { (1 : Layer) with httpThreadsCount := val }

def ofPrometheusPort (val : Option Int) : Layer := { (1 : Layer) with prometheusPort := val }

/-- The layer of the environment: the variables that are set, with the numbers that are parsed. -/
def ofEnvironment (env : Environment) : Layer where
  masterUrl := (env (str "PGSQL_MASTER_URL")).map trim
  replicaUrls :=
    [str "PGSQL_REPLICA_1_URL", str "PGSQL_REPLICA_2_URL", str "PGSQL_REPLICA_3_URL",
      str "PGSQL_REPLICA_4_URL", str "PGSQL_REPLICA_5_URL"].filterMap fun key => (env key).map trim
  httpListening := (env (str "HTTP_LISTENING")).map trim
  httpQueueCapacity := (env (str "HTTP_QUEUE_CAPACITY")).bind fun val => tryParseInt (trim val)
  httpThreadsCount := (env (str "HTTP_THREADS_COUNT")).bind fun val => tryParseInt (trim val)
  prometheusPort := (env (str "PROMETHEUS_PORT")).bind fun val => tryParseInt (trim val)

end Layer

/-- The value of an option that was given and can be read. -/
def ParseResult.given {α : Type} (cli : ParseResult) (as : Bytes → Option α) (key : Bytes) :
    Option α :=
  if cli.count key = 0 then none else as key

/-- The layer of the command line. -/
def Layer.ofOptions (cli : ParseResult) : Layer where
  masterUrl := cli.given cli.asString (str "pgsql_master_url")
  replicaUrls := (cli.given cli.asStrings (str "pgsql_replica_url")).getD []
  httpListening := cli.given cli.asString (str "http_listening")
  httpQueueCapacity := cli.given cli.asInt (str "http_queue")
  httpThreadsCount := cli.given cli.asInt (str "http_threads")
  prometheusPort := cli.given cli.asInt (str "prometheus_port")

/-! ## Each block is a layer -/

/-- To write a value is to put a layer over the configuration. -/
structure Writes {α : Type} (write : ConfigS → α → ConfigS) (layer : Option α → Layer) : Prop where
  some : ∀ cfg val, write cfg val = layer (some val) • cfg
  none : layer none = 1

section blocks

variable {α : Type} {env : Environment} {cli : ParseResult} {key : Bytes} {cfg : ConfigS}

/-- A text variable is a layer. -/
theorem fromVariable_eq {write : ConfigS → Bytes → ConfigS} {layer : Option Bytes → Layer}
    (h : Writes write layer) :
    fromVariable env key write cfg = layer ((env key).map trim) • cfg := by
  unfold fromVariable
  cases env key with
  | none => rw [Option.map_none, h.none, one_smul]
  | some val => exact h.some cfg (trim val)

/-- A variable with a number is a layer; what is no number sets nothing. -/
theorem fromNumber_eq {write : ConfigS → Int → ConfigS} {layer : Option Int → Layer}
    (h : Writes write layer) : fromNumber env key write cfg =
      layer ((env key).bind fun val => tryParseInt (trim val)) • cfg := by
  unfold fromNumber
  cases env key with
  | none => rw [Option.bind_none, h.none, one_smul]
  | some text =>
      dsimp only
      rw [Option.bind_some]
      cases tryParseInt (trim text) with
      | none => rw [h.none, one_smul]
      | some val => exact h.some cfg val

/-- An option of the command line is a layer. -/
theorem fromOption_eq {as : Bytes → Option α} {write : ConfigS → α → ConfigS}
    {layer : Option α → Layer} (h : Writes write layer) :
    fromOption cli as key write cfg = layer (cli.given as key) • cfg := by
  unfold fromOption ParseResult.given
  by_cases hcount : cli.count key = 0
  · rw [if_pos hcount, if_pos hcount, h.none, one_smul]
  · rw [if_neg hcount, if_neg hcount]
    cases as key with
    | none => rw [h.none, one_smul]
    | some val => exact h.some cfg val

/-- The URL of the master is written by its layer. -/
theorem writes_masterUrl : Writes ConfigS.setMasterUrl Layer.ofMasterUrl :=
  ⟨fun cfg val => by
    simp [ConfigS.setMasterUrl, Layer.ofMasterUrl, Layer.smul_def, Layer.one_def], rfl⟩

/-- The URL of a replica is added by its layer. -/
theorem writes_replicaUrl : Writes ConfigS.addReplica Layer.ofReplicaUrl :=
  ⟨fun cfg val => by
    simp [ConfigS.addReplica, Layer.ofReplicaUrl, Layer.smul_def, Layer.one_def], rfl⟩

/-- The URLs of several replicas are added by their layer. -/
theorem writes_replicaUrls :
    Writes (fun cfg val => val.foldl ConfigS.addReplica cfg) Layer.ofReplicaUrls := by
  refine ⟨fun cfg val => ?_, rfl⟩
  induction val generalizing cfg with
  | nil => simp [Layer.ofReplicaUrls, Layer.smul_def, Layer.one_def]
  | cons url val ih =>
      rw [List.foldl_cons, ih]
      simp [ConfigS.addReplica, Layer.ofReplicaUrls, Layer.smul_def, Layer.one_def]

/-- The HTTP address is written by its layer. -/
theorem writes_httpListening : Writes ConfigS.setHttpListening Layer.ofHttpListening :=
  ⟨fun cfg val => by
    simp [ConfigS.setHttpListening, Layer.ofHttpListening, Layer.smul_def, Layer.one_def], rfl⟩

/-- The capacity of the queue is written by its layer. -/
theorem writes_httpQueueCapacity : Writes ConfigS.setHttpQueueCapacity Layer.ofHttpQueueCapacity :=
  ⟨fun cfg val => by
    simp [ConfigS.setHttpQueueCapacity, Layer.ofHttpQueueCapacity, Layer.smul_def, Layer.one_def], rfl⟩

/-- The number of threads is written by its layer. -/
theorem writes_httpThreadsCount : Writes ConfigS.setHttpThreadsCount Layer.ofHttpThreadsCount :=
  ⟨fun cfg val => by
    simp [ConfigS.setHttpThreadsCount, Layer.ofHttpThreadsCount, Layer.smul_def, Layer.one_def], rfl⟩

/-- The Prometheus port is written by its layer. -/
theorem writes_prometheusPort : Writes ConfigS.setPrometheusPort Layer.ofPrometheusPort :=
  ⟨fun cfg val => by
    simp [ConfigS.setPrometheusPort, Layer.ofPrometheusPort, Layer.smul_def, Layer.one_def], rfl⟩

end blocks

/-- **The environment is a layer.** -/
theorem readEnvironment_eq (env : Environment) (cfg : ConfigS) :
    readEnvironment env cfg = Layer.ofEnvironment env • cfg := by
  unfold readEnvironment
  dsimp only
  rw [fromVariable_eq writes_masterUrl, fromVariable_eq writes_replicaUrl,
    fromVariable_eq writes_replicaUrl, fromVariable_eq writes_replicaUrl,
    fromVariable_eq writes_replicaUrl, fromVariable_eq writes_replicaUrl,
    fromVariable_eq writes_httpListening, fromNumber_eq writes_httpQueueCapacity,
    fromNumber_eq writes_httpThreadsCount, fromNumber_eq writes_prometheusPort]
  simp only [← mul_smul]
  congr 1
  ext1
  all_goals simp [Layer.mul_def, Layer.one_def, Layer.ofMasterUrl, Layer.ofReplicaUrl,
    Layer.ofHttpListening, Layer.ofHttpQueueCapacity, Layer.ofHttpThreadsCount,
    Layer.ofPrometheusPort, Layer.ofEnvironment, List.filterMap_eq_flatMap_toList]

/-- **The command line is a layer.** -/
theorem readOptions_eq (cli : ParseResult) (cfg : ConfigS) :
    readOptions cli cfg = Layer.ofOptions cli • cfg := by
  unfold readOptions
  dsimp only
  rw [fromOption_eq writes_masterUrl, fromOption_eq writes_replicaUrls,
    fromOption_eq writes_httpListening, fromOption_eq writes_httpQueueCapacity,
    fromOption_eq writes_httpThreadsCount, fromOption_eq writes_prometheusPort]
  simp only [← mul_smul]
  congr 1
  ext1
  all_goals simp [Layer.mul_def, Layer.one_def, Layer.ofMasterUrl, Layer.ofReplicaUrls,
    Layer.ofHttpListening, Layer.ofHttpQueueCapacity, Layer.ofHttpThreadsCount,
    Layer.ofPrometheusPort, Layer.ofOptions]

/-- **`apply_` validates what the command line over the environment makes of the defaults.** -/
theorem apply_eq (dns : Nat → Resolver) (env : Environment) (cli : ParseResult) :
    apply dns env cli =
      validate dns ((Layer.ofOptions cli * Layer.ofEnvironment env) • ConfigS.init) := by
  rw [apply, readEnvironment_eq, readOptions_eq, mul_smul]

end SocialNetwork.Config
