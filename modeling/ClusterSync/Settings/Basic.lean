import ClusterSync.Decimal.Unsigned
import ClusterSync.Text.Blank
import ClusterSync.Text.Duration
import ClusterSync.Text.Quoted

/-!
# Settings

What can be set from outside: the controllers to run, how they work, the datastore they write to
and how the program logs. Every setting has a default; the environment may change it, and the
command line may change some of them again. A value that cannot be read leaves the default.
-/

namespace ClusterSync

open Decimal Text

/-- The environment: what each variable is set to. A value that is not text counts as not set. -/
abbrev Environment := String → Option String

inductive StoreKind
  | etcd | memory
  deriving DecidableEq, Repr

namespace StoreKind

def label : StoreKind → String
  | .etcd => "etcd"
  | .memory => "memory"

/-- Reads the name of a kind of datastore, with blanks around it and in any case. -/
def ofString (text : String) : Except String StoreKind :=
  match lower (trim text) with
  | "etcd" => .ok .etcd
  | "memory" => .ok .memory
  | other => .error s!"unknown store backend '{other}'"

end StoreKind

structure Settings where
  logLevel : String
  logFormat : String
  controllers : String
  nodeWorkers : Nat
  policyWorkers : Nat
  maxRetries : Nat
  backoffStartMillis : Nat
  backoffMaxMillis : Nat
  syncTimeoutSecs : Nat
  store : StoreKind
  etcdEndpoints : List String
  etcdDialTimeoutMillis : Nat
  deriving DecidableEq, Repr

/-- What the command line asks for. -/
structure Overrides where
  verbose : Bool := false
  controllers : Option String := none
  etcdEndpoints : Option String := none
  store : Option StoreKind := none
  deriving DecidableEq, Repr

/-- How the program serves its metrics and readiness. -/
structure ServerSettings where
  metricsPort : Nat
  startupTimeoutSecs : Nat
  pollIntervalMillis : Nat
  deriving DecidableEq, Repr

namespace Settings

/-- A number from the environment, which may have blanks around it, or its default. -/
def number (env : Environment) (bound : Nat) (name : String) (fallback : Nat) : Nat :=
  ((env name).bind fun text => unsigned? bound (trim text)).getD fallback

def defaultEndpoints : String := "http://127.0.0.1:52379"

/-- The settings that an environment makes. -/
def ofEnvironment (env : Environment) : Settings where
  logLevel := (env "LOG_LEVEL").getD "INFO"
  logFormat := (env "LOG_FORMAT").getD "json"
  controllers := (env "CONTROLLERS").getD "node"
  nodeWorkers := number env word64 "NODE_WORKERS" 1
  policyWorkers := number env word64 "UNP_WORKERS" 1
  maxRetries := number env word32 "MAX_RETRIES" 5
  backoffStartMillis := number env word64 "BACKOFF_START_MS" 5
  backoffMaxMillis := number env word64 "BACKOFF_MAX_MS" 1000000
  syncTimeoutSecs := number env word64 "CACHE_SYNC_TIMEOUT_SECS" 60
  store :=
    match (env "STORE_BACKEND").map StoreKind.ofString with
    | some (.ok kind) => kind
    | _ => .etcd
  etcdEndpoints :=
    commaList (((env "ETCD_ENDPOINTS").or (env "ETCDCTL_ENDPOINTS")).getD defaultEndpoints)
  etcdDialTimeoutMillis := number env word64 "ETCD_DIAL_TIMEOUT_MS" 1000

/-- The settings of an empty environment. -/
def default : Settings := ofEnvironment fun _ => none

/-- The settings with what the command line asks for. -/
def override (s : Settings) (o : Overrides) : Settings :=
  { s with
    logLevel := if o.verbose then "DEBUG" else s.logLevel
    controllers := o.controllers.getD s.controllers
    etcdEndpoints := (o.etcdEndpoints.map commaList).getD s.etcdEndpoints
    store := o.store.getD s.store }

def backoffStart (s : Settings) : Duration := .ofMillis s.backoffStartMillis

def backoffMax (s : Settings) : Duration := .ofMillis s.backoffMaxMillis

def syncTimeout (s : Settings) : Duration := .ofSecs s.syncTimeoutSecs

def etcdDialTimeout (s : Settings) : Duration := .ofMillis s.etcdDialTimeoutMillis

end Settings

namespace ServerSettings

/-- The settings that an environment makes. -/
def ofEnvironment (env : Environment) : ServerSettings where
  metricsPort := Settings.number env word16 "METRICS_PORT" 5000
  startupTimeoutSecs := Settings.number env word64 "SERVER_STARTUP_TIMEOUT_SECS" 10
  pollIntervalMillis := Settings.number env word64 "SERVER_POLL_INTERVAL_MS" 50

def default : ServerSettings := ofEnvironment fun _ => none

def startupTimeout (s : ServerSettings) : Duration := .ofSecs s.startupTimeoutSecs

def pollInterval (s : ServerSettings) : Duration := .ofMillis s.pollIntervalMillis

end ServerSettings

end ClusterSync
