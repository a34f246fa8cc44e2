import ClusterSync.Controller.Lifecycle
import ClusterSync.Settings.Basic

/-!
# Descriptions

The one-line descriptions of settings and long-lived parts that go into logs: the name of the
part and its fields, with two dots where there is more than is shown.
-/

namespace ClusterSync.Describe

open Text

/-- A part with its fields. -/
def part (name : String) (fields : List (String × String)) : String :=
  name ++ " \x7b " ++ ", ".intercalate (fields.map fun (key, value) => key ++ ": " ++ value)
    ++ " \x7d"

/-- A part of which only some fields are shown. -/
def opening (name : String) (fields : List (String × String)) : String :=
  name ++ " \x7b " ++ String.join (fields.map fun (key, value) => key ++ ": " ++ value ++ ", ")
    ++ ".. \x7d"

def storeKind : StoreKind → String
  | .etcd => "Etcd"
  | .memory => "Memory"

def settings (s : Settings) : String :=
  part "ControllerConfig" [
    ("log_level", quoted s.logLevel),
    ("log_format", quoted s.logFormat),
    ("controllers", quoted s.controllers),
    ("node_workers", toString s.nodeWorkers),
    ("unp_workers", toString s.policyWorkers),
    ("max_retries", toString s.maxRetries),
    ("backoff_start_ms", toString s.backoffStartMillis),
    ("backoff_max_ms", toString s.backoffMaxMillis),
    ("cache_sync_timeout_secs", toString s.syncTimeoutSecs),
    ("store_backend", storeKind s.store),
    ("etcd_endpoints", quotedList s.etcdEndpoints),
    ("etcd_dial_timeout_ms", toString s.etcdDialTimeoutMillis)]

def storeClient : String := opening "StoreClient" []

def etcdBackend : String := opening "EtcdBackend" []

def runner (s : Settings) : String :=
  opening "Runner" [("config", settings s), ("store", storeClient)]

def initialization (s : Settings) (ready : Bool) : String :=
  opening "InitializationResult"
    [("controller_config", settings s), ("server_ready", if ready then "true" else "false")]

def controllerSettings (s : ControllerSettings) : String :=
  part "ControllerSettings" [
    ("workers", toString s.workers),
    ("max_retries", toString s.maxRetries),
    ("cache_sync_timeout", s.syncTimeout.text)]

def controller (c : Controller) : String :=
  opening "ReconcileController" [
    ("kind", quoted c.pipeline.kind.label),
    ("settings", controllerSettings c.settings),
    ("state", c.state.label)]

end ClusterSync.Describe
