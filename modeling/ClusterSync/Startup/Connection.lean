import ClusterSync.Datastore.Etcd
import ClusterSync.Settings.Basic
import ClusterSync.Startup.Endpoint
import ClusterSync.Telemetry.Event

/-!
# Connecting to the datastore

Which datastore the settings ask for, and whether its endpoints can be used. A connection is not
made before it is needed, so nobody has to listen yet.
-/

namespace ClusterSync

open Text

/-- A log event and the part of the program that it comes from. -/
structure Notice where
  origin : String
  event : LogEvent
  deriving DecidableEq, Repr

/-- The parts of the program that report something while it starts. -/
inductive Origin
  | startup | server | etcd | supervisor
  deriving DecidableEq, Repr

namespace Origin

/-- The name of a part, by which log filters know it. -/
def name : Origin → String
  | .startup => "stargazer::runtime::initialization"
  | .server => "stargazer::controller::server"
  | .etcd => "stargazer::store::etcd"
  | .supervisor => "stargazer::runtime::runner"

def notice (o : Origin) (e : LogEvent) : Notice := ⟨o.name, e⟩

end Origin

/-- Why there is no connection. -/
structure ConnectError where
  endpoints : List String
  cause : StoreError
  deriving DecidableEq, Repr

namespace ConnectError

def message (e : ConnectError) : String := "Failed to connect to etcd at " ++ quotedList e.endpoints

end ConnectError

/-- Connects to the datastore of the settings, with the log events on the way. -/
def connectStore (s : Settings) : Except ConnectError StoreKind × List Notice :=
  match s.store with
  | .memory =>
    (.ok .memory, [Origin.startup.notice
      (.warn "Using the in-memory datastore, nothing will be persisted")])
  | .etcd =>
    if s.etcdEndpoints = [] then
      (.error ⟨s.etcdEndpoints, .transport "no etcd endpoints specified"⟩, [])
    else
      let fields := [("endpoints", quotedList s.etcdEndpoints)]
      let connecting := Origin.etcd.notice ⟨.info, "Connecting to etcd...", fields⟩
      if s.etcdEndpoints.all Endpoint.isUsable then
        (.ok .etcd, [connecting, Origin.startup.notice ⟨.info, "Connected to etcd", fields⟩])
      else
        (.error ⟨s.etcdEndpoints,
            .transport ("failed to connect to etcd: " ++ Etcd.failureDetail)⟩,
          [connecting])

end ClusterSync
