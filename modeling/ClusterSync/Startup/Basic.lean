import ClusterSync.Serving.Router
import ClusterSync.Settings.Describe
import ClusterSync.Startup.Connection

/-!
# Starting up

What happens before the controllers start: logging, the pages, the datastore and the access to the
cluster, in this order. The first of them that fails ends the program.
-/

namespace ClusterSync

/-- What the program finds around itself. -/
structure Surroundings where
  /-- Somebody else has set up logging in this process. -/
  loggingTaken : Bool := false
  /-- Another program listens where the pages are to be served. -/
  addressTaken : Bool := false
  /-- There are credentials for the cluster. -/
  credentials : Bool := false
  /-- When and from what the program was built. -/
  build : String := ""

inductive StartupError
  | logging
  | pages
  | store (e : ConnectError)
  | credentials
  deriving DecidableEq, Repr

namespace StartupError

def message : StartupError → String
  | .logging =>
    "Failed to initialize tracing subscriber: "
      ++ "a global default trace dispatcher has already been set"
  | .pages => "HTTP server failed to start"
  | .store e => e.message
  | .credentials => "Failed to create Kubernetes client"

end StartupError

namespace Startup

/-- What the line that tells the build begins with. -/
def buildLabel : String := "Build info: "

/-- The log events up to the start of the pages. -/
def greeting (around : Surroundings) (s : Settings) : List Notice :=
  [Origin.startup.notice (.info "Starting Stargazer"),
    Origin.startup.notice (.info (buildLabel ++ around.build)),
    Origin.startup.notice ⟨.info, "Configuration loaded", [("config", Describe.settings s)]⟩]

/-- Serves the pages. -/
def servePages (around : Surroundings) (server : ServerSettings) :
    Except StartupError Unit × List Notice :=
  if around.addressTaken then
    let failure := "HTTP server error: " ++ Serving.addressTaken
    (.error .pages, [Origin.startup.notice (.error failure)])
  else
    let listening := s!"HTTP server listening on 0.0.0.0:{server.metricsPort}"
    (.ok (), [Origin.server.notice (.info listening),
      Origin.startup.notice (.info "HTTP server is ready and accepting connections")])

/-- Starts up, with the log events on the way. The result is the datastore that is connected. -/
def run (around : Surroundings) (s : Settings) (server : ServerSettings) :
    Except StartupError StoreKind × List Notice :=
  if around.loggingTaken then (.error .logging, [])
  else
    let greeting := greeting around s
    match servePages around server with
    | (.error e, notices) => (.error e, greeting ++ notices)
    | (.ok (), served) =>
      match connectStore s with
      | (.error e, notices) => (.error (.store e), greeting ++ served ++ notices)
      | (.ok store, connected) =>
        let notices := greeting ++ served ++ connected
        if ¬ around.credentials then (.error .credentials, notices)
        else
          (.ok store, notices ++ [Origin.startup.notice
            (.info "Controller initialized, starting controllers...")])

end Startup

end ClusterSync
