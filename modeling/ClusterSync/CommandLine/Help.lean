/-!
# Help

What is shown to those who ask for help or for the version.
-/

namespace ClusterSync.CommandLine

def versionText : String := "stargazer 0.1.0\n"

/-- What the program is for and how it is called. -/
def heading : List String :=
  ["Mirror Kubernetes Nodes and UnifiedNetworkPolicies into the Nimbess datastore", "",
    "Usage: stargazer [OPTIONS]", "", "Options:"]

/-- One line for each option. -/
def shortHelp : List String :=
  heading ++
    ["  -v, --verbose                Log at DEBUG level",
      "      --controllers <KINDS>    Comma-separated controllers to run (node, unp)",
      "      --etcd-endpoints <URLS>  Comma-separated etcd endpoints",
      "      --store <STORE>          Datastore backend [possible values: etcd, memory]",
      "  -h, --help                   Print help (see more with '--help')",
      "  -V, --version                Print version"]

/-- A paragraph for each option. -/
def longHelp : List String :=
  heading ++
    ["  -v, --verbose", "          Log at DEBUG level", "",
      "      --controllers <KINDS>", "          Comma-separated controllers to run (node, unp)", "",
      "      --etcd-endpoints <URLS>", "          Comma-separated etcd endpoints", "",
      "      --store <STORE>", "          Datastore backend", "",
      "          Possible values:",
      "          - etcd:   etcd v3 cluster",
      "          - memory: In-process store, for dry runs", "",
      "  -h, --help", "          Print help (see a summary with '-h')", "",
      "  -V, --version", "          Print version"]

def helpText (long : Bool) : String :=
  String.join ((if long then longHelp else shortHelp).map (· ++ "\n"))

end ClusterSync.CommandLine
