/-!
# Datastore keys

What a value in the datastore is about, where it is kept and what form it has. Every part that
identifies a resource has to be there before a key has a path.
-/

namespace ClusterSync

/-- The form of a value: a record or policy as JSON, bare text, or a bare truth value. -/
inductive Shape
  | node | policy | text | flag
  deriving DecidableEq, Repr

namespace Shape

/-- Whether values of this form are written bare. -/
def isRaw : Shape → Bool
  | .text | .flag => true
  | .node | .policy => false

def label : Shape → String
  | .node => "Node"
  | .policy => "UnifiedNetworkPolicy"
  | .text => "RawString"
  | .flag => "RawBool"

end Shape

/-- A key: the record of a node, a setting of a node, a policy, or the ready flag. -/
inductive Key
  | node (hostname : String)
  | hostConfig (hostname name : String)
  | policy (name : String)
  | ready
  deriving DecidableEq, Repr

/-- What is wrong with a key or its value. -/
inductive KeyError
  | missing (part : String)
  | encoding (key : String) (reason : String)
  deriving DecidableEq, Repr

def KeyError.message : KeyError → String
  | .missing part => s!"insufficient identifiers: missing {part}"
  | .encoding key reason => s!"serialization error for {key}: {reason}"

namespace Key

/-- Where everything is kept. -/
def root : String := "/nimbess"

def hostRoot : String := root ++ "/host/"

def policyRoot : String := root ++ "/unp/"

def readyPath : String := root ++ "/ready"

/-- The key in words. -/
def describe : Key → String
  | .node hostname => "Node(name=" ++ hostname ++ ")"
  | .hostConfig hostname name => "HostConfig(node=" ++ hostname ++ ",name=" ++ name ++ ")"
  | .policy name => "UNP(name=" ++ name ++ ")"
  | .ready => "ReadyFlag"

/-- The path under which the value is kept. -/
def path : Key → Except KeyError String
  | .node hostname =>
    if hostname = "" then .error (.missing "name") else .ok (hostRoot ++ hostname)
  | .hostConfig hostname name =>
    if hostname = "" then .error (.missing "node")
    else if name = "" then .error (.missing "name")
    else .ok (hostRoot ++ hostname ++ "/config/" ++ name)
  | .policy name => if name = "" then .error (.missing "name") else .ok (policyRoot ++ name)
  | .ready => .ok readyPath

/-- The path that is deleted to remove the value. -/
def deletePath (key : Key) : Except KeyError String := key.path

def shape : Key → Shape
  | .node _ => .node
  | .hostConfig .. => .text
  | .policy _ => .policy
  | .ready => .flag

end Key

end ClusterSync
