import ClusterSync.Settings.Basic
import ClusterSync.Text.Plain

/-!
# Arguments

What the arguments of the command line ask for. They are read from left to right. The value of an
option follows after `=` or is the next argument; an option that waits for its value is settled as
soon as something else that is known comes, or at the end. What is not known at all is refused at
once.
-/

namespace ClusterSync.CommandLine

/-- An option with a value. -/
inductive Valued
  | controllers | etcdEndpoints | store
  deriving DecidableEq, Repr

/-- An option without a value. -/
inductive Switch
  | verbose | help | version
  deriving DecidableEq, Repr

/-- Why the arguments ask for no run: a text is to be shown, or they are wrong. What a message
repeats of them is made plain. -/
inductive Ending
  | help (long : Bool)
  | version
  | usage (message : String)
  deriving DecidableEq, Repr

namespace Valued

def long : Valued → String
  | .controllers => "controllers"
  | .etcdEndpoints => "etcd-endpoints"
  | .store => "store"

/-- The option in messages. -/
def text (o : Valued) : String :=
  "--" ++ o.long ++ match o with
    | .controllers => " <KINDS>"
    | .etcdEndpoints => " <URLS>"
    | .store => " <STORE>"

def all : List Valued := [.controllers, .etcdEndpoints, .store]

end Valued

namespace Switch

def long : Switch → String
  | .verbose => "verbose"
  | .help => "help"
  | .version => "version"

def short : Switch → Char
  | .verbose => 'v'
  | .help => 'h'
  | .version => 'V'

def all : List Switch := [.verbose, .help, .version]

end Switch

namespace Ending

def unexpected (argument : String) : Ending :=
  .usage s!"unexpected argument '{Text.plain argument}' found"

def missingValue (o : Valued) : Ending :=
  .usage s!"a value is required for '{o.text}' but none was supplied"

def invalidValue (o : Valued) (value : String) : Ending :=
  if value = "" then missingValue o else .usage s!"invalid value '{Text.plain value}' for '{o.text}'"

def repeated (option : String) : Ending :=
  .usage s!"the argument '{option}' cannot be used multiple times"

def needlessValue (s : Switch) (value : String) : Ending :=
  .usage s!"unexpected value '{Text.plain value}' for '--{s.long}' found; no more were expected"

end Ending

/-- What has been read so far, and the option that waits for its value or has just got it. -/
structure Reading where
  given : Overrides := {}
  open? : Option (Valued × Option String) := none

namespace Reading

/-- Whether an option has been given. -/
def has (given : Overrides) : Valued → Bool
  | .controllers => given.controllers.isSome
  | .etcdEndpoints => given.etcdEndpoints.isSome
  | .store => given.store.isSome

/-- The kind of datastore that a value names. -/
def storeKind? : String → Option StoreKind
  | "etcd" => some .etcd
  | "memory" => some .memory
  | _ => none

/-- Takes an option with its value. -/
def accept (given : Overrides) (o : Valued) (value : Option String) : Except Ending Overrides :=
  match value with
  | none => .error (.missingValue o)
  | some value =>
    if has given o then .error (.repeated o.text)
    else
      match o with
      | .controllers => .ok { given with controllers := some value }
      | .etcdEndpoints => .ok { given with etcdEndpoints := some value }
      | .store =>
        match storeKind? value with
        | some kind => .ok { given with store := some kind }
        | none => .error (.invalidValue o value)

/-- Settles the option that is open. -/
def settle (r : Reading) : Except Ending Reading :=
  match r.open? with
  | none => .ok r
  | some (o, value) => (accept r.given o value).map fun given => ⟨given, none⟩

/-- Takes a switch; help and version end the reading. -/
def flip (r : Reading) (s : Switch) (short : Bool) : Except Ending Reading := do
  let r ← r.settle
  match s with
  | .help => .error (.help (!short))
  | .version => .error .version
  | .verbose =>
    if r.given.verbose then .error (.repeated ("--" ++ s.long))
    else .ok { r with given := { r.given with verbose := true } }

/-- The parts before and after the first equals sign. -/
def splitValue : List Char → List Char × Option (List Char)
  | [] => ([], none)
  | '=' :: rest => ([], some rest)
  | c :: rest => let (name, value) := splitValue rest; (c :: name, value)

/-- Takes an argument that begins with two dashes. -/
def long (r : Reading) (body : List Char) : Except Ending Reading :=
  let (name, value) := splitValue body
  let name := String.ofList name
  let value := value.map String.ofList
  match Valued.all.find? (·.long = name), Switch.all.find? (·.long = name) with
  | some o, _ => do
    let r ← r.settle
    match value with
    | some value => return ⟨← accept r.given o (some value), none⟩
    | none => return { r with open? := some (o, none) }
  | none, some s =>
    match value with
    | some value => .error (.needlessValue s value)
    | none => r.flip s false
  | none, none => .error (.unexpected ("--" ++ name))

/-- Takes the letters of an argument that begins with one dash. -/
def shorts (r : Reading) : List Char → Except Ending Reading
  | [] => .ok r
  | c :: rest =>
    match Switch.all.find? (·.short = c) with
    | none => .error (.unexpected (String.ofList ['-', c]))
    | some s => do shorts (← r.flip s true) rest

/-- Takes an argument that is no option: the value of the open option, if it waits for one. -/
def plain (r : Reading) (argument : String) : Except Ending Reading :=
  match r.open? with
  | some (o, none) => .ok { r with open? := some (o, some argument) }
  | _ => .error (.unexpected argument)

/-- Reads arguments to the end. After two dashes that stand alone there are no options. -/
def run (r : Reading) : List String → Except Ending Reading
  | [] => r.settle
  | argument :: rest =>
    match argument.toList with
    | ['-', '-'] =>
      match rest with
      | [] => r.settle
      | other :: _ => .error (.unexpected other)
    | '-' :: '-' :: body => do run (← r.long body) rest
    | '-' :: c :: letters => do run (← r.shorts (c :: letters)) rest
    | _ => do run (← r.plain argument) rest

end Reading

/-- What the arguments ask for. -/
def parse (arguments : List String) : Except Ending Overrides :=
  (Reading.run {} arguments).map Reading.given

end ClusterSync.CommandLine
