/-!
# Endpoints

Addresses of datastores: `http://` and then a host, which may have a port and a user, a path and a
query. The scheme may be left out.
-/

namespace ClusterSync.Endpoint

/-- What an address begins with that asks for encryption, which is not offered. -/
def encrypted : List Char := "https://".toList

def plain : List Char := "http://".toList

/-- How many bytes an address may have. -/
def maxLength : Nat := 65534

/-- Characters that stand nowhere in a host. -/
def excluded : List Char := " \"<>\\^`\x7b|\x7d".toList

/-- What has been seen of a host: the colons that may belong to a port, the brackets of a numeric
address, an escape that no user has used up, and whether a user has just ended. -/
structure HostScan where
  colons : Nat := 0
  opened : Bool := false
  closed : Bool := false
  escape : Bool := false
  userEnds : Bool := false

namespace HostScan

/-- How many colons there may be at all. -/
def maxColons : Nat := 8

/-- Takes in a character. What ends with `@` was a user, whose colons and escapes are free. -/
def step? (s : HostScan) (c : Char) : Option HostScan :=
  let s := { s with userEnds := false }
  match c with
  | ':' => if s.colons < maxColons then some { s with colons := s.colons + 1 } else none
  | '[' => if s.escape ∨ s.opened then none else some { s with opened := true }
  | ']' =>
    if ¬ s.opened ∨ s.closed then none
    else some { s with closed := true, colons := 0, escape := false }
  | '@' => some { s with colons := 0, escape := false, userEnds := true }
  | '%' => some { s with escape := true }
  | c => if 32 < c.toNat ∧ c.toNat < 127 ∧ ¬ excluded.contains c then some s else none

/-- Whether what has been seen is a host. -/
def isComplete (s : HostScan) : Bool :=
  s.opened = s.closed && s.colons ≤ 1 && !s.escape && !s.userEnds

end HostScan

/-- Whether a text is a host with what may belong to it. -/
def isHost (cs : List Char) : Bool :=
  cs ≠ [] && ((cs.foldlM HostScan.step? {}).any HostScan.isComplete)

/-- The characters of a path. -/
def inPath (c : Char) : Bool := 32 < c.toNat && c ≠ '<' && c ≠ '>' && c ≠ '`'

/-- The characters of a query. -/
def inQuery (c : Char) : Bool := 32 < c.toNat && c ≠ '"' && c ≠ '<' && c ≠ '>'

/-- Whether an endpoint can be used: no encryption is asked for, and with `http://` in front it
is an address. What follows a `#` does not matter. -/
def isUsable (endpoint : String) : Bool :=
  let cs := endpoint.toList
  if encrypted.isPrefixOf cs then false
  else
    let rest := if plain.isPrefixOf cs then cs.drop plain.length else cs
    let isFresh (c : Char) : Bool := c ≠ '/' && c ≠ '?' && c ≠ '#'
    let host := rest.takeWhile isFresh
    let place := (rest.dropWhile isFresh).takeWhile (· ≠ '#')
    let path := place.takeWhile (· ≠ '?')
    let query := (place.dropWhile (· ≠ '?')).drop 1
    plain.length + (String.ofList rest).utf8ByteSize ≤ maxLength
      && isHost host && path.all inPath && query.all inQuery

end ClusterSync.Endpoint
