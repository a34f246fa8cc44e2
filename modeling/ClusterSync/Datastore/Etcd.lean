import ClusterSync.Datastore.Transaction
import Std.Data.ExtTreeMap

/-!
# The datastore on etcd

Transactions and reads as requests to an etcd server. A transaction becomes one request, so that
its comparison and its writes happen together; for every put with a time to live a lease is granted
beforehand. `Etcd.Server` is what the protocol promises of a server: one revision for the whole
store, raised by one with every transaction that writes something.
-/

namespace ClusterSync.Etcd

open Text

/-- An action inside a request; lease 0 means none. -/
inductive Operation
  | put (path : String) (value : Bytes) (lease : Int)
  | delete (path : String)
  | get (path : String)
  deriving DecidableEq

/-- A request to the server. -/
inductive Request
  | range (path : String)
  | leaseGrant (seconds : Int)
  | txn (comparison : Comparison) (success failure : List Operation)
  deriving DecidableEq

/-- A refusal, with the server's code and text. -/
structure Status where
  code : Nat
  text : String
  deriving DecidableEq, Repr

/-- What one operation answers. -/
inductive Response
  | put
  | delete
  | get (found : List Stored)
  deriving DecidableEq

/-- The answer to a transaction; the revision is missing if the answer has no header. -/
structure TxnReply where
  succeeded : Bool
  revision? : Option Revision
  responses : List Response
  deriving DecidableEq

/-- A server as its clients see it. -/
structure Service (σ : Type) where
  range : String → σ → Except Status (List Stored) × σ
  leaseGrant : Int → σ → Except Status Int × σ
  txn : Comparison → List Operation → List Operation → σ → Except Status TxnReply × σ

/-! ## The client -/

/-- The text that stands for the details of a failed request. -/
def failureDetail : String := "<etcd>"

/-- A failed request as an error of the datastore. -/
def transport (_ : Status) : StoreError := .transport failureDetail

/-- The longest time to live in seconds. -/
def maxSeconds : Nat := 9223372036854775807

/-- The seconds for which a lease is asked: whole ones, and at least one. -/
def leaseSeconds (ttl : Duration) : Int := (max 1 (min (ttl.nanos / 1000000000) maxSeconds) : Nat)

variable {σ : Type}

/-- The operations for a list of actions, with a lease granted for each put that needs one. -/
def prepare (service : Service σ) : List Action → σ → Except StoreError (List Operation) × σ
  | [], s => (.ok [], s)
  | a :: rest, s =>
    let prepared : Except StoreError Operation × σ :=
      match a with
      | .put path value none => (.ok (.put path value 0), s)
      | .put path value (some ttl) =>
        match service.leaseGrant (leaseSeconds ttl) s with
        | (.ok lease, s) => (.ok (.put path value lease), s)
        | (.error status, s) => (.error (transport status), s)
      | .delete path => (.ok (.delete path), s)
      | .get path => (.ok (.get path), s)
    match prepared with
    | (.error e, s) => (.error e, s)
    | (.ok op, s) =>
      let (others, s) := prepare service rest s
      (others.map (op :: ·), s)

/-- What the `get` operations of a transaction read. -/
def readsOf (responses : List Response) : List Stored :=
  responses.flatMap fun
    | .get found => found
    | _ => []

/-- Carries out a transaction. -/
def commit (service : Service σ) (x : Transaction) (s : σ) : Except StoreError Outcome × σ :=
  match prepare service x.success s with
  | (.error e, s) => (.error e, s)
  | (.ok success, s) =>
    match prepare service x.failure s with
    | (.error e, s) => (.error e, s)
    | (.ok failure, s) =>
      match service.txn x.comparison success failure s with
      | (.error status, s) => (.error (transport status), s)
      | (.ok reply, s) =>
        (.ok ⟨reply.succeeded, reply.revision?.getD 0, readsOf reply.responses⟩, s)

/-- Reads one path. -/
def read (service : Service σ) (path : String) (s : σ) :
    Except StoreError (Option Stored) × σ :=
  match service.range path s with
  | (.error status, s) => (.error (transport status), s)
  | (.ok found, s) => (.ok found.head?, s)

/-- A server as a datastore. -/
def backend (service : Service σ) : Backend σ where
  commit := commit service
  read := read service

/-! ## The server -/

/-- The contents of a server: one revision, and for each path its value and the revision of its
last write. Leases are numbered from 1. -/
structure Server where
  revision : Revision
  entries : Std.ExtTreeMap String Stored
  leases : Nat

namespace Server

/-- An empty server at some revision. -/
def empty (revision : Revision) : Server := ⟨revision, ∅, 0⟩

/-- The revision at which a path was last written, 0 if it does not exist. -/
def revisionOf (s : Server) (path : String) : Revision :=
  match s.entries[path]? with
  | some stored => stored.revision
  | none => 0

/-- Carries out one operation of a transaction whose writes have the given revision. -/
def act (revision : Revision) (entries : Std.ExtTreeMap String Stored) :
    Operation → Std.ExtTreeMap String Stored × Bool × Response
  | .put path value _ => (entries.insert path ⟨value, revision⟩, true, .put)
  | .delete path => (entries.erase path, decide (path ∈ entries), .delete)
  | .get path => (entries, false, .get entries[path]?.toList)

/-- Carries out operations in their order; also says whether any of them wrote. -/
def acts (revision : Revision) (entries : Std.ExtTreeMap String Stored) :
    List Operation → Std.ExtTreeMap String Stored × Bool × List Response
  | [] => (entries, false, [])
  | op :: rest =>
    let (entries, wrote, response) := act revision entries op
    let (entries, wroteMore, responses) := acts revision entries rest
    (entries, wrote || wroteMore, response :: responses)

/-- Carries out a transaction. All its writes have one revision, and a transaction that writes
nothing leaves the revision as it is. -/
def commit (s : Server) (c : Comparison) (success failure : List Operation) : TxnReply × Server :=
  let succeeded := c.holds (s.revisionOf c.path)
  let next := s.revision + 1
  let (entries, wrote, responses) := acts next s.entries (if succeeded then success else failure)
  let revision := if wrote then next else s.revision
  (⟨succeeded, some revision, responses⟩, { s with revision, entries })

/-- A server that answers every request. -/
def service : Service Server where
  range path s := (.ok s.entries[path]?.toList, s)
  leaseGrant _ s := (.ok (s.leases + 1 : Nat), { s with leases := s.leases + 1 })
  txn c success failure s := let (reply, s) := s.commit c success failure; (.ok reply, s)

end Server

end ClusterSync.Etcd
