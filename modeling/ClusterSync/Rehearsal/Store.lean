import ClusterSync.Datastore.Etcd
import ClusterSync.Datastore.Table

/-!
# Stores that misbehave on purpose

A table behind a wrapper that records the calls made and can be told to fail them, to let another
writer in just before a transaction, or to break whoever makes the next one; and an etcd server
behind a connection that may not work at all.
-/

namespace ClusterSync.Rehearsal

/-- A call as it was recorded. -/
inductive Call
  | read (path : String) (reply : Except StoreError (Option Stored))
  | commit (x : Transaction) (reply : Except StoreError Outcome)

/-- What is to go wrong from now on; what is not given stays as it is. -/
structure Faults where
  failCommits : Option Nat := none
  failReads : Option Nat := none
  race : Option (List Transaction) := none
  breakNext : Bool := false

/-- What becomes of a transaction. -/
structure Fate where
  /-- What another writer does just before it. -/
  race : List Transaction
  fails : Bool

/-- A table with faults to come and the calls made so far. -/
structure FaultyStore where
  table : Table
  /-- How many transactions fail from now on. -/
  failCommits : Nat
  /-- How many reads fail from now on. -/
  failReads : Nat
  /-- What another writer does just before the next transaction. -/
  race : List Transaction
  /-- Whether the next transaction breaks its caller. -/
  breakNext : Bool
  calls : List Call

namespace FaultyStore

def initial : FaultyStore := ⟨.initial, 0, 0, [], false, []⟩

/-- Lets faults come. -/
def expect (s : FaultyStore) (f : Faults) : FaultyStore :=
  { s with
    failCommits := f.failCommits.getD s.failCommits
    failReads := f.failReads.getD s.failReads
    race := f.race.getD s.race
    breakNext := s.breakNext || f.breakNext }

/-- The failure that a call is told to have. -/
def refused : StoreError := .transport "connection refused"

/-- Another writer's transactions, which are neither recorded nor failed. -/
def interfere (s : FaultyStore) (xs : List Transaction) : FaultyStore :=
  { s with table := xs.foldl (fun t x => (t.commit x).2) s.table }

/-- Settles what becomes of a transaction that begins now. -/
def drawFate (s : FaultyStore) : Fate × FaultyStore :=
  (⟨s.race, s.failCommits ≠ 0⟩, { s with race := [], failCommits := s.failCommits - 1 })

/-- Carries out a transaction of which is settled what becomes of it. -/
def carryOut (fate : Fate) (x : Transaction) (s : FaultyStore) :
    Except StoreError Outcome × FaultyStore :=
  let s := s.interfere fate.race
  let (reply, s) : Except StoreError Outcome × FaultyStore :=
    if fate.fails then (.error refused, s)
    else
      let (outcome, table) := s.table.commit x
      (.ok outcome, { s with table })
  (reply, { s with calls := s.calls ++ [.commit x reply] })

/-- A transaction that is carried out as soon as it begins. -/
def commit (x : Transaction) (s : FaultyStore) : Except StoreError Outcome × FaultyStore :=
  let (fate, s) := s.drawFate
  s.carryOut fate x

def read (path : String) (s : FaultyStore) : Except StoreError (Option Stored) × FaultyStore :=
  let (reply, s) : Except StoreError (Option Stored) × FaultyStore :=
    match s.failReads with
    | n + 1 => (.error refused, { s with failReads := n })
    | 0 => (.ok (s.table.get? path), s)
  (reply, { s with calls := s.calls ++ [.read path reply] })

def backend : Backend FaultyStore := ⟨commit, read⟩

/-- The store for a transaction of which is settled what becomes of it. -/
def backendFor (fate : Fate) : Backend FaultyStore := ⟨carryOut fate, read⟩

end FaultyStore

/-- The three calls of an etcd server. -/
inductive Rpc
  | range | leaseGrant | txn
  deriving DecidableEq, Repr

/-- An etcd server at the other end of a connection. If the connection does not work no request
arrives. -/
structure RemoteEtcd where
  server : Etcd.Server
  reachable : Bool
  /-- The call that fails next, with the status it fails with. -/
  failure : Option (Rpc × Etcd.Status)
  /-- Whether transactions are answered without a header. -/
  noHeader : Bool
  requests : List Etcd.Request

namespace RemoteEtcd

def initial (reachable : Bool) : RemoteEtcd := ⟨.empty 0, reachable, none, false, []⟩

/-- The status of a request that does not arrive. -/
def unavailable : Etcd.Status := ⟨14, "transport error"⟩

/-- Sends a request, which fails if the connection does not work or if it is its turn to fail. -/
def send {α : Type} (rpc : Rpc) (request : Etcd.Request)
    (handle : Etcd.Server → Except Etcd.Status α × Etcd.Server) (r : RemoteEtcd) :
    Except Etcd.Status α × RemoteEtcd :=
  if ¬ r.reachable then (.error unavailable, r)
  else
    let r := { r with requests := r.requests ++ [request] }
    match r.failure with
    | some (failing, status) =>
      if failing = rpc then (.error status, { r with failure := none })
      else
        let (reply, server) := handle r.server
        (reply, { r with server })
    | none =>
      let (reply, server) := handle r.server
      (reply, { r with server })

/-- The server as its clients see it. The number of a lease that is not granted is used up. -/
def service : Etcd.Service RemoteEtcd where
  range path r := send .range (.range path) (Etcd.Server.service.range path) r
  leaseGrant seconds r :=
    let failing := r.reachable ∧ r.failure.any (·.1 = .leaseGrant)
    let (reply, after) :=
      send .leaseGrant (.leaseGrant seconds) (Etcd.Server.service.leaseGrant seconds) r
    if failing then
      (reply, { after with server := (Etcd.Server.service.leaseGrant seconds after.server).2 })
    else (reply, after)
  txn c success failure r :=
    let (reply, after) :=
      send .txn (.txn c success failure) (Etcd.Server.service.txn c success failure) r
    (reply.map fun t => if r.noHeader then { t with revision? := none } else t, after)

def backend : Backend RemoteEtcd := Etcd.backend service

end RemoteEtcd

end ClusterSync.Rehearsal
