import ClusterSync.Datastore.Dialogue
import ClusterSync.Datastore.Value

/-!
# Conditional writes

Writing and reading keys with their values. Each write is one transaction with a condition, so a
write either takes effect as a whole or leaves the datastore alone:

- `Pair.create` puts a value only if its path does not exist;
- `Pair.update` puts a value only if its path is still as it was last seen;
- `Key.remove` deletes a path only if it exists.
-/

namespace ClusterSync

open Text

/-- A key with its value. The revision is the one at which the value was read, or at which a
conditional update expects to find the path. -/
structure Pair where
  key : Key
  value : Value
  revision : Option Revision := none
  ttl : Option Duration := none

/-- The label of a result in metrics. -/
def StoreError.outcomeLabel {α : Type} : Except StoreError α → String
  | .ok _ => "success"
  | .error e => e.label

/-- Ends an operation: counts how it went and gives its result. -/
def Dialogue.finish {α : Type} (operation : String) (result : Except StoreError α) :
    Dialogue (Except StoreError α) :=
  .count (.storeOperations operation (StoreError.outcomeLabel result)) (.done result)

namespace Pair

/-- The path and bytes of a pair. A fault is reported before it is given back. -/
def encoded (p : Pair) : Dialogue (Except StoreError (String × Bytes)) :=
  match p.key.path with
  | .error e =>
    .log (.warn "Failed to convert model key to datastore path") (.done (.error (.ofKeyError e)))
  | .ok path =>
    match p.value.encode p.key with
    | .error e => .log (.warn "Failed to serialize value") (.done (.error (.ofKeyError e)))
    | .ok bytes => .done (.ok (path, bytes))

/-- The transaction that puts a value if a comparison holds. -/
def putIf (comparison : Comparison) (path : String) (bytes : Bytes) (ttl : Option Duration) :
    Transaction :=
  ⟨comparison, [.put path bytes ttl], []⟩

/-- Writes the pair if its path does not exist. The result is the revision of the write. -/
def create (p : Pair) : Dialogue (Except StoreError Revision) :=
  p.encoded.bind fun
    | .error e => .done (.error e)
    | .ok (path, bytes) =>
      .commit (putIf (.absent path) path bytes p.ttl) fun reply =>
        .finish "create" <|
          reply.bind fun o => if o.succeeded then .ok o.revision else .error (.alreadyExists path)

/-- The comparison that finds a path as it was seen at a revision. -/
def unchangedSince (path : String) (expected : Revision) : Comparison :=
  if expected = 0 then .absent path else .writtenAt path expected

/-- Writes the pair if its path was last written at the expected revision. -/
def overwrite (path : String) (bytes : Bytes) (ttl : Option Duration) (expected : Revision) :
    Dialogue (Except StoreError Revision) :=
  .commit (putIf (unchangedSince path expected) path bytes ttl) fun reply =>
    .finish "update" <|
      reply.bind fun o =>
        if o.succeeded then .ok o.revision
        else if expected = 0 then .error (.alreadyExists path)
        else .error (.revisionMismatch path expected)

/-- Writes the pair if its path is unchanged since the pair's revision or, if it has none, since a
look at the path just before. The result is the revision of the write. -/
def update (p : Pair) : Dialogue (Except StoreError Revision) :=
  p.encoded.bind fun
    | .error e => .done (.error e)
    | .ok (path, bytes) =>
      match p.revision with
      | some expected => overwrite path bytes p.ttl expected
      | none =>
        .read path fun
          | .error e => .finish "update" (.error e)
          | .ok none => overwrite path bytes p.ttl 0
          | .ok (some stored) => overwrite path bytes p.ttl stored.revision

end Pair

namespace Key

/-- The transaction that deletes a path if it exists. -/
def deleteIfPresent (path : String) : Transaction :=
  ⟨.present path, [.delete path], [.get path]⟩

/-- Deletes the key's path if it exists. -/
def remove (key : Key) : Dialogue (Except StoreError Unit) :=
  match key.deletePath with
  | .error e => .done (.error (.ofKeyError e))
  | .ok path =>
    .commit (deleteIfPresent path) fun reply =>
      .finish "delete" <|
        reply.bind fun o => if o.succeeded then .ok () else .error (.notFound path)

/-- What the key's path holds now. -/
def fetch (key : Key) : Dialogue (Except StoreError (Option Pair)) :=
  match key.path with
  | .error e => .done (.error (.ofKeyError e))
  | .ok path =>
    .read path fun reply =>
      .done <| reply.bind fun
        | none => .ok none
        | some stored =>
          match Value.decode key stored.value with
          | .error e => .error (.ofKeyError e)
          | .ok value => .ok (some ⟨key, value, some stored.revision, none⟩)

end Key

end ClusterSync
