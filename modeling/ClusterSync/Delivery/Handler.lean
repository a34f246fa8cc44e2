import ClusterSync.Delivery.Error
import ClusterSync.Delivery.Content

/-!
# Carrying changes out

What is done in the datastore for an object that appeared, changed or went away. Doing a thing
again that has already been done counts as success: an object that appeared may already be there,
and one that went away may already be gone.
-/

namespace ClusterSync.Handler

/-- Writes an object that appeared. A path that exists is left alone. -/
def create (o : WatchedObject) : Dialogue (Except DeliveryError Unit) :=
  o.pair.create.bind fun
    | .ok _ | .error (.alreadyExists _) => .done (.ok ())
    | .error e => .done (.error (.store e))

/-- Writes an object that changed, over whatever its path holds. -/
def update (o : WatchedObject) : Dialogue (Except DeliveryError Unit) :=
  o.pair.update.bind fun
    | .ok _ => .done (.ok ())
    | .error e => .done (.error (.store e))

/-- Deletes what belongs to the name of an object that went away. -/
def delete (kind : Kind) (name : ObjectName) : Dialogue (Except DeliveryError Unit) :=
  (kind.keyFor name).remove.bind fun
    | .ok _ | .error (.notFound _) => .done (.ok ())
    | .error e => .done (.error (.store e))

end ClusterSync.Handler
