import ClusterSync.Controller.Worker
import ClusterSync.Proofs.Datastore.Secured
import ClusterSync.Proofs.Object.Scope

/-!
# What deliveries bring about

**Theorem (`secures_delivery`).** A delivery that nobody interferes with on its path succeeds, and
leaves on the path what follows from the change, from the object in the cache and from what the
path held before: a deletion leaves nothing, an update the object, and an addition the object if
there was nothing.

An addition to a path that exists succeeds without having written the object.
-/

namespace ClusterSync

open Text

variable {kind : Kind} {scope : Scope} {n : ObjectName} {o : WatchedObject}

/-! ## Handlers -/

namespace Handler

variable {path : String}

theorem secures_create (h : o.key.path = .ok path) (found : Option Entry) :
    (create o).Secures path (fun result e => result = .ok () ∧ match found with
      | none => ∃ e', e = some e' ∧ e'.value = o.bytes ∧ e'.ttl = none
      | some _ => e = found) found := by
  refine .bind ((Pair.secures_create h o.encode_value found).mono fun result e hr => ?_)
  cases found with
  | none =>
    obtain ⟨⟨revision, rfl⟩, he⟩ := hr
    exact ⟨rfl, he⟩
  | some _ =>
    obtain ⟨rfl, he⟩ := hr
    exact ⟨rfl, he⟩

theorem secures_update (h : o.key.path = .ok path) (found : Option Entry) :
    (update o).Secures path (fun result e => result = .ok () ∧
      ∃ e', e = some e' ∧ e'.value = o.bytes ∧ e'.ttl = none) found := by
  refine .bind ((Pair.secures_update h o.encode_value rfl found).mono fun result e hr => ?_)
  obtain ⟨⟨revision, rfl⟩, he⟩ := hr
  exact ⟨rfl, he⟩

theorem secures_delete (h : (kind.keyFor n).path = .ok path) (found : Option Entry) :
    (delete kind n).Secures path (fun result e => result = .ok () ∧ e = none) found := by
  refine .bind ((Key.secures_remove h found).mono fun result e hr => ?_)
  obtain ⟨he, hr⟩ := hr
  cases found <;> subst hr <;> exact ⟨rfl, he⟩

end Handler

/-! ## Deliveries -/

/-- What a path may hold after a delivery of a change. The contents are those of the object in the
cache, if there is one, and `found` is what the path held before. -/
def Delivered (change : Change) (contents : Option Bytes) (found e : Option Entry) : Prop :=
  match change, contents, found with
  | .delete, _, _ => e = none
  | .update, some bytes, _ | .add, some bytes, none => ∃ e', e = some e' ∧ e'.value = bytes
  | .add, some _, some _ | .update, none, _ | .add, none, _ => e = found

theorem secures_delivery {cache : Cache} {item : WorkItem} (hn : scope.Contains item.name)
    (hb : ∀ o, cache.get? item.name = some o → o.Bears kind scope item.name)
    (found : Option Entry) :
    (Pipeline.delivery kind cache item).Secures (kind.pathFor item.name)
      (fun result e => result = .ok () ∧
        Delivered item.change ((cache.get? item.name).map (·.bytes)) found e) found := by
  obtain ⟨n, change⟩ := item
  unfold Pipeline.delivery
  cases change with
  | delete => exact Handler.secures_delete (Kind.path_keyFor hn) found
  | add =>
    cases hget : cache.get? n with
    | none => exact ⟨rfl, rfl⟩
    | some o =>
      refine (Handler.secures_create (hb o hget).path_key found).mono fun result e hr => ?_
      obtain ⟨rfl, he⟩ := hr
      cases found with
      | none =>
        obtain ⟨e', rfl, hvalue, -⟩ := he
        exact ⟨rfl, e', rfl, hvalue⟩
      | some _ => exact ⟨rfl, he⟩
  | update =>
    cases hget : cache.get? n with
    | none => exact ⟨rfl, rfl⟩
    | some o =>
      refine (Handler.secures_update (hb o hget).path_key found).mono fun result e hr => ?_
      obtain ⟨rfl, e', rfl, hvalue, -⟩ := hr
      exact ⟨rfl, e', rfl, hvalue⟩

/-- Whatever is not a deletion leaves something if there is an object. -/
theorem Delivered.exists_eq_some {change : Change} {bytes : Bytes} {found e : Option Entry}
    (h : Delivered change (some bytes) found e) (hc : change ≠ .delete) : ∃ e', e = some e' := by
  cases change with
  | delete => exact absurd rfl hc
  | update => obtain ⟨e', he, -⟩ := h; exact ⟨e', he⟩
  | add =>
    cases found with
    | none => obtain ⟨e', he, -⟩ := h; exact ⟨e', he⟩
    | some e' => exact ⟨e', h⟩

end ClusterSync
