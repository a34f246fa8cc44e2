import ClusterSync.Proofs.Datastore.Confined
import ClusterSync.Proofs.Delivery.Delivered
import ClusterSync.Supervisor.ReadyFlag

/-!
# What deliveries name

A delivery makes calls about one path, that of the key of its item or of the object that is cached
under its name, and the two are the same. Writing the ready flag makes calls about the path of the
flag.

**Theorem (`keepsTo_delivery`).** A delivery keeps to the path that belongs to the name of its item.

**Theorem (`prevails_update`).** An update that nobody interferes with on its path finds the path in
its transaction as it has read it before.
-/

namespace ClusterSync

open Text

variable {P : String → Prop} {kind : Kind} {scope : Scope} {n : ObjectName} {o : WatchedObject}

/-! ## Handlers -/

namespace Handler

theorem keepsTo_create (h : ∀ path, o.key.path = .ok path → P path) : (create o).KeepsTo P := by
  refine (o.pair.keepsTo_create h).bind fun result => ?_
  split <;> trivial

theorem keepsTo_update (h : ∀ path, o.key.path = .ok path → P path) : (update o).KeepsTo P := by
  refine (o.pair.keepsTo_update h).bind fun result => ?_
  split <;> trivial

theorem keepsTo_delete (h : ∀ path, (kind.keyFor n).path = .ok path → P path) :
    (delete kind n).KeepsTo P := by
  refine ((kind.keyFor n).keepsTo_remove h).bind fun result => ?_
  split <;> trivial

theorem prevails_update (h : o.Bears kind scope n) (found : Option Entry) :
    (update o).Prevails (kind.pathFor n) found := by
  refine (Pair.prevails_update h.path_key rfl found).bind fun result e => ?_
  split <;> trivial

end Handler

/-! ## Deliveries -/

namespace Pipeline

variable {cache : Cache} {item : WorkItem}

theorem keepsTo_delivery_of_keys (hn : ∀ path, (kind.keyFor item.name).path = .ok path → P path)
    (ho : ∀ o, cache.get? item.name = some o → ∀ path, o.key.path = .ok path → P path) :
    (delivery kind cache item).KeepsTo P := by
  unfold delivery
  cases item.change with
  | delete => exact Handler.keepsTo_delete hn
  | add =>
    cases hget : cache.get? item.name with
    | none => trivial
    | some o => exact Handler.keepsTo_create (ho o hget)
  | update =>
    cases hget : cache.get? item.name with
    | none => trivial
    | some o => exact Handler.keepsTo_update (ho o hget)

theorem keepsTo_delivery (hn : scope.Contains item.name)
    (ho : ∀ o, cache.get? item.name = some o → o.Bears kind scope item.name) :
    (delivery kind cache item).KeepsTo (· = kind.pathFor item.name) := by
  refine keepsTo_delivery_of_keys (fun path hpath => ?_) fun o hget path hpath => ?_
  · rw [Kind.path_keyFor hn] at hpath
    exact (Except.ok.inj hpath).symm
  · rw [(ho o hget).path_key] at hpath
    exact (Except.ok.inj hpath).symm

theorem prevails_delivery (hc : item.change = .update)
    (ho : ∀ o, cache.get? item.name = some o → o.Bears kind scope item.name)
    (found : Option Entry) :
    (delivery kind cache item).Prevails (kind.pathFor item.name) found := by
  unfold delivery
  rw [hc]
  cases hget : cache.get? item.name with
  | none => trivial
  | some o => exact Handler.prevails_update (ho o hget) found

end Pipeline

/-! ## The ready flag -/

theorem ReadyFlag.keepsTo_publish (ready : Bool) :
    (publish ready).KeepsTo (· = Key.readyPath) := by
  refine ((pair ready).keepsTo_update fun path hpath => ?_).bind fun result => ?_
  · exact (Except.ok.inj hpath).symm
  · cases result <;> trivial

theorem ReadyFlag.putsOnly_publish (ready : Bool) :
    (publish ready).PutsOnly (Value.flagBytes ready) := by
  refine (Pair.putsOnly_update rfl).bind fun result => ?_
  cases result <;> trivial

theorem ReadyFlag.endsWithin_publish (ready : Bool) : (publish ready).EndsWithin 4 := by
  refine Dialogue.EndsWithin.bind (m := 1) (pair ready).endsWithin_update fun result => ?_
  cases result with
  | ok revision => exact .done () 1
  | error e => exact .log (.done () 0)

/-- If nobody else touches the flag, it has its new value in the end. -/
theorem ReadyFlag.secures_publish (ready : Bool) (found : Option Entry) :
    (publish ready).Secures Key.readyPath
      (fun _ e => ∃ e', e = some e' ∧ e'.value = Value.flagBytes ready) found := by
  refine .bind ((Pair.secures_update (p := pair ready) rfl rfl rfl found).mono fun result e h => ?_)
  obtain ⟨⟨revision, rfl⟩, e', he, hvalue, -⟩ := h
  exact ⟨e', he, hvalue⟩

end ClusterSync
