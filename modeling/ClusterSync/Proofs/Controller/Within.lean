import ClusterSync.Proofs.Controller.Topic

/-!
# Controllers within a scope

If a watch brings only objects of a kind whose names belong to a scope, in whatever order, then a
controller never comes across any other name: neither in its cache, nor in its backlog, nor with its
workers.

**Theorem (`Within.moves`).** A controller stays within the scope whatever happens to it.

**Theorem (`Within.willKeepTo`).** A worker that looks its object up will make calls about one path
only, that of the name which it has.
-/

namespace ClusterSync

variable {σ : Type} {kind : Kind} {scope : Scope}

/-! ## News -/

/-- An event about objects of a kind with names of a scope. -/
def WatchEvent.IsAbout (kind : Kind) (scope : Scope) : WatchEvent → Prop
  | .applied o | .deleted o | .listed o => ∃ n, o.Bears kind scope n
  | .listBegins | .listEnds _ => True

instance (kind : Kind) (scope : Scope) (event : WatchEvent) :
    Decidable (event.IsAbout kind scope) :=
  have hnamed (o : WatchedObject) : Decidable (∃ n, o.Bears kind scope n) :=
    decidable_of_iff (∃ n ∈ o.cacheName?, o.Bears kind scope n)
      ⟨fun ⟨n, _, h⟩ => ⟨n, h⟩, fun ⟨n, h⟩ => ⟨n, h.cacheName, h⟩⟩
  match event with
  | .applied o | .deleted o | .listed o => hnamed o
  | .listBegins | .listEnds _ => isTrue trivial

theorem Cache.Fits.accept? {c c' : Cache} {event : WatchEvent} (h : c.Fits kind scope)
    (he : event.IsAbout kind scope) (hc : c.accept? event = some c') : c'.Fits kind scope := by
  cases event with
  | applied o =>
    obtain ⟨n, ho⟩ := he
    rw [Cache.accept?, ho.cacheName] at hc
    cases hc
    exact ⟨bears_of_insert h.objects ho, h.arriving⟩
  | deleted o =>
    obtain ⟨n, ho⟩ := he
    rw [Cache.accept?, ho.cacheName] at hc
    cases hc
    refine ⟨fun m p hp => ?_, h.arriving⟩
    simp only [Std.ExtTreeMap.getElem?_erase] at hp
    split at hp
    · cases hp
    · exact h.objects m p hp
  | listBegins =>
    cases hc
    exact ⟨h.objects, bears_of_empty⟩
  | listed o =>
    obtain ⟨n, ho⟩ := he
    rw [Cache.accept?, ho.cacheName] at hc
    cases hc
    exact ⟨h.objects, bears_of_insert h.arriving ho⟩
  | listEnds order =>
    cases hc
    exact ⟨h.arriving, bears_of_empty⟩

namespace Listing

variable {l : Listing} {c : Cache} {event : WatchEvent} {item : WorkItem}

/-- Work is queued under the name of its object. -/
theorem name_of_changed? {o : WatchedObject} {n : ObjectName} (ho : o.Bears kind scope n)
    (h : changed? o c = some item) : item.name = n := by
  unfold changed? at h
  rw [ho.objectName, ho.cacheName] at h
  dsimp only at h
  split at h
  · cases h
    rfl
  · split at h
    · cases h
    · cases h
      rfl

theorem contains_changed? {o : WatchedObject} (ho : ∃ n, o.Bears kind scope n) :
    ∀ item ∈ (changed? o c).toList, scope.Contains item.name := by
  intro item hi
  obtain ⟨n, ho⟩ := ho
  rw [name_of_changed? ho (Option.mem_toList.1 hi)]
  exact ho.scope

theorem contains_left {order : Arrangement} (hc : c.Fits kind scope) :
    ∀ item ∈ l.left c order, scope.Contains item.name := by
  intro item hi
  obtain ⟨-, ⟨m, o, ho, hname⟩, -⟩ := mem_left_iff_holds.1 hi
  have hbears := hc.objects m o ho
  cases hbears.objectName.symm.trans hname
  exact hbears.scope

/-- What follows from an event, at once or once a list is complete, has names of the scope. -/
theorem contains_observe (hc : c.Fits kind scope) (he : event.IsAbout kind scope)
    (hl : ∀ item ∈ l.held, scope.Contains item.name) :
    (∀ item ∈ (l.observe event c).1.held, scope.Contains item.name) ∧
      ∀ item ∈ (l.observe event c).2, scope.Contains item.name := by
  cases event with
  | applied o => exact ⟨hl, contains_changed? he⟩
  | deleted o =>
    refine ⟨hl, fun item hi => ?_⟩
    obtain ⟨n, ho⟩ := he
    rw [observe, ho.objectName] at hi
    cases List.mem_singleton.1 hi
    exact ho.scope
  | listBegins => exact ⟨List.forall_mem_nil _, List.forall_mem_nil _⟩
  | listed o =>
    refine ⟨fun item hi => ?_, List.forall_mem_nil _⟩
    rcases List.mem_append.1 hi with hi | hi
    · exact hl item hi
    · exact contains_changed? he item hi
  | listEnds order =>
    refine ⟨List.forall_mem_nil _, fun item hi => ?_⟩
    rcases List.mem_append.1 hi with hi | hi
    · exact hl item hi
    · exact contains_left hc item hi

end Listing

/-! ## Backlogs -/

/-- All names that a backlog will hand out. -/
structure Backlog.Within (b : Backlog) (scope : Scope) : Prop where
  ready : ∀ n ∈ b.ready, scope.Contains n
  delayed : ∀ d ∈ b.delayed, scope.Contains d.item.name

namespace Backlog.Within

variable {b b' : Backlog} {item : WorkItem} {n : ObjectName}

theorem add (h : b.Within scope) (hi : scope.Contains item.name) : (b.add item).Within scope where
  ready n hn := by
    rw [Backlog.add_eq] at hn
    dsimp only at hn
    split at hn
    · exact h.ready n hn
    · rcases List.mem_append.1 hn with hn | hn
      · exact h.ready n hn
      · rwa [List.mem_singleton.1 hn]
  delayed d hd := h.delayed d (Backlog.delayed_add ▸ hd)

theorem take (h : b.Within scope) (ht : b.take? = some (item, b')) :
    scope.Contains item.name ∧ b'.Within scope := by
  have hready := Backlog.ready_take ht
  refine ⟨h.ready _ (hready ▸ List.mem_cons_self), fun n hn => ?_, fun d hd => ?_⟩
  · exact h.ready n (hready ▸ List.mem_cons_of_mem _ hn)
  · exact h.delayed d ((Backlog.take?_keeps ht).2.2 ▸ hd)

theorem release (h : b.Within scope) (hn : scope.Contains n) : (b.release n).Within scope where
  ready m hm := by
    rw [Backlog.ready_release] at hm
    split at hm
    · rcases List.mem_append.1 hm with hm | hm
      · exact h.ready m hm
      · rwa [List.mem_singleton.1 hm]
    · exact h.ready m hm
  delayed d hd := h.delayed d (Backlog.delayed_release ▸ hd)

theorem delay (h : b.Within scope) (hi : scope.Contains item.name) (due : Nat) :
    ({ b with delayed := b.delayed ++ [⟨due, item⟩] } : Backlog).Within scope where
  ready := h.ready
  delayed d hd := by
    rcases List.mem_append.1 hd with hd | hd
    · exact h.delayed d hd
    · rwa [List.mem_singleton.1 hd]

theorem fire (h : b.Within scope) (i : Nat) : (b.fire i).Within scope := by
  unfold Backlog.fire
  split
  · exact h
  · rename_i d hd
    have hrest : ({ b with delayed := b.delayed.eraseIdx i } : Backlog).Within scope :=
      ⟨h.ready, fun d hd => h.delayed d (List.mem_of_mem_eraseIdx hd)⟩
    exact hrest.add (h.delayed d (List.mem_of_getElem? hd))

end Backlog.Within

/-! ## Controllers on duty -/

namespace Shift

variable {s s' : Shift σ} {backend : Backend σ} {m : Move} {o : Option Incident} {i : Nat}

/-- All names that a controller works with belong to a scope. -/
structure Within (s : Shift σ) (scope : Scope) : Prop where
  cache : s.pipeline.cache.Fits s.pipeline.kind scope
  listing : ∀ item ∈ s.pipeline.listing.held, scope.Contains item.name
  owed : ∀ item ∈ s.owed, scope.Contains item.name
  backlog : s.backlog.Within scope
  workers : ∀ w ∈ s.pipeline.workers, ∀ n, w.name? = some n → scope.Contains n

theorem Within.name (h : s.Within scope) {w : Worker} {n : ObjectName}
    (hw : s.pipeline.workers[i]? = some w) (hn : w.name? = some n) : scope.Contains n :=
  h.workers w (List.mem_of_getElem? hw) n hn

theorem Within.works (h : s.Within scope) (hw : s.Works backend i o s') : s'.Within scope := by
  have hset : ∀ {w : Worker}, (∀ n, w.name? = some n → scope.Contains n) →
      ∀ v ∈ s.pipeline.workers.set i w, ∀ n, v.name? = some n → scope.Contains n :=
    fun hn => Worker.forall_mem_set h.workers i hn
  -- A worker that goes on with its item keeps the name that it has.
  have hkeep : ∀ {w v : Worker}, s.pipeline.workers[i]? = some w →
      (∀ n, v.name? = some n → w.name? = some n) →
      ∀ u ∈ s.pipeline.workers.set i v, ∀ n, u.name? = some n → scope.Contains n :=
    fun hw hn => hset fun n hv => h.name hw (hn n hv)
  have hsame : ∀ {b : Backlog}, b.ready = s.backlog.ready → b.delayed = s.backlog.delayed →
      b.Within scope := by
    intro b hr hd
    exact ⟨hr ▸ h.backlog.ready, hd ▸ h.backlog.delayed⟩
  cases hw with
  | takes hw ht =>
    obtain ⟨hname, hrest⟩ := h.backlog.take ht
    refine { h with backlog := hrest, workers := hset fun n hn => ?_ }
    cases hn
    exact hname
  | leaves => exact { h with workers := hset nofun }
  | looks hw | talks hw | desists hw => exact { h with workers := hkeep hw fun n hn => hn }
  | succeeds hw => exact { h with backlog := hsame rfl rfl, workers := hkeep hw fun n hn => hn }
  | forgets hw => exact { h with backlog := hsame rfl rfl, workers := hkeep hw fun n hn => hn }
  | judges => exact { h with }
  | counts => exact { h with backlog := hsame rfl rfl }
  | readds hw =>
    exact { h with
      backlog := h.backlog.add (h.name hw rfl)
      workers := hkeep hw fun n hn => hn }
  | delays hw =>
    exact { h with
      backlog := h.backlog.delay (h.name hw rfl) _
      workers := hkeep hw fun n hn => hn }
  | releases hw =>
    exact { h with backlog := h.backlog.release (h.name hw rfl), workers := hset nofun }

/-- What others may add to the backlog, and what a watch may bring. -/
def Move.IsWithin (kind : Kind) (scope : Scope) : Move → Prop
  | .takeIn event => event.IsAbout kind scope
  | .add item => scope.Contains item.name
  | _ => True

theorem Within.moves (h : s.Within scope) (hm : m.IsWithin s.pipeline.kind scope)
    (hs : s.Moves backend m o s') : s'.Within scope := by
  cases hs with
  | starts | told | waits => exact { h with }
  | works hw => exact h.works hw
  | takesIn ho hc =>
    obtain ⟨hlisting, howed⟩ := Listing.contains_observe h.cache hm h.listing
    exact { h with cache := h.cache.accept? hm hc, listing := hlisting, owed := howed }
  | hands ho =>
    have hitem := h.owed _ (ho ▸ List.mem_cons_self)
    exact { h with
      owed := fun item hi => h.owed item (ho ▸ List.mem_cons_of_mem _ hi)
      backlog := h.backlog.add hitem }
  | adds item => exact { h with backlog := h.backlog.add hm }
  | abandons => exact { h with cache := ⟨h.cache.objects, h.cache.arriving⟩ }
  | fires => exact { h with backlog := h.backlog.fire _ }
  | responds hr =>
    cases hr with
    | starts =>
      refine { h with workers := fun w hw n hn => ?_ }
      rw [List.eq_of_mem_replicate hw] at hn
      cases hn
    | fails | drains => exact { h with backlog := ⟨h.backlog.ready, h.backlog.delayed⟩ }
    | reports | stops => exact { h with }

/-- Calls about the path of the item's name only. -/
def AboutOwn (kind : Kind) (item : WorkItem) (path : String) : Prop :=
  path = kind.pathFor item.name

theorem Within.willKeepTo (h : s.Within scope) : s.WillKeepTo (AboutOwn s.pipeline.kind) := by
  intro item hmem
  have hname : scope.Contains item.name := h.workers _ hmem _ rfl
  exact Pipeline.keepsTo_delivery hname fun o => h.cache.bears_of_get? hname

end Shift

end ClusterSync
