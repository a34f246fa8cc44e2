import ClusterSync.Proofs.Controller.Convergence
import ClusterSync.Proofs.Controller.Topic

/-!
# Starting on a used datastore

A pipeline that starts with an empty cache on a table that an earlier one has left, and reads its
first complete list of objects. Whatever the table holds, all that follows from the list are
additions: what is to be deleted is told from the cache, which holds nothing yet.

**Theorem (`keys_after_restart`).** Once everything that follows from the list has been delivered,
the table has the keys that it had and those of the listed objects.

**Theorem (`keys_differ_from_list`).** So the key of an object that went away between two runs
stays.
-/

namespace ClusterSync

open Text

/-! ## Additions -/

namespace Dialogue

variable {α β : Type} {path : String} {goal : α → Prop}

/-- Played over any tables that take no path away, the dialogue itself takes none away and adds none
but one. That one is there in the end, as it is now if the last argument says so. -/
def Provides (path : String) (goal : α → Prop) : Dialogue α → Bool → Prop
  | .done result, there => there = true ∧ goal result
  | .commit x next, _ => ∀ t : Table, t.Valid →
      (∀ other, other ∈ (t.commit x).2.entries ↔ other = path ∨ other ∈ t.entries) ∧
      (next (.ok (t.commit x).1)).Provides path goal true
  | .read _ _, _ => False
  | .log _ next, there => next.Provides path goal there
  | .count _ next, there => next.Provides path goal there

theorem Provides.mono {goal' : α → Prop} {p : Dialogue α} {there : Bool}
    (h : p.Provides path goal there) (hg : ∀ a, goal a → goal' a) :
    p.Provides path goal' there := by
  induction p generalizing there with
  | done a => exact ⟨h.1, hg a h.2⟩
  | commit x next ih => exact fun t ht => ⟨(h t ht).1, ih _ (h t ht).2⟩
  | read => exact h
  | log event next ih => exact ih h
  | count sample next ih => exact ih h

theorem Provides.bind {goal : β → Prop} {p : Dialogue α} {f : α → Dialogue β} {there : Bool}
    (h : p.Provides path (fun a => (f a).Provides path goal true) there) :
    (p.bind f).Provides path goal there := by
  induction p generalizing there with
  | done a =>
    obtain ⟨rfl, h⟩ := h
    exact h
  | commit x next ih => exact fun t ht => ⟨(h t ht).1, ih _ (h t ht).2⟩
  | read => exact h.elim
  | log event next ih => exact ih h
  | count sample next ih => exact ih h

/-- A step adds no path but one, and tells whether that one is there. -/
theorem Provides.step {p : Dialogue α} {there : Bool} {t : Table} (h : p.Provides path goal there)
    (ht : t.Valid) (hthere : there = true → path ∈ t.entries) (journal : Journal) :
    (∃ there', (p.step Table.backend journal t).1.Provides path goal there' ∧
      (there' = true → path ∈ (p.step Table.backend journal t).2.2.entries)) ∧
    (p.step Table.backend journal t).2.2.Valid ∧
    (∀ other ∈ t.entries, other ∈ (p.step Table.backend journal t).2.2.entries) ∧
    ∀ other ∈ (p.step Table.backend journal t).2.2.entries, other = path ∨ other ∈ t.entries := by
  cases p with
  | done a => exact ⟨⟨there, h, hthere⟩, ht, fun _ ho => ho, fun _ ho => .inr ho⟩
  | commit x next =>
    obtain ⟨hpaths, hnext⟩ := h t ht
    exact ⟨⟨true, hnext, fun _ => (hpaths path).2 (.inl rfl)⟩, ht.commit x,
      fun other ho => (hpaths other).2 (.inr ho), fun other ho => (hpaths other).1 ho⟩
  | read => exact h.elim
  | log event next => exact ⟨⟨there, h, hthere⟩, ht, fun _ ho => ho, fun _ ho => .inr ho⟩
  | count sample next => exact ⟨⟨there, h, hthere⟩, ht, fun _ ho => ho, fun _ ho => .inr ho⟩

end Dialogue

theorem Pair.provides_create {p : Pair} {path : String} {bytes : Bytes}
    (hp : p.key.path = .ok path) (hv : p.value.encode p.key = .ok bytes) :
    p.create.Provides path (fun result =>
      (∃ revision, result = .ok revision) ∨ result = .error (.alreadyExists path)) false := by
  rw [Pair.create, Pair.encoded_eq hp hv]
  intro t ht
  rw [Table.commit_putIf]
  by_cases hs : t.satisfies (.absent path) = true
  · rw [if_pos hs]
    refine ⟨fun other => ?_, rfl, .inl ⟨_, rfl⟩⟩
    show other ∈ t.entries.insert path _ ↔ _
    rw [Std.ExtTreeMap.mem_insert, Std.compare_eq_iff_eq, eq_comm]
  · rw [if_neg hs]
    refine ⟨fun other => ⟨.inr, fun h => ?_⟩, rfl, .inr rfl⟩
    rcases h with rfl | h
    · rw [Table.satisfies_absent_iff ht, ← ne_eq, Option.ne_none_iff_isSome] at hs
      exact Std.ExtTreeMap.mem_iff_isSome_getElem?.2 hs
    · exact h

theorem Handler.provides_create {o : WatchedObject} {path : String} (hp : o.key.path = .ok path) :
    (create o).Provides path (· = .ok ()) false := by
  refine .bind ((Pair.provides_create hp o.encode_value).mono fun result hr => ?_)
  rcases hr with ⟨revision, rfl⟩ | rfl <;> exact ⟨rfl, rfl⟩

/-! ## The objects of a list -/

/-- An object of a kind with a name. A namespace that is given is not empty. -/
structure WatchedObject.Listable (o : WatchedObject) (kind : Kind) : Prop where
  kind : o.kind = kind
  name : ∃ name, o.metadata.name = some name ∧ name ≠ ""
  space : o.metadata.namespace ≠ some ""

namespace WatchedObject.Listable

variable {o : WatchedObject} {kind : Kind} {n : ObjectName}

/-- Such an object is queued under the name under which it is cached. -/
theorem exists_name (h : o.Listable kind) :
    ∃ n, o.objectName? = some n ∧ o.cacheName? = some n := by
  obtain ⟨name, hname, hne⟩ := h.name
  have hcache : o.cacheName? = some ⟨o.metadata.namespace, name⟩ := by
    unfold cacheName? ObjectMeta.cacheName?
    rw [hname, Option.map_some]
  cases hspace : o.metadata.namespace with
  | none =>
    rw [hspace] at hcache
    have hallows : Scope.Allows .cluster ⟨none, name⟩ := ⟨rfl, hne⟩
    exact ⟨_, objectName?_eq_cacheName? hcache hallows, hcache⟩
  | some space =>
    rw [hspace] at hcache
    have hpart : space ≠ "" := fun heq => h.space (hspace.trans (congrArg some heq))
    have hallows : Scope.Allows .namespaced ⟨some space, name⟩ := ⟨⟨space, rfl, hpart⟩, hne⟩
    exact ⟨_, objectName?_eq_cacheName? hcache hallows, hcache⟩

theorem cacheName_eq (h : o.Listable kind) (hn : o.objectName? = some n) :
    o.cacheName? = some n := by
  obtain ⟨m, hm, hcache⟩ := h.exists_name
  cases hm.symm.trans hn
  exact hcache

theorem name_eq (h : o.Listable kind) (hn : o.objectName? = some n) :
    o.metadata.name = some n.name := by
  obtain ⟨name, hname, hcache⟩ := Option.map_eq_some_iff.1 (h.cacheName_eq hn)
  cases hcache
  exact hname

/-- The key belongs to the name. -/
theorem path_key (h : o.Listable kind) (hn : o.objectName? = some n) :
    o.key.path = .ok (kind.pathFor n) := by
  have hname := h.name_eq hn
  have hne : n.name ≠ "" := by
    obtain ⟨name, hname', hne⟩ := h.name
    cases hname.symm.trans hname'
    exact hne
  have hkind := h.kind
  subst hkind
  cases o with
  | node node =>
    have hname : node.metadata.name = some n.name := hname
    show (Key.node (node.metadata.name.getD "")).path = .ok (Key.hostRoot ++ n.name)
    rw [hname, Option.getD_some]
    exact if_neg hne
  | policy policy =>
    have hn : policy.metadata.objectName? = some n := hn
    have hwritten : n.toString ≠ "" := by
      unfold ObjectName.toString
      split
      · exact fun heq => hne (String.append_eq_empty_iff.1 heq).2
      · exact hne
    show (Key.policy ((policy.metadata.objectName?.map ObjectName.toString).getD "")).path =
      .ok (Key.policyRoot ++ n.toString)
    rw [hn, Option.map_some, Option.getD_some]
    exact if_neg hwritten

end WatchedObject.Listable

/-- The items that add listed objects. -/
def Wants (objects : List WatchedObject) (item : WorkItem) : Prop :=
  item.change = .add ∧ ∃ o ∈ objects, o.objectName? = some item.name

/-- The news of a complete list, which is compared with the cache in a given order. -/
def completeList (objects : List WatchedObject) (order : Arrangement := .sorted) :
    List WatchEvent :=
  .listBegins :: (objects.map .listed ++ [.listEnds order])

namespace Scene

variable {σ : Type}

/-- The scenes that moves lead to while certain news arrive in their order, and the news that are
still to come. -/
inductive Follows (backend : Backend σ) (first : Scene σ) (news : List WatchEvent) :
    List WatchEvent → Scene σ → Prop
  | start : Follows backend first news news first
  | hears {event : WatchEvent} {coming : List WatchEvent} {s s' : Scene σ}
      (h : Follows backend first news (event :: coming) s)
      (hs : s.move? backend (.takeIn event) = some s') : Follows backend first news coming s'
  | moves {m : Move} {coming : List WatchEvent} {s s' : Scene σ}
      (h : Follows backend first news coming s) (hm : ∀ event, m ≠ .takeIn event)
      (hs : s.move? backend m = some s') : Follows backend first news coming s'

/-! ## While the list is being read -/

variable {kind : Kind} {t : Table} {objects done : List WatchedObject} {s s' : Scene Table}
  {o : WatchedObject} {m : Move} {event : WatchEvent} {order : Arrangement}

/-- Part of the list has been read, and nothing has followed from it. -/
structure Gathering (kind : Kind) (t : Table) (done : List WatchedObject) (s : Scene Table) :
    Prop where
  kind : s.pipeline.kind = kind
  store : s.store = t
  owed : s.owed = []
  orderly : s.pipeline.Orderly
  backlog : ∃ backoff, s.pipeline.backlog = .initial backoff
  workers : ∀ w ∈ s.pipeline.workers, w = .idle
  uncached : s.pipeline.cache.objects = ∅
  arriving : ∀ o ∈ done, ∀ n, o.objectName? = some n →
    ∃ o' ∈ done, s.pipeline.cache.arriving[n]? = some o' ∧ o'.objectName? = some n
  held : ∀ item, item ∈ s.pipeline.listing.held ↔ Wants done item

theorem gathering_initial (kind : Kind) (t : Table) (backoff : Backoff) (maxRetries workers : Nat) :
    (initial kind backoff maxRetries workers t).Gathering kind t [] where
  kind := rfl
  store := rfl
  owed := rfl
  orderly := Pipeline.orderly_initial kind backoff maxRetries workers
  backlog := ⟨backoff, rfl⟩
  workers _ hw := List.eq_of_mem_replicate hw
  uncached := rfl
  arriving _ ho := absurd ho List.not_mem_nil
  held _ := ⟨fun h => absurd h List.not_mem_nil,
    fun ⟨_, _, ho, _⟩ => absurd ho List.not_mem_nil⟩

/-- Until the list is complete only time passes. -/
theorem Gathering.moves (h : s.Gathering kind t done) (hm : ∀ event, m ≠ .takeIn event)
    (hs : s.Moves Table.backend m s') : s'.Gathering kind t done := by
  obtain ⟨backoff, hbacklog⟩ := h.backlog
  cases hs with
  | takeIn => exact absurd rfl (hm _)
  | hand ho =>
    rw [h.owed] at ho
    cases ho
  | @advance i _ _ ha =>
    have hidle : ∀ {w : Worker}, s.pipeline.workers[i]? = some w → w = .idle :=
      fun hw => h.workers _ (List.mem_of_getElem? hw)
    cases ha with
    | takes hw ht =>
      rw [hbacklog] at ht
      cases ht
    | leaves hw ht hc =>
      rw [hbacklog] at hc
      cases hc
    | looks hw | concludes hw | talks hw | releases hw => cases hidle hw
  | fire hd =>
    rw [hbacklog] at hd
    cases hd
  | wait => exact { h with }

theorem Gathering.begins (h : s.Gathering kind t done)
    (hs : s.Moves Table.backend (.takeIn .listBegins) s') : s'.Gathering kind t [] := by
  cases hs with
  | takeIn ho hc =>
    cases hc
    exact { h with
      owed := rfl
      orderly := h.orderly.congr h.orderly.sound rfl rfl
      arriving := fun _ ho => absurd ho List.not_mem_nil
      held := fun item => ⟨fun h => absurd h List.not_mem_nil,
        fun ⟨_, _, ho, _⟩ => absurd ho List.not_mem_nil⟩ }

/-- With nothing in the cache a listed object is an addition. -/
theorem changed?_of_uncached {cache : Cache} {n : ObjectName} (hu : cache.objects = ∅)
    (hn : o.objectName? = some n) (hc : o.cacheName? = some n) :
    Listing.changed? o cache = some ⟨n, .add⟩ := by
  have hget : cache.get? n = none := by simp [Cache.get?, hu]
  unfold Listing.changed?
  rw [hn, hc]
  dsimp only
  rw [hget]

theorem Gathering.lists (h : s.Gathering kind t done) (ho : o.Listable kind)
    (hs : s.Moves Table.backend (.takeIn (.listed o)) s') :
    s'.Gathering kind t (done ++ [o]) := by
  obtain ⟨n, hn, hcache⟩ := ho.exists_name
  cases hs with
  | takeIn howed hc =>
    obtain ⟨m, hm, rfl⟩ := Option.map_eq_some_iff.1 hc
    cases hm.symm.trans hcache
    refine { h with
      owed := rfl
      orderly := h.orderly.congr h.orderly.sound rfl rfl
      arriving := fun o' ho' m hm => ?_
      held := fun item => ?_ }
    · show ∃ o' ∈ done ++ [o], (s.pipeline.cache.arriving.insert n o)[m]? = some o' ∧ _
      rw [Std.ExtTreeMap.getElem?_insert]
      simp only [Std.LawfulEqCmp.compare_eq_iff_eq]
      by_cases hnm : n = m
      · subst hnm
        exact ⟨o, by simp, if_pos rfl, hn⟩
      · have hold : o' ∈ done := by
          rcases List.mem_append.1 ho' with ho' | ho'
          · exact ho'
          · cases List.mem_singleton.1 ho'
            exact absurd (Option.some.inj (hn.symm.trans hm)) hnm
        obtain ⟨o₁, ho₁, harriving, hname⟩ := h.arriving o' hold m hm
        exact ⟨o₁, List.mem_append_left _ ho₁, (if_neg hnm).trans harriving, hname⟩
    · show item ∈ s.pipeline.listing.held ++ (Listing.changed? o s.pipeline.cache).toList ↔ _
      rw [changed?_of_uncached h.uncached hn hcache, List.mem_append, h.held]
      simp only [Option.toList_some, List.mem_singleton, Wants, List.mem_append]
      constructor
      · rintro (⟨hadd, o', ho', hname⟩ | rfl)
        · exact ⟨hadd, o', .inl ho', hname⟩
        · exact ⟨rfl, o, .inr rfl, hn⟩
      · rintro ⟨hadd, o', ho' | rfl, hname⟩
        · exact .inl ⟨hadd, o', ho', hname⟩
        · obtain ⟨name, change⟩ := item
          cases hn.symm.trans hname
          cases hadd
          exact .inr rfl

/-! ## Once the list is complete -/

/-- A worker that adds listed objects to a table. -/
def Adds (kind : Kind) (objects : List WatchedObject) (store : Table) : Worker → Prop
  | .holding item => Wants objects item
  | .talking item rest => Wants objects item ∧
      ∃ there, rest.Provides (kind.pathFor item.name) (· = .ok ()) there ∧
        (there = true → kind.pathFor item.name ∈ store.entries)
  | .releasing item => kind.pathFor item.name ∈ store.entries
  | .idle | .finished | .broken => True

/-- A path that is there stays there. -/
theorem Adds.mono {store store' : Table} {w : Worker} (h : Adds kind objects store w)
    (hs : ∀ path ∈ store.entries, path ∈ store'.entries) : Adds kind objects store' w := by
  cases w with
  | holding => exact h
  | talking item rest =>
    obtain ⟨hwants, there, hrest, hthere⟩ := h
    exact ⟨hwants, there, hrest, fun heq => hs _ (hthere heq)⟩
  | releasing item => exact hs _ h
  | idle | finished | broken => trivial

/-- What is wanted is on its way or there. -/
structure Delivering (kind : Kind) (t : Table) (objects : List WatchedObject) (s : Scene Table) :
    Prop where
  ofKind : s.pipeline.kind = kind
  orderly : s.pipeline.Orderly
  opened : s.pipeline.backlog.closed = false
  undelayed : s.pipeline.backlog.delayed = []
  owed : ∀ item ∈ s.owed, Wants objects item
  pending : ∀ n c, s.pipeline.backlog.pending[n]? = some c → Wants objects ⟨n, c⟩
  workers : ∀ w ∈ s.pipeline.workers, Adds kind objects s.store w
  cached : ∀ o ∈ objects, ∀ n, o.objectName? = some n →
    ∃ o' ∈ objects, s.pipeline.cache.objects[n]? = some o' ∧ o'.objectName? = some n
  valid : s.store.Valid
  kept : ∀ path ∈ t.entries, path ∈ s.store.entries
  paths : ∀ path ∈ s.store.entries, path ∈ t.entries ∨ ∃ o ∈ objects, o.key.path = .ok path
  progress : ∀ o ∈ objects, ∀ n, o.objectName? = some n →
    ⟨n, .add⟩ ∈ s.owed ∨ n ∈ s.pipeline.backlog.pending ∨ n ∈ s.pipeline.backlog.held ∨
      kind.pathFor n ∈ s.store.entries

theorem Gathering.ends (h : s.Gathering kind t objects) (ht : t.Valid)
    (hs : s.Moves Table.backend (.takeIn (.listEnds order)) s') : s'.Delivering kind t objects := by
  obtain ⟨backoff, hbacklog⟩ := h.backlog
  cases hs with
  | takeIn howed hc =>
    cases hc
    -- Nothing was cached, so nothing can have been left out of the list.
    have hleft : s.pipeline.listing.left s.pipeline.cache order = [] := by
      refine List.eq_nil_iff_forall_not_mem.2 fun item hitem => ?_
      obtain ⟨-, ⟨m, o, ho, -⟩, -⟩ := Listing.mem_left_iff_holds.1 hitem
      rw [h.uncached, Std.ExtTreeMap.getElem?_empty] at ho
      cases ho
    have howed : (s.pipeline.listing.observe (.listEnds order) s.pipeline.cache).2 =
        s.pipeline.listing.held := by
      show s.pipeline.listing.held ++ s.pipeline.listing.left s.pipeline.cache order = _
      rw [hleft, List.append_nil]
    have hempty : ∀ n : ObjectName, s.pipeline.backlog.pending[n]? = none := by
      intro n
      rw [hbacklog]
      exact Std.ExtTreeMap.getElem?_empty
    refine ⟨h.kind, h.orderly.congr h.orderly.sound rfl rfl, ?_, ?_, fun item hitem => ?_,
      fun n c hn => ?_, fun w hw => ?_, h.arriving, h.store ▸ ht, fun path hp => ?_,
      fun path hp => .inl ?_, fun o ho n hn => .inl ?_⟩
    · show s.pipeline.backlog.closed = false
      rw [hbacklog]
      rfl
    · show s.pipeline.backlog.delayed = []
      rw [hbacklog]
      rfl
    · have hitem : item ∈ (s.pipeline.listing.observe (.listEnds order) s.pipeline.cache).2 :=
        hitem
      rw [howed] at hitem
      exact (h.held item).1 hitem
    · cases (hempty n).symm.trans hn
    · rw [h.workers w hw]
      trivial
    · show path ∈ s.store.entries
      rwa [h.store]
    · have hp : path ∈ s.store.entries := hp
      rwa [h.store] at hp
    · show _ ∈ (s.pipeline.listing.observe (.listEnds order) s.pipeline.cache).2
      rw [howed]
      exact (h.held _).2 ⟨rfl, o, ho, hn⟩

theorem provides_delivery {cache : Cache} {item : WorkItem} (hadd : item.change = .add)
    (hc : cache.objects[item.name]? = some o) (ho : o.Listable kind)
    (hn : o.objectName? = some item.name) :
    (Pipeline.delivery kind cache item).Provides (kind.pathFor item.name) (· = .ok ()) false := by
  have hget : cache.get? item.name = some o := by
    unfold Cache.get?
    rw [hc]
  unfold Pipeline.delivery
  rw [hadd]
  dsimp only
  rw [hget]
  exact Handler.provides_create (ho.path_key hn)

/-- A worker goes on, and nothing else changes but what is counted. -/
theorem Delivering.setWorker {i : Nat} {w : Worker} {p : Pipeline} (h : s.Delivering kind t objects)
    (hp : p.Orderly) (heq : ∃ backoff journal, p = Pipeline.setWorker { s.pipeline with
      backlog := { s.pipeline.backlog with backoff }, journal } i w)
    (hw : Adds kind objects s.store w) :
    ({ s with pipeline := p } : Scene Table).Delivering kind t objects := by
  obtain ⟨backoff, journal, rfl⟩ := heq
  exact { h with
    orderly := hp
    workers := Worker.forall_mem_set h.workers i hw }

variable {i : Nat} {p : Pipeline} {store : Table}

/-- An item that is wanted is written under the path of its name. -/
theorem Delivering.writes {item : WorkItem} (h : s.Delivering kind t objects)
    (ho : ∀ o ∈ objects, o.Listable kind) (hw : Wants objects item) :
    (Pipeline.delivery s.pipeline.kind s.pipeline.cache item).Provides (kind.pathFor item.name)
      (· = .ok ()) false := by
  obtain ⟨hadd, o, hmem, hn⟩ := hw
  obtain ⟨o', hmem', hcached, hn'⟩ := h.cached o hmem _ hn
  rw [h.ofKind]
  exact provides_delivery hadd hcached (ho o' hmem') hn'

theorem Delivering.advance (h : s.Delivering kind t objects) (ho : ∀ o ∈ objects, o.Listable kind)
    (ha : s.pipeline.Advances Table.backend s.now i s.store p store) :
    ({ s with pipeline := p, store } : Scene Table).Delivering kind t objects := by
  have horderly := h.orderly.advance ha
  cases ha with
  | @takes item backlog hw ht =>
    obtain ⟨rest, -, hchange, -, rfl⟩ := Backlog.take?_eq_some h.orderly.sound ht
    have hwants : Wants objects item := h.pending _ _ hchange
    refine { h with
      orderly := horderly
      pending := fun n c hn => ?_
      workers := Worker.forall_mem_set h.workers i hwants
      progress := fun o ho n hn => ?_ }
    · have hn := (Backlog.getElem?_pending_take h.orderly.sound ht).symm.trans hn
      split at hn
      · cases hn
      · exact h.pending n c hn
    · by_cases heq : item.name = n
      · exact .inr (.inr (.inl ((Backlog.mem_held_take h.orderly.sound ht).2 (.inl heq))))
      · rcases h.progress o ho n hn with howed | hpending | hheld | hthere
        · exact .inl howed
        · refine .inr (.inl ?_)
          have hother : compare item.name n ≠ .eq := fun hcompare =>
            heq (Std.LawfulEqCmp.compare_eq_iff_eq.1 hcompare)
          exact Std.ExtTreeMap.mem_erase.2 ⟨hother, hpending⟩
        · exact .inr (.inr (.inl ((Backlog.mem_held_take h.orderly.sound ht).2 (.inr hheld))))
        · exact .inr (.inr (.inr hthere))
  | leaves hw ht hc =>
    rw [h.opened] at hc
    cases hc
  | @looks item hw =>
    have hwants : Wants objects item := h.workers _ (List.mem_of_getElem? hw)
    exact h.setWorker horderly ⟨_, _, rfl⟩ ⟨hwants, false, h.writes ho hwants, nofun⟩
  | @concludes item result hw =>
    obtain ⟨hwants, there, ⟨hthere, rfl⟩, hpath⟩ := h.workers _ (List.mem_of_getElem? hw)
    exact h.setWorker horderly ⟨_, _, rfl⟩ (hpath hthere)
  | @talks item rest hw hr =>
    obtain ⟨hwants, there, hrest, hpath⟩ := h.workers _ (List.mem_of_getElem? hw)
    obtain ⟨hnext, hvalid, hkept, hpaths⟩ := hrest.step h.valid hpath s.pipeline.journal
    refine { h with
      orderly := horderly
      workers := ?_
      valid := hvalid
      kept := fun path hp => hkept path (h.kept path hp)
      paths := fun path hp => ?_
      progress := fun o ho n hn => ?_ }
    · have hothers : ∀ w ∈ s.pipeline.workers, Adds kind objects _ w := fun w hmem =>
        (h.workers w hmem).mono hkept
      exact Worker.forall_mem_set hothers i ⟨hwants, hnext⟩
    · rcases hpaths path hp with rfl | hold
      · obtain ⟨-, o, hmem, hn⟩ := hwants
        exact .inr ⟨o, hmem, (ho o hmem).path_key hn⟩
      · exact h.paths path hold
    · rcases h.progress o ho n hn with howed | hpending | hheld | hthere
      · exact .inl howed
      · exact .inr (.inl hpending)
      · exact .inr (.inr (.inl hheld))
      · exact .inr (.inr (.inr (hkept _ hthere)))
  | @releases item hw =>
    have hthere : kind.pathFor item.name ∈ s.store.entries := h.workers _ (List.mem_of_getElem? hw)
    refine { h with
      orderly := horderly
      opened := Backlog.closed_release.trans h.opened
      undelayed := Backlog.delayed_release.trans h.undelayed
      pending := ?_
      workers := Worker.forall_mem_set h.workers i trivial
      progress := fun o ho n hn => ?_ }
    · show ∀ n c, (s.pipeline.backlog.release item.name).pending[n]? = some c → _
      rw [Backlog.pending_release]
      exact h.pending
    · show _ ∨ n ∈ (s.pipeline.backlog.release item.name).pending ∨
        n ∈ (s.pipeline.backlog.release item.name).held ∨ _
      rw [Backlog.pending_release, Backlog.mem_held_release]
      by_cases heq : item.name = n
      · exact .inr (.inr (.inr (heq ▸ hthere)))
      · rcases h.progress o ho n hn with howed | hpending | hheld | hthere
        · exact .inl howed
        · exact .inr (.inl hpending)
        · exact .inr (.inr (.inl ⟨heq, hheld⟩))
        · exact .inr (.inr (.inr hthere))

theorem Delivering.hands {item : WorkItem} {owed : List WorkItem}
    (h : s.Delivering kind t objects) (howed : s.owed = item :: owed) :
    ({ s with pipeline := s.pipeline.enqueue item, owed } : Scene Table).Delivering kind t
      objects := by
  refine { h with
    orderly := h.orderly.congr (h.orderly.sound.add item) rfl Backlog.held_add
    opened := Backlog.closed_add.trans h.opened
    undelayed := Backlog.delayed_add.trans h.undelayed
    owed := fun other hmem => h.owed other (howed ▸ List.mem_cons_of_mem _ hmem)
    pending := fun n c hn => ?_
    progress := fun o ho n hn => ?_ }
  · have hn : (s.pipeline.backlog.add item).pending[n]? = some c := hn
    rw [Backlog.getElem?_pending_add h.opened] at hn
    split at hn
    · rename_i heq
      cases hn
      exact heq ▸ h.owed item (howed ▸ List.mem_cons_self)
    · exact h.pending n c hn
  · show _ ∨ n ∈ (s.pipeline.backlog.add item).pending ∨ n ∈ (s.pipeline.backlog.add item).held ∨ _
    rw [Backlog.mem_pending_add h.opened, Backlog.held_add]
    rcases h.progress o ho n hn with hmem | hpending | hheld | hthere
    · rw [howed, List.mem_cons] at hmem
      rcases hmem with rfl | hmem
      · exact .inr (.inl (.inl rfl))
      · exact .inl hmem
    · exact .inr (.inl (.inr hpending))
    · exact .inr (.inr (.inl hheld))
    · exact .inr (.inr (.inr hthere))

theorem Delivering.moves (h : s.Delivering kind t objects) (ho : ∀ o ∈ objects, o.Listable kind)
    (hm : ∀ event, m ≠ .takeIn event) (hs : s.Moves Table.backend m s') :
    s'.Delivering kind t objects := by
  cases hs with
  | takeIn => exact absurd rfl (hm _)
  | hand howed => exact h.hands howed
  | advance ha => exact h.advance ho ha
  | fire hd =>
    rw [h.undelayed] at hd
    cases hd
  | wait => exact { h with }

/-! ## The whole start -/

/-- How far a pipeline has come with its first list, told from the news that are still to come. -/
inductive Restarting (kind : Kind) (t : Table) (objects : List WatchedObject)
    (order : Arrangement) : List WatchEvent → Scene Table → Prop
  | unread {s : Scene Table} (h : s.Gathering kind t []) :
      Restarting kind t objects order (completeList objects order) s
  | reading {done rest : List WatchedObject} {s : Scene Table} (hd : objects = done ++ rest)
      (h : s.Gathering kind t done) :
      Restarting kind t objects order (rest.map .listed ++ [.listEnds order]) s
  | read {s : Scene Table} (h : s.Delivering kind t objects) :
      Restarting kind t objects order [] s

theorem Restarting.moves {coming : List WatchEvent}
    (h : Restarting kind t objects order coming s)
    (ho : ∀ o ∈ objects, o.Listable kind) (hm : ∀ event, m ≠ .takeIn event)
    (hs : s.Moves Table.backend m s') : Restarting kind t objects order coming s' := by
  cases h with
  | unread h => exact .unread (h.moves hm hs)
  | reading hd h => exact .reading hd (h.moves hm hs)
  | read h => exact .read (h.moves ho hm hs)

theorem Restarting.hears {coming : List WatchEvent} (ht : t.Valid)
    (h : Restarting kind t objects order (event :: coming) s) (ho : ∀ o ∈ objects, o.Listable kind)
    (hs : s.Moves Table.backend (.takeIn event) s') :
    Restarting kind t objects order coming s' := by
  generalize hnews : event :: coming = news at h
  cases h with
  | unread h =>
    cases hnews
    exact .reading rfl (h.begins hs)
  | @reading done rest _ hd h =>
    cases rest with
    | nil =>
      cases hnews
      rw [List.append_nil] at hd
      subst hd
      exact .read (h.ends ht hs)
    | cons o rest =>
      cases hnews
      have hmem : o ∈ objects := by
        rw [hd]
        exact List.mem_append_right _ List.mem_cons_self
      exact .reading (by rw [hd, List.append_assoc, List.singleton_append]) (h.lists (ho o hmem) hs)
  | read => cases hnews

theorem Follows.restarting {backoff : Backoff} {maxRetries workers : Nat}
    {coming : List WatchEvent} (ht : t.Valid) (ho : ∀ o ∈ objects, o.Listable kind)
    (h : Follows Table.backend (initial kind backoff maxRetries workers t)
      (completeList objects order) coming s) : Restarting kind t objects order coming s := by
  induction h with
  | start => exact .unread (gathering_initial kind t backoff maxRetries workers)
  | hears _ hs ih => exact ih.hears ht ho (moves_of_move? hs)
  | moves _ hm hs ih => exact ih.moves ho hm (moves_of_move? hs)

/-- Whatever table the pipeline starts on: once what the list has brought has been delivered, the
table has the keys that it had and those of the listed objects. -/
theorem keys_after_restart {backoff : Backoff} {maxRetries workers : Nat} (ht : t.Reached)
    (ho : ∀ o ∈ objects, o.Listable kind)
    (h : Follows Table.backend (initial kind backoff maxRetries workers t)
      (completeList objects order) [] s)
    (howed : s.owed = []) (hq : ∀ o ∈ objects, ∀ n, o.objectName? = some n → s.Quiet n)
    (path : String) :
    path ∈ s.store.entries ↔ path ∈ t.entries ∨ ∃ o ∈ objects, o.key.path = .ok path := by
  have hrestarting := h.restarting ht.valid ho
  generalize hnews : ([] : List WatchEvent) = news at hrestarting
  cases hrestarting with
  | unread => cases hnews
  | reading => simp at hnews
  | read hd =>
    refine ⟨hd.paths path, fun hp => ?_⟩
    rcases hp with hp | ⟨o, hmem, hp⟩
    · exact hd.kept path hp
    · obtain ⟨n, hn, -⟩ := (ho o hmem).exists_name
      rw [(ho o hmem).path_key hn] at hp
      cases hp
      obtain ⟨hpending, hworkers⟩ := hq o hmem n hn
      rcases hd.progress o hmem n hn with hin | hin | hin | hin
      · rw [howed] at hin
        cases hin
      · exact absurd hin hpending
      · obtain ⟨i, w, hw, hname⟩ := hd.orderly.had hin
        exact absurd hname (hworkers w (List.mem_of_getElem? hw))
      · exact hin

/-! ## An object that goes away between two runs -/

/-- The news that moves bring. -/
def heard : List Move → List WatchEvent
  | [] => []
  | .takeIn event :: moves => event :: heard moves
  | _ :: moves => heard moves

theorem Follows.play {σ : Type} {backend : Backend σ} {first s : Scene σ}
    {news coming : List WatchEvent} {past : History σ} (moves : List Move)
    (h : Follows backend first news (heard moves ++ coming) s)
    (hp : s.Playable backend (fun _ _ => True) moves) :
    Follows backend first news coming (s.play backend past moves).2 := by
  induction moves generalizing s past with
  | nil => exact h
  | cons m moves ih =>
    obtain ⟨-, hs, hrest⟩ := hp
    obtain ⟨s', hs'⟩ := Option.isSome_iff_exists.1 hs
    have hafter : s.after backend m = s' := by rw [after, hs', Option.getD_some]
    rw [Scene.play]
    refine ih ?_ hrest
    rw [hafter]
    cases m with
    | takeIn event => exact h.hears hs'
    | hand | advance | fire | wait =>
      refine h.moves (fun event heq => ?_) hs'
      cases heq

section Example

def nodeNamed (name : String) : WatchedObject :=
  .node { metadata := { name := some name, resourceVersion := some "1" } }

/-- A policy in the namespace whose name is the empty text. -/
def unspacedPolicy : WatchedObject :=
  .policy { metadata := { name := some "p1", «namespace» := some "" }, spec := {} }

def earlierStart (kind : Kind) : Shift Table :=
  .initial kind ⟨5000000⟩ ⟨1000000000⟩ ⟨1, 5, .ofSecs 60⟩ .initial

/-- Objects are listed, and some work is done before the controller is told to stop. -/
def earlierMoves (objects : List WatchedObject) : List Shift.Move :=
  .start :: (completeList objects).map .takeIn ++ objects.map (fun _ => .hand) ++
    [.respond .cache] ++ List.replicate (6 * objects.length) (.work 0) ++
    [.tellToStop, .respond .stopRequest, .work 0, .respond .workers]

def earlier (kind : Kind) (objects : List WatchedObject) : Record × Shift Table :=
  (earlierStart kind).play Table.backend [] (earlierMoves objects)

/-- A pipeline that starts on a table. -/
def anew (kind : Kind) (t : Table) : Scene Table :=
  initial kind (.initial ⟨5000000⟩ ⟨1000000000⟩) 5 1 t

/-- Objects are listed, and the worker takes as many steps as it needs for what follows. -/
def laterMoves (objects : List WatchedObject) (steps : Nat) : List Move :=
  (completeList objects).map .takeIn ++ objects.map (fun _ => .hand) ++
    List.replicate steps (.advance 0)

/-- An earlier run has listed some objects, and a later one lists others. -/
def later (kind : Kind) (before objects : List WatchedObject) (steps : Nat) : Scene Table :=
  ((anew kind (earlier kind before).2.store).play Table.backend [] (laterMoves objects steps)).2

/-- The list has been read and delivered after an earlier run has been stopped. -/
structure Restarted (kind : Kind) (objects : List WatchedObject) (old : Shift Table)
    (s : Scene Table) : Prop where
  reached : ∃ past, Shift.Reaches Table.backend (earlierStart kind) past old
  stopped : old.controller.state = .stopped
  follows : Follows Table.backend (anew kind old.store) (completeList objects) [] s
  owed : s.owed = []
  quiet : ∀ o ∈ objects, ∀ n, o.objectName? = some n → s.Quiet n

theorem restarted_nodes : Restarted .node [nodeNamed "n2"]
    (earlier .node [nodeNamed "n1"]).2 (later .node [nodeNamed "n1"] [nodeNamed "n2"] 6) where
  reached := ⟨_, Shift.Reaches.start.play (earlierMoves [nodeNamed "n1"])⟩
  stopped := by decide +kernel
  follows := by
    refine Follows.play (laterMoves [nodeNamed "n2"] 6) .start ?_
    decide +kernel
  owed := by decide +kernel
  quiet o ho n hn := by
    cases List.mem_singleton.1 ho
    cases hn
    decide +kernel

theorem restarted_unspaced : Restarted .policy [unspacedPolicy] (earlier .policy []).2
    (later .policy [] [unspacedPolicy] 4) where
  reached := ⟨_, Shift.Reaches.start.play (earlierMoves [])⟩
  stopped := by decide +kernel
  follows := by
    refine Follows.play (laterMoves [unspacedPolicy] 4) .start ?_
    decide +kernel
  owed := by decide +kernel
  quiet o ho n hn := by
    cases List.mem_singleton.1 ho
    cases hn
    decide +kernel

/-- A key stays whose object is not listed any more; and a policy is not written if its namespace is
the empty text, since it is cached there and looked up outside of all namespaces. -/
theorem keys_differ_from_list :
    (∃ old s, Restarted .node [nodeNamed "n2"] old s ∧ "/nimbess/host/n1" ∈ s.store.entries ∧
      ∀ o ∈ [nodeNamed "n2"], o.key.path ≠ .ok "/nimbess/host/n1") ∧
    ∃ old s, Restarted .policy [unspacedPolicy] old s ∧
      unspacedPolicy.key.path = .ok "/nimbess/unp/p1" ∧
      "/nimbess/unp/p1" ∉ s.store.entries := by
  refine ⟨⟨_, _, restarted_nodes, by decide +kernel, fun o ho => ?_⟩,
    ⟨_, _, restarted_unspaced, rfl, by decide +kernel⟩⟩
  cases List.mem_singleton.1 ho
  exact fun heq => absurd (Except.ok.inj heq) (by decide)

theorem keys_after_restart_of_later :
    ∃ old s, Restarted .node [nodeNamed "n2"] old s ∧
      ∀ path, path ∈ s.store.entries ↔
        path ∈ old.store.entries ∨ ∃ o ∈ [nodeNamed "n2"], o.key.path = .ok path := by
  have h := restarted_nodes
  obtain ⟨past, hr⟩ := h.reached
  have hlistable : ∀ o ∈ [nodeNamed "n2"], o.Listable .node := by
    intro o ho
    cases List.mem_singleton.1 ho
    exact ⟨rfl, ⟨"n2", rfl, by decide⟩, nofun⟩
  exact ⟨_, _, h, keys_after_restart (hr.reached .initial) hlistable h.follows h.owed h.quiet⟩

end Example

end Scene

end ClusterSync
