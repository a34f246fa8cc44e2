import ClusterSync.Proofs.Watch.Report

/-!
# Looking up what was reported

A watch reports names, and whoever works on a report looks the name up in the cache. Objects are
cached under the namespace that they have, and queued without it if it is the empty text.

**Theorem (`Desk.finds`).** In whatever order events come, an object that is queued under the name
of an addition or an update is cached as soon as that is reported. Looking the name up gives such an
object, unless all of them have an empty namespace; then it gives nothing.

`Desk.Backs` says what each event preserves: the work that is held back while a list is being read
is about objects of that list.
-/

namespace ClusterSync

/-! ## Maps of objects -/

section Objects

variable {objects : Std.ExtTreeMap ObjectName WatchedObject} {P : WatchedObject → Prop}
  {n m : ObjectName} {o : WatchedObject}

/-- The objects have names, each is at the one under which it is cached, and something else holds
of them. -/
def Keyed (P : WatchedObject → Prop) (objects : Std.ExtTreeMap ObjectName WatchedObject) : Prop :=
  ∀ (n : ObjectName) (o : WatchedObject), objects[n]? = some o →
    o.cacheName? = some n ∧ o.IsNamed ∧ P o

/-- One of the objects is queued under a name. -/
def Has (objects : Std.ExtTreeMap ObjectName WatchedObject) (n : ObjectName) : Prop :=
  ∃ (m : ObjectName) (o : WatchedObject), objects[m]? = some o ∧ o.objectName? = some n

theorem keyed_empty : Keyed P ∅ := fun n o h => by
  rw [Std.ExtTreeMap.getElem?_empty] at h
  cases h

theorem Keyed.insert (h : Keyed P objects) (hn : o.cacheName? = some n) (ho : o.IsNamed)
    (hp : P o) : Keyed P (objects.insert n o) := by
  intro m p hm
  simp only [Std.ExtTreeMap.getElem?_insert, Std.LawfulEqCmp.compare_eq_iff_eq] at hm
  split at hm
  · rename_i heq
    cases hm
    exact ⟨heq ▸ hn, ho, hp⟩
  · exact h m p hm

theorem Keyed.erase (h : Keyed P objects) (n : ObjectName) : Keyed P (objects.erase n) := by
  intro m p hm
  simp only [Std.ExtTreeMap.getElem?_erase, Std.LawfulEqCmp.compare_eq_iff_eq] at hm
  split at hm
  · cases hm
  · exact h m p hm

theorem Keyed.objectName (h : Keyed P objects) (ho : objects[m]? = some o) :
    o.objectName? = some m.queued :=
  WatchedObject.objectName?_eq_of_cacheName? (h m o ho).2.1 (h m o ho).1

theorem has_insert_self (ho : o.objectName? = some m) : Has (objects.insert n o) m :=
  ⟨n, o, Std.ExtTreeMap.getElem?_insert_self, ho⟩

/-- An object takes the place only of one that is queued under the same name. -/
theorem Keyed.has_insert (h : Keyed P objects) (hn : o.cacheName? = some n) (ho : o.IsNamed)
    (hm : Has objects m) : Has (objects.insert n o) m := by
  obtain ⟨k, p, hp, hname⟩ := hm
  by_cases hk : n = k
  · subst hk
    have hsame := (h.objectName hp).symm.trans hname
    exact has_insert_self ((WatchedObject.objectName?_eq_of_cacheName? ho hn).trans hsame)
  · refine ⟨k, p, ?_, hname⟩
    simp only [Std.ExtTreeMap.getElem?_insert, Std.LawfulEqCmp.compare_eq_iff_eq, if_neg hk]
    exact hp

end Objects

/-! ## Looking up -/

namespace Cache

variable {c : Cache} {P : WatchedObject → Prop} {n : ObjectName}

/-- Looking a name up gives an object that is queued under it. -/
def Finds (c : Cache) (n : ObjectName) : Prop :=
  ∃ o, c.get? n = some o ∧ o.objectName? = some n

/-- An object that is queued under a name is cached, and its namespace is not the empty text. -/
def Offers (c : Cache) (n : ObjectName) : Prop :=
  ∃ (m : ObjectName) (o : WatchedObject), c.objects[m]? = some o ∧ o.objectName? = some n ∧
    o.metadata.namespace ≠ some ""

theorem space?_eq_of_cacheName? {o : WatchedObject} (h : o.cacheName? = some n) :
    o.metadata.namespace = n.space? := by
  obtain ⟨name, -, rfl⟩ := Option.map_eq_some_iff.1 h
  rfl

/-- An object whose namespace is not the empty text is cached where its name is looked up. -/
theorem offers_iff (hk : Keyed P c.objects) :
    c.Offers n ↔ c.objects[n]? ≠ none ∧ n.space? ≠ some "" := by
  constructor
  · rintro ⟨m, o, ho, hname, hspace⟩
    rw [space?_eq_of_cacheName? (hk m o ho).1] at hspace
    have hqueued := (hk.objectName ho).symm.trans hname
    rw [ObjectName.queued_of_ne hspace] at hqueued
    cases hqueued
    exact ⟨by rw [ho]; nofun, hspace⟩
  · rintro ⟨hne, hspace⟩
    obtain ⟨o, ho⟩ := Option.ne_none_iff_exists'.1 hne
    refine ⟨n, o, ho, ?_, by rwa [space?_eq_of_cacheName? (hk n o ho).1]⟩
    rw [hk.objectName ho, ObjectName.queued_of_ne hspace]

/-- An object that is queued under a name is found under it or is one of those with an empty
namespace, which nobody finds. -/
theorem get?_cases (hk : Keyed P c.objects) (h : Has c.objects n) :
    c.Finds n ∧ c.Offers n ∨ c.get? n = none ∧ ¬ c.Offers n := by
  by_cases hoffers : c.Offers n
  · obtain ⟨hne, hspace⟩ := (offers_iff hk).1 hoffers
    obtain ⟨o, ho⟩ := Option.ne_none_iff_exists'.1 hne
    have hname := hk.objectName ho
    rw [ObjectName.queued_of_ne hspace] at hname
    exact .inl ⟨⟨o, by rw [get?, ho], hname⟩, hoffers⟩
  · refine .inr ⟨?_, hoffers⟩
    obtain ⟨m, o, ho, hname⟩ := h
    have hspace : m.space? = some "" := Classical.not_not.1 fun hne =>
      hoffers ⟨m, o, ho, hname, by rwa [space?_eq_of_cacheName? (hk m o ho).1]⟩
    have hqueued := (hk.objectName ho).symm.trans hname
    rw [ObjectName.queued_of_eq hspace] at hqueued
    cases hqueued
    -- The name has no namespace, so both attempts of the lookup are made under the name itself.
    have hnone : c.objects[ObjectName.cluster m.name]? = none := Classical.not_not.1 fun hne =>
      hoffers ((offers_iff hk).2 ⟨hne, nofun⟩)
    have hname? : (ObjectName.cluster m.name).name = m.name := rfl
    simp only [get?, hname?, hnone]

end Cache

/-! ## Reports and what backs them -/

/-- The object that an event is about. -/
def WatchEvent.object? : WatchEvent → Option WatchedObject
  | .applied o | .deleted o | .listed o => some o
  | .listBegins | .listEnds _ => none

theorem Listing.changed?_eq_some {o : WatchedObject} {c : Cache} {item : WorkItem}
    (h : changed? o c = some item) : o.objectName? = some item.name := by
  unfold changed? at h
  split at h
  · rename_i name cached hname _
    split at h
    · cases h
      exact hname
    · split at h <;> cases h
      exact hname
  · cases h

namespace Desk

variable {d d' : Desk} {P : WatchedObject → Prop} {past notices : List Notice}
  {event : WatchEvent}

/-- The cache holds what it should, and the list that is being read has the objects that the work
held back is about. -/
structure Backs (d : Desk) (P : WatchedObject → Prop) : Prop where
  objects : Keyed P d.cache.objects
  arriving : Keyed P d.cache.arriving
  held : ∀ item ∈ d.listing.held, Has d.cache.arriving item.name

/-- What is reported as an addition or an update is cached. -/
def Notice.Backed (P : WatchedObject → Prop) (x : Notice) : Prop :=
  Keyed P x.after.objects ∧ (x.item.change ≠ .delete → Has x.after.objects x.item.name)

theorem backs_initial (P : WatchedObject → Prop) : initial.Backs P where
  objects := keyed_empty
  arriving := keyed_empty
  held _ h := absurd h List.not_mem_nil

theorem Backs.take (h : d.Backs P) (hn : ∀ o ∈ event.object?, o.IsNamed ∧ P o) :
    ∃ d' notices, d.take? event = some (d', notices) ∧ d'.Backs P ∧
      ∀ x ∈ notices, x.Backed P := by
  obtain ⟨listing, cache, reading⟩ := d
  obtain ⟨hobjects, harriving, hheld⟩ := h
  cases event with
  | applied o =>
    obtain ⟨ho, hp⟩ := hn o rfl
    obtain ⟨n, hcache, -⟩ := ho.names
    have haccept : cache.accept? (.applied o) =
        some { cache with objects := cache.objects.insert n o } := by
      rw [Cache.accept?, hcache]
      rfl
    refine ⟨_, _, congrArg (Option.map _) haccept,
      ⟨hobjects.insert hcache ho hp, harriving, hheld⟩, fun x hx => ?_⟩
    obtain ⟨item, hitem, rfl⟩ := List.mem_map.1 hx
    have hname := Listing.changed?_eq_some (Option.mem_toList.1 hitem)
    exact ⟨hobjects.insert hcache ho hp, fun _ => has_insert_self hname⟩
  | deleted o =>
    obtain ⟨ho, -⟩ := hn o rfl
    obtain ⟨n, hcache, -⟩ := ho.names
    have haccept : cache.accept? (.deleted o) =
        some { cache with objects := cache.objects.erase n } := by
      rw [Cache.accept?, hcache]
      rfl
    refine ⟨_, _, congrArg (Option.map _) haccept,
      ⟨hobjects.erase n, harriving, hheld⟩, fun x hx => ?_⟩
    obtain ⟨item, hitem, rfl⟩ := List.mem_map.1 hx
    obtain ⟨name, -, rfl⟩ := Option.map_eq_some_iff.1 (Option.mem_toList.1 hitem)
    exact ⟨hobjects.erase n, fun hne => absurd rfl hne⟩
  | listBegins =>
    exact ⟨_, _, rfl, ⟨hobjects, keyed_empty, fun _ hi => absurd hi List.not_mem_nil⟩,
      fun _ hx => absurd hx List.not_mem_nil⟩
  | listed o =>
    obtain ⟨ho, hp⟩ := hn o rfl
    obtain ⟨n, hcache, -⟩ := ho.names
    have haccept : cache.accept? (.listed o) =
        some { cache with arriving := cache.arriving.insert n o } := by
      rw [Cache.accept?, hcache]
      rfl
    refine ⟨_, _, congrArg (Option.map _) haccept,
      ⟨hobjects, harriving.insert hcache ho hp, fun item hi => ?_⟩,
      fun _ hx => absurd hx List.not_mem_nil⟩
    rcases List.mem_append.1 hi with hi | hi
    · exact harriving.has_insert hcache ho (hheld item hi)
    · exact has_insert_self (Listing.changed?_eq_some (Option.mem_toList.1 hi))
  | listEnds order =>
    refine ⟨_, _, rfl, ⟨harriving, keyed_empty, fun _ hi => absurd hi List.not_mem_nil⟩,
      fun x hx => ?_⟩
    obtain ⟨item, hitem, rfl⟩ := List.mem_map.1 hx
    refine ⟨harriving, fun hne => ?_⟩
    rcases List.mem_append.1 hitem with hi | hi
    · exact hheld item hi
    · exact absurd (Listing.mem_left_iff_holds.1 hi).1 hne

theorem Backs.run {events : List WatchEvent} (h : d.Backs P) (hpast : ∀ x ∈ past, x.Backed P)
    (hn : ∀ event ∈ events, ∀ o ∈ event.object?, o.IsNamed ∧ P o) :
    ∃ past' d', run? past d events = some (past', d') ∧ ∀ x ∈ past', x.Backed P := by
  induction events generalizing d past with
  | nil => exact ⟨past, d, rfl, hpast⟩
  | cons event events ih =>
    obtain ⟨d', notices, htake, hbacks, hnotices⟩ := h.take (hn event List.mem_cons_self)
    have hpast' : ∀ x ∈ notices.reverse ++ past, x.Backed P := by
      intro x hx
      rcases List.mem_append.1 hx with hx | hx
      · exact hnotices x (List.mem_reverse.1 hx)
      · exact hpast x hx
    obtain ⟨past', d'', hrun, hbacked⟩ :=
      ih hbacks hpast' fun event' hm => hn event' (List.mem_cons_of_mem _ hm)
    refine ⟨past', d'', ?_, hbacked⟩
    rw [run?, htake]
    exact hrun

/-- Right after it was reported, an addition or an update is about a name that is looked up with
success, unless the objects queued under the name all have an empty namespace. -/
theorem finds {events : List WatchEvent} (h : ∀ event ∈ events, ∀ o ∈ event.object?, o.IsNamed) :
    ∃ past d, initial.run? [] events = some (past, d) ∧
      ∀ x ∈ past, x.item.change ≠ .delete →
        x.after.Holds x.item.name ∧
        (x.after.Finds x.item.name ∧ x.after.Offers x.item.name ∨
          x.after.get? x.item.name = none ∧ ¬ x.after.Offers x.item.name) ∧
        ((∀ event ∈ events, ∀ o ∈ event.object?, o.metadata.namespace ≠ some "") →
          x.after.Finds x.item.name) := by
  -- Every cached object has come with one of the events.
  let came (o : WatchedObject) : Prop := ∃ event ∈ events, o ∈ event.object?
  have hcame : ∀ event ∈ events, ∀ o ∈ event.object?, o.IsNamed ∧ came o :=
    fun event hm o ho => ⟨h event hm o ho, event, hm, ho⟩
  obtain ⟨past, d, hrun, hbacked⟩ :=
    (backs_initial came).run (fun _ hx => absurd hx List.not_mem_nil) hcame
  refine ⟨past, d, hrun, fun x hx hchange => ?_⟩
  obtain ⟨hkeyed, hhas⟩ := hbacked x hx
  have hcases := Cache.get?_cases hkeyed (hhas hchange)
  refine ⟨hhas hchange, hcases, fun hspaces => ?_⟩
  obtain ⟨m, o, ho, hname⟩ := hhas hchange
  obtain ⟨event, hm, hevent⟩ := (hkeyed m o ho).2.2
  have hoffers : x.after.Offers x.item.name := ⟨m, o, ho, hname, hspaces event hm o hevent⟩
  rcases hcases with ⟨hfinds, -⟩ | ⟨-, hnot⟩
  · exact hfinds
  · exact absurd hoffers hnot

section Example

/-- A node of some version with some namespace. -/
def nodeIn (space : Option String) (name version : String) : WatchedObject :=
  .node {
    metadata := { name := some name, «namespace» := space, resourceVersion := some version } }

/-- A list that never began ends, and the nodes of the next one are listed among other changes. -/
def unordered (space : Option String) : List WatchEvent :=
  [.listed (nodeIn none "a" "1"), .applied (nodeIn (some "ns") "b" "1"), .listEnds, .listBegins,
    .listed (nodeIn space "a" "2"), .listed (nodeIn none "a" "3"),
    .deleted (nodeIn none "a" "1"), .listEnds]

theorem finds_of_unordered :
    (∀ event ∈ unordered (some ""), ∀ o ∈ event.object?, o.IsNamed) ∧
    (∃ past d, initial.run? [] (unordered (some "")) = some (past, d) ∧
      ∀ x ∈ past, x.item.change ≠ .delete → x.after.Holds x.item.name) ∧
    ∃ past d, initial.run? [] (unordered (some "ns")) = some (past, d) ∧
      ∀ x ∈ past, x.item.change ≠ .delete → x.after.Finds x.item.name := by
  have h : ∀ space, ∀ event ∈ unordered space, ∀ o ∈ event.object?, o.IsNamed := by
    simp [unordered, WatchEvent.object?, WatchedObject.IsNamed, nodeIn, WatchedObject.metadata]
  have hspaces : ∀ event ∈ unordered (some "ns"), ∀ o ∈ event.object?,
      o.metadata.namespace ≠ some "" := by
    simp [unordered, WatchEvent.object?, nodeIn, WatchedObject.metadata]
  obtain ⟨past, d, hrun, hfinds⟩ := finds (h (some ""))
  obtain ⟨past', d', hrun', hfinds'⟩ := finds (h (some "ns"))
  exact ⟨h _, ⟨past, d, hrun, fun x hx hchange => (hfinds x hx hchange).1⟩,
    past', d', hrun', fun x hx hchange => (hfinds' x hx hchange).2.2 hspaces⟩

/-- A node that has come with an empty namespace is not found right after it was reported. -/
theorem missed_of_emptyNamespace :
    (nodeIn (some "") "a" "1").IsNamed ∧
    ∃ x d, initial.run? [] [.applied (nodeIn (some "") "a" "1")] = some ([x], d) ∧
      x.item.change = .add ∧ ¬ x.after.Finds x.item.name := by
  refine ⟨⟨"a", rfl, by decide⟩, _, _, rfl, by decide +kernel, ?_⟩
  rintro ⟨o, ho, -⟩
  have hnone : (Cache.initial.accept? (.applied (nodeIn (some "") "a" "1"))).bind
      (·.get? (.cluster "a")) = none := by decide +kernel
  cases hnone.symm.trans ho

end Example

end Desk

end ClusterSync
