import ClusterSync.Proofs.Object.Scope
import ClusterSync.Watch.Listing

/-!
# The work that follows from news

A feed is what may be expected of a watch: objects of one kind with names of one scope, and lists
that begin before they end and are not interrupted by single changes.

**Theorem (`Feed.news`).** The work that follows from an event of a feed accounts for what the event
does to the cache. It deletes exactly what the cache no longer holds, it adds only what the cache
did not hold before, and what it leaves out is as it was.

A list is read against the cache as it was when the list began, and the cache stays so until the
list ends. `Listing.Fits` says what has been found out while a list is being read.
-/

namespace ClusterSync

open Text

/-! ## Contents of a cache -/

namespace Cache

variable {c : Cache} {kind : Kind} {scope : Scope} {n m : ObjectName} {o : WatchedObject}

/-- The bytes that the datastore is to hold for a name. -/
def contents? (c : Cache) (n : ObjectName) : Option Bytes := c.objects[n]?.map (·.bytes)

/-- The bytes that the datastore is to hold for a name once the list that is being read is
complete. -/
def coming? (c : Cache) (n : ObjectName) : Option Bytes := c.arriving[n]?.map (·.bytes)

/-- Every object bears the name under which it is cached. -/
structure Fits (c : Cache) (kind : Kind) (scope : Scope) : Prop where
  objects : ∀ (n : ObjectName) (o : WatchedObject), c.objects[n]? = some o → o.Bears kind scope n
  arriving : ∀ (n : ObjectName) (o : WatchedObject), c.arriving[n]? = some o → o.Bears kind scope n

theorem bears_of_empty (n : ObjectName) (o : WatchedObject)
    (h : (∅ : Std.ExtTreeMap ObjectName WatchedObject)[n]? = some o) : o.Bears kind scope n := by
  rw [Std.ExtTreeMap.getElem?_empty] at h
  cases h

theorem fits_initial (kind : Kind) (scope : Scope) : initial.Fits kind scope :=
  ⟨bears_of_empty, bears_of_empty⟩

theorem contents?_eq_none_iff : c.contents? n = none ↔ n ∉ c.objects := by
  rw [contents?, Option.map_eq_none_iff, getElem?_eq_none_iff]

/-- The cache holds an object that is queued under a name. -/
def Holds (c : Cache) (n : ObjectName) : Prop :=
  ∃ (m : ObjectName) (o : WatchedObject), c.objects[m]? = some o ∧ o.objectName? = some n

theorem Fits.holds_iff (h : c.Fits kind scope) : c.Holds n ↔ c.contents? n ≠ none := by
  rw [ne_eq, contents?, Option.map_eq_none_iff]
  constructor
  · rintro ⟨m, o, ho, hname⟩ hnone
    cases (h.objects m o ho).objectName.symm.trans hname
    cases ho.symm.trans hnone
  · intro hne
    obtain ⟨o, ho⟩ := Option.ne_none_iff_exists'.1 hne
    exact ⟨n, o, ho, (h.objects n o ho).objectName⟩

/-- Where all names are allowed in one scope, nothing is found under another name. -/
theorem get?_eq (h : ∀ (n : ObjectName) (o : WatchedObject), c.objects[n]? = some o →
    scope.Allows n) (hn : scope.Allows n) : c.get? n = c.objects[n]? := by
  unfold get?
  cases hfound : c.objects[n]? with
  | some o => rfl
  | none =>
    cases hbare : c.objects[ObjectName.cluster n.name]? with
    | none => rfl
    | some o =>
      rw [hn.eq_of_cluster (h _ o hbare), hfound] at hbare
      cases hbare

theorem Fits.get?_eq (h : c.Fits kind scope) (hn : scope.Contains n) :
    c.get? n = c.objects[n]? :=
  Cache.get?_eq (fun m o ho => (h.objects m o ho).scope.allows) hn.allows

theorem Fits.bears_of_get? (h : c.Fits kind scope) (hn : scope.Contains n)
    (hget : c.get? n = some o) : o.Bears kind scope n :=
  h.objects n o (h.get?_eq hn ▸ hget)

theorem contents?_insert :
    ({ c with objects := c.objects.insert n o } : Cache).contents? m =
      if n = m then some o.bytes else c.contents? m := by
  simp only [contents?, Std.ExtTreeMap.getElem?_insert, Std.LawfulEqCmp.compare_eq_iff_eq]
  split <;> rfl

theorem contents?_erase :
    ({ c with objects := c.objects.erase n } : Cache).contents? m =
      if n = m then none else c.contents? m := by
  simp only [contents?, Std.ExtTreeMap.getElem?_erase, Std.LawfulEqCmp.compare_eq_iff_eq]
  split <;> rfl

theorem coming?_insert :
    ({ c with arriving := c.arriving.insert n o } : Cache).coming? m =
      if n = m then some o.bytes else c.coming? m := by
  simp only [coming?, Std.ExtTreeMap.getElem?_insert, Std.LawfulEqCmp.compare_eq_iff_eq]
  split <;> rfl

/-- An object that is put into a map of objects bears its name. -/
theorem bears_of_insert {objects : Std.ExtTreeMap ObjectName WatchedObject}
    (h : ∀ (n : ObjectName) (o : WatchedObject), objects[n]? = some o → o.Bears kind scope n)
    (ho : o.Bears kind scope n) (m : ObjectName) (p : WatchedObject)
    (hp : (objects.insert n o)[m]? = some p) : p.Bears kind scope m := by
  simp only [Std.ExtTreeMap.getElem?_insert, Std.LawfulEqCmp.compare_eq_iff_eq] at hp
  split at hp
  · rename_i heq
    cases hp
    exact heq ▸ ho
  · exact h m p hp

end Cache

/-! ## Feeds -/

/-- Whether a list is being read after an event. -/
def WatchEvent.readingAfter (reading : Bool) : WatchEvent → Bool
  | .listBegins => true
  | .listEnds _ => false
  | .applied _ | .deleted _ | .listed _ => reading

structure Feed where
  kind : Kind
  scope : Scope
  /-- Objects of one name that have the same version are to be written alike. -/
  versioned : Prop

namespace Feed

variable {f : Feed} {c c' : Cache} {l : Listing} {n : ObjectName} {o : WatchedObject}

/-- In the version in which it is cached, an object is to be written as it is cached. -/
def Agrees (f : Feed) (c : Cache) (n : ObjectName) (o : WatchedObject) : Prop :=
  f.versioned → ∀ old, c.objects[n]? = some old → old.resourceVersion?.isSome →
    old.resourceVersion? = o.resourceVersion? → old.value = o.value

/-- An object that the feed may bring. -/
def Brings (f : Feed) (c : Cache) (o : WatchedObject) : Prop :=
  ∃ n, o.Bears f.kind f.scope n ∧ f.Agrees c n o

/-- The events that may come next. -/
def Admits (f : Feed) (reading : Bool) (c : Cache) : WatchEvent → Prop
  | .applied o => reading = false ∧ f.Brings c o
  | .deleted o => reading = false ∧ ∃ n, o.Bears f.kind f.scope n
  | .listBegins => True
  | .listed o => reading = true ∧ f.Brings c o
  | .listEnds _ => reading = true

section Decidable

variable [Decidable f.versioned]

instance : Decidable (f.Agrees c n o) :=
  decidable_of_iff (f.versioned → ∀ old ∈ c.objects[n]?, old.resourceVersion?.isSome →
    old.resourceVersion? = o.resourceVersion? → old.value = o.value) .rfl

instance : Decidable (f.Brings c o) :=
  decidable_of_iff (∃ n ∈ o.cacheName?, o.Bears f.kind f.scope n ∧ f.Agrees c n o)
    ⟨fun ⟨n, _, h⟩ => ⟨n, h⟩, fun ⟨n, h⟩ => ⟨n, h.1.cacheName, h⟩⟩

instance (reading : Bool) (c : Cache) (event : WatchEvent) : Decidable (f.Admits reading c event) :=
  match event with
  | .applied o => inferInstanceAs (Decidable (_ ∧ f.Brings c o))
  | .deleted o => decidable_of_iff (reading = false ∧ ∃ n ∈ o.cacheName?, o.Bears f.kind f.scope n)
      ⟨fun ⟨hr, n, _, h⟩ => ⟨hr, n, h⟩, fun ⟨hr, n, h⟩ => ⟨hr, n, h.cacheName, h⟩⟩
  | .listBegins => isTrue trivial
  | .listed o => inferInstanceAs (Decidable (_ ∧ f.Brings c o))
  | .listEnds _ => inferInstanceAs (Decidable (reading = true))

end Decidable

/-- The work accounts for the change from one cache to another. -/
structure News (f : Feed) (c c' : Cache) (items : List WorkItem) : Prop where
  scope : ∀ item ∈ items, f.scope.Contains item.name
  delete_iff : ∀ item ∈ items, item.change = .delete ↔ c'.contents? item.name = none
  add : ∀ item ∈ items, item.change = .add → c.contents? item.name = none
  rest : ∀ n, (∀ item ∈ items, item.name ≠ n) →
    (c'.contents? n = none ↔ c.contents? n = none) ∧
      (f.versioned → c'.contents? n = c.contents? n)

end Feed

/-! ## Listings -/

namespace Listing

variable {f : Feed} {c : Cache} {l : Listing} {n : ObjectName} {o : WatchedObject}
  {item : WorkItem}

/-- What has been found out while a list is being read. -/
structure Fits (l : Listing) (f : Feed) (c : Cache) : Prop where
  seen : ∀ n, n ∈ l.seen ↔ c.coming? n ≠ none
  held : ∀ item ∈ l.held, c.coming? item.name ≠ none ∧
    item.change = if c.contents? item.name = none then .add else .update
  unheld : ∀ n, c.coming? n ≠ none → (∀ item ∈ l.held, item.name ≠ n) →
    c.contents? n ≠ none ∧ (f.versioned → c.coming? n = c.contents? n)

theorem changed?_of_name (hn : o.objectName? = some n) (hcache : o.cacheName? = some n)
    (hget : c.get? n = c.objects[n]?) :
    changed? o c = match c.objects[n]? with
      | none => some ⟨n, .add⟩
      | some old =>
        if old.resourceVersion?.isSome ∧ old.resourceVersion? = o.resourceVersion? then none
        else some ⟨n, .update⟩ := by
  unfold changed?
  rw [hn, hcache]
  dsimp only
  rewrite [hget]
  rfl

theorem changed?_eq (hc : c.Fits f.kind f.scope) (ho : o.Bears f.kind f.scope n) :
    changed? o c = match c.objects[n]? with
      | none => some ⟨n, .add⟩
      | some old =>
        if old.resourceVersion?.isSome ∧ old.resourceVersion? = o.resourceVersion? then none
        else some ⟨n, .update⟩ :=
  changed?_of_name ho.objectName ho.cacheName (hc.get?_eq ho.scope)

/-- An object that leads to work leads to an addition if it is not cached, and else to an update. -/
theorem eq_of_changed?_eq_some (hc : c.Fits f.kind f.scope) (ho : o.Bears f.kind f.scope n)
    (h : changed? o c = some item) :
    item = ⟨n, if c.contents? n = none then .add else .update⟩ := by
  rw [changed?_eq hc ho] at h
  unfold Cache.contents?
  cases hold : c.objects[n]? with
  | none =>
    rw [hold] at h
    cases h
    rfl
  | some old =>
    rw [hold] at h
    dsimp only at h
    split at h <;> cases h
    rfl

/-- An object that leads to no work is cached, in a version that is to be written alike. -/
theorem contents?_of_changed?_eq_none (hc : c.Fits f.kind f.scope)
    (ho : o.Bears f.kind f.scope n) (hv : f.Agrees c n o) (h : changed? o c = none) :
    c.contents? n ≠ none ∧ (f.versioned → some o.bytes = c.contents? n) := by
  rw [changed?_eq hc ho] at h
  unfold Cache.contents?
  cases hold : c.objects[n]? with
  | none => rw [hold] at h; cases h
  | some old =>
    rw [hold] at h
    dsimp only at h
    split at h
    · rename_i hsame
      refine ⟨Option.some_ne_none _, fun hf => ?_⟩
      have hvalue := hv hf old hold hsame.1 hsame.2
      rw [Option.map_some, WatchedObject.bytes, WatchedObject.bytes, hvalue]
    · cases h

/-- What a complete list leaves out is deleted, in whichever order. -/
theorem mem_left_iff_holds {order : Arrangement} :
    item ∈ l.left c order ↔ item.change = .delete ∧ c.Holds item.name ∧ item.name ∉ l.seen := by
  have hnames : ∀ n, (∃ m o, (m, o) ∈ c.objects.toList ∧ o.objectName? = some n) ↔
      c.Holds n := fun n => by
    simp only [Cache.Holds, Std.ExtTreeMap.mem_toList_iff_getElem?_eq_some]
  obtain ⟨name, change⟩ := item
  simp only [left, List.mem_map, (order.perm _).mem_iff, List.mem_filter, List.mem_filterMap,
    Prod.exists, hnames, decide_not, Bool.not_eq_eq_eq_not, Bool.not_true,
    decide_eq_false_iff_not, WorkItem.mk.injEq]
  constructor
  · rintro ⟨n, ⟨hn, hseen⟩, rfl, rfl⟩
    exact ⟨rfl, hn, hseen⟩
  · rintro ⟨rfl, hn, hseen⟩
    exact ⟨name, ⟨hn, hseen⟩, rfl, rfl⟩

theorem mem_left_iff {order : Arrangement} (hc : c.Fits f.kind f.scope) :
    item ∈ l.left c order ↔
      item.change = .delete ∧ c.contents? item.name ≠ none ∧ item.name ∉ l.seen := by
  rw [mem_left_iff_holds, hc.holds_iff]

theorem fits_initial (hc : ∀ n, c.coming? n = none) : initial.Fits f c where
  seen n := by simp [initial, hc n]
  held item h := absurd h List.not_mem_nil
  unheld n h := absurd (hc n) h

/-- An object of a list has been seen, and the work that it leads to is held back. -/
theorem Fits.listed (h : l.Fits f c) (hc : c.Fits f.kind f.scope)
    (ho : o.Bears f.kind f.scope n) (hv : f.Agrees c n o) :
    (⟨l.seen.insert n, l.held ++ (changed? o c).toList⟩ : Listing).Fits f
      { c with arriving := c.arriving.insert n o } := by
  refine ⟨fun m => ?_, fun item hitem => ?_, fun m hm hun => ?_⟩
  · rw [Cache.coming?_insert, Std.ExtTreeSet.mem_insert, Std.LawfulEqCmp.compare_eq_iff_eq, h.seen]
    by_cases hnm : n = m <;> simp [hnm]
  · rw [Cache.coming?_insert]
    rcases List.mem_append.1 hitem with hitem | hitem
    · obtain ⟨hcoming, hchange⟩ := h.held item hitem
      exact ⟨by split <;> simp_all, hchange⟩
    · rw [eq_of_changed?_eq_some hc ho (Option.mem_toList.1 hitem)]
      exact ⟨by simp, rfl⟩
  · rw [Cache.coming?_insert] at hm ⊢
    have hold : ∀ item ∈ l.held, item.name ≠ m := fun item hi =>
      hun item (List.mem_append_left _ hi)
    by_cases hnm : n = m
    · subst hnm
      rw [if_pos rfl]
      cases hch : changed? o c with
      | none =>
        have hcached := contents?_of_changed?_eq_none hc ho hv hch
        exact hcached
      | some item =>
        have hname := hun item (List.mem_append_right _ (Option.mem_toList.2 hch))
        rw [eq_of_changed?_eq_some hc ho hch] at hname
        exact absurd rfl hname
    · rw [if_neg hnm] at hm ⊢
      exact h.unheld m hm hold

end Listing

/-! ## News -/

namespace Feed

variable {f : Feed} {c : Cache} {l : Listing} {n : ObjectName} {o : WatchedObject}

theorem news_applied (hc : c.Fits f.kind f.scope) (ho : o.Bears f.kind f.scope n)
    (hv : f.Agrees c n o) :
    f.News c { c with objects := c.objects.insert n o } (Listing.changed? o c).toList := by
  have hitem : ∀ item ∈ (Listing.changed? o c).toList,
      item = ⟨n, if c.contents? n = none then .add else .update⟩ := fun item hi =>
    Listing.eq_of_changed?_eq_some hc ho (Option.mem_toList.1 hi)
  refine ⟨fun item hi => ?_, fun item hi => ?_, fun item hi ha => ?_, fun m hm => ?_⟩
  · rw [hitem item hi]
    exact ho.scope
  · rw [hitem item hi, Cache.contents?_insert, if_pos rfl]
    dsimp only
    split <;> simp
  · rw [hitem item hi] at ha ⊢
    dsimp only at ha ⊢
    split at ha
    · assumption
    · cases ha
  · rw [Cache.contents?_insert]
    by_cases hnm : n = m
    · subst hnm
      rw [if_pos rfl]
      cases hch : Listing.changed? o c with
      | none =>
        obtain ⟨hne, heq⟩ := Listing.contents?_of_changed?_eq_none hc ho hv hch
        exact ⟨by simp [hne], heq⟩
      | some item =>
        have hmem : item ∈ (Listing.changed? o c).toList := Option.mem_toList.2 hch
        have hname := hm item hmem
        rw [hitem item hmem] at hname
        exact absurd rfl hname
    · rw [if_neg hnm]
      exact ⟨.rfl, fun _ => rfl⟩

theorem news_deleted (ho : f.scope.Contains n) :
    f.News c { c with objects := c.objects.erase n } [⟨n, .delete⟩] := by
  refine ⟨fun item hi => ?_, fun item hi => ?_, fun item hi ha => ?_, fun m hm => ?_⟩
  · rw [List.mem_singleton.1 hi]
    exact ho
  · rw [List.mem_singleton.1 hi, Cache.contents?_erase, if_pos rfl]
    simp
  · rw [List.mem_singleton.1 hi] at ha
    cases ha
  · have hnm : n ≠ m := hm ⟨n, .delete⟩ (List.mem_singleton.2 rfl)
    rw [Cache.contents?_erase, if_neg hnm]
    exact ⟨.rfl, fun _ => rfl⟩

/-- A complete list is compared with what the cache holds until then. -/
theorem news_listEnds {order : Arrangement} (hc : c.Fits f.kind f.scope) (hl : l.Fits f c) :
    f.News c { c with objects := c.arriving, arriving := ∅, synced := true }
      (l.held ++ l.left c order) := by
  have hafter : ∀ n, ({ c with objects := c.arriving, arriving := ∅, synced := true } :
      Cache).contents? n = c.coming? n := fun _ => rfl
  refine ⟨fun item hi => ?_, fun item hi => ?_, fun item hi ha => ?_, fun m hm => ?_⟩
  · rcases List.mem_append.1 hi with hi | hi
    · obtain ⟨o, ho⟩ := Option.ne_none_iff_exists'.1 fun hn =>
        (hl.held item hi).1 (Option.map_eq_none_iff.2 hn)
      exact (hc.arriving _ o ho).scope
    · obtain ⟨-, hcached, -⟩ := (Listing.mem_left_iff hc).1 hi
      obtain ⟨o, ho⟩ := Option.ne_none_iff_exists'.1 fun hn =>
        hcached (Option.map_eq_none_iff.2 hn)
      exact (hc.objects _ o ho).scope
  · rw [hafter]
    rcases List.mem_append.1 hi with hi | hi
    · obtain ⟨hcoming, hchange⟩ := hl.held item hi
      rw [hchange]
      split <;> simp [hcoming]
    · obtain ⟨hchange, -, hseen⟩ := (Listing.mem_left_iff hc).1 hi
      exact iff_of_true hchange (Classical.not_not.1 (mt (hl.seen _).2 hseen))
  · rcases List.mem_append.1 hi with hi | hi
    · have hchange := (hl.held item hi).2
      rw [ha] at hchange
      split at hchange
      · assumption
      · cases hchange
    · rw [((Listing.mem_left_iff hc).1 hi).1] at ha
      cases ha
  · rw [hafter]
    have hheld : ∀ item ∈ l.held, item.name ≠ m := fun item hi =>
      hm item (List.mem_append_left _ hi)
    by_cases hcoming : c.coming? m = none
    · -- Had the cache held it, the list would have led to its deletion.
      have hcached : c.contents? m = none := Classical.not_not.1 fun hcached =>
        hm ⟨m, .delete⟩ (List.mem_append_right _ ((Listing.mem_left_iff hc).2
          ⟨rfl, hcached, fun hseen => (hl.seen m).1 hseen hcoming⟩)) rfl
      rw [hcoming, hcached]
      exact ⟨.rfl, fun _ => rfl⟩
    · obtain ⟨hcached, heq⟩ := hl.unheld m hcoming hheld
      exact ⟨by simp [hcoming, hcached], heq⟩

/-- Events of a feed are taken in, and the work that follows accounts for them. -/
theorem news {reading : Bool} {event : WatchEvent} (hc : c.Fits f.kind f.scope)
    (hl : reading = true → l.Fits f c) (ha : f.Admits reading c event) :
    ∃ c', c.accept? event = some c' ∧ c'.Fits f.kind f.scope ∧
      (event.readingAfter reading = true → (l.observe event c).1.Fits f c') ∧
      f.News c c' (l.observe event c).2 := by
  have hnothing : ∀ arriving, f.News c { c with arriving } [] := fun _ =>
    ⟨by simp, by simp, by simp, fun _ _ => ⟨.rfl, fun _ => rfl⟩⟩
  cases event with
  | applied o =>
    obtain ⟨rfl, n, ho, hv⟩ := ha
    refine ⟨{ c with objects := c.objects.insert n o }, ?_, ?_,
      fun hr => absurd hr Bool.false_ne_true, news_applied hc ho hv⟩
    · rw [Cache.accept?, ho.cacheName]
      rfl
    · exact ⟨Cache.bears_of_insert hc.objects ho, hc.arriving⟩
  | deleted o =>
    obtain ⟨rfl, n, ho⟩ := ha
    refine ⟨{ c with objects := c.objects.erase n }, ?_, ⟨fun m p hp => ?_, hc.arriving⟩,
      fun hr => absurd hr Bool.false_ne_true, ?_⟩
    · rw [Cache.accept?, ho.cacheName]
      rfl
    · simp only [Std.ExtTreeMap.getElem?_erase, Std.LawfulEqCmp.compare_eq_iff_eq] at hp
      split at hp
      · cases hp
      · exact hc.objects m p hp
    · rw [Listing.observe, ho.objectName]
      exact news_deleted ho.scope
  | listBegins =>
    refine ⟨{ c with arriving := ∅ }, rfl, ⟨hc.objects, Cache.bears_of_empty⟩, fun _ => ?_,
      hnothing ∅⟩
    exact Listing.fits_initial fun n => by simp [Cache.coming?]
  | listed o =>
    obtain ⟨rfl, n, ho, hv⟩ := ha
    refine ⟨{ c with arriving := c.arriving.insert n o }, ?_, ?_, fun _ => ?_, ?_⟩
    · rw [Cache.accept?, ho.cacheName]
      rfl
    · exact ⟨hc.objects, Cache.bears_of_insert hc.arriving ho⟩
    · rw [Listing.observe, ho.objectName]
      exact (hl rfl).listed hc ho hv
    · rw [Listing.observe]
      exact hnothing _
  | listEnds order =>
    exact ⟨{ c with objects := c.arriving, arriving := ∅, synced := true }, rfl,
      ⟨hc.arriving, Cache.bears_of_empty⟩, fun hr => absurd hr Bool.false_ne_true,
      news_listEnds hc (hl ha)⟩

end Feed

end ClusterSync
