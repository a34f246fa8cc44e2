import ClusterSync.Proofs.Watch.News

/-!
# Reports of a watch

A watch takes in one event after the other and reports the work that follows from each. Its stream
is well-formed if lists end only after they have begun and are not interrupted by single changes,
though another list may begin at any time; and if all names are allowed in one scope.

**Theorem (`Desk.tracks`).** What has been reported last of a name tells whether the cache holds it:
it is an addition or an update exactly if the cache does, and the version that was cached with that
report is the one that is cached now. A list that was interrupted leaves nothing behind.

While a list is being read the cache stays as it is, and `Listing.Awaits` says what has been found
out so far. An object that comes twice in a list leads to work if it does so once; if it never does,
its last version is the one that is cached.
-/

namespace ClusterSync

/-! ## Versions of cached objects -/

namespace Cache

variable {c : Cache} {scope : Scope} {n m : ObjectName} {o : WatchedObject}

/-- The version in which an object of a name is cached, if there is one. -/
def version? (c : Cache) (n : ObjectName) : Option (Option String) :=
  c.objects[n]?.map (·.resourceVersion?)

/-- The version in which an object of a name stands in the list that is being read. -/
def comingVersion? (c : Cache) (n : ObjectName) : Option (Option String) :=
  c.arriving[n]?.map (·.resourceVersion?)

/-- All objects are cached under their names, which a scope allows. -/
structure Named (c : Cache) (scope : Scope) : Prop where
  objects : ∀ (n : ObjectName) (o : WatchedObject), c.objects[n]? = some o →
    o.cacheName? = some n ∧ scope.Allows n
  arriving : ∀ (n : ObjectName) (o : WatchedObject), c.arriving[n]? = some o →
    o.cacheName? = some n ∧ scope.Allows n

theorem named_of_empty (n : ObjectName) (o : WatchedObject)
    (h : (∅ : Std.ExtTreeMap ObjectName WatchedObject)[n]? = some o) :
    o.cacheName? = some n ∧ scope.Allows n := by
  rw [Std.ExtTreeMap.getElem?_empty] at h
  cases h

theorem named_of_insert {objects : Std.ExtTreeMap ObjectName WatchedObject}
    (h : ∀ (n : ObjectName) (o : WatchedObject), objects[n]? = some o →
      o.cacheName? = some n ∧ scope.Allows n)
    (hn : o.cacheName? = some n) (hs : scope.Allows n) (m : ObjectName) (p : WatchedObject)
    (hp : (objects.insert n o)[m]? = some p) : p.cacheName? = some m ∧ scope.Allows m := by
  simp only [Std.ExtTreeMap.getElem?_insert, Std.LawfulEqCmp.compare_eq_iff_eq] at hp
  split at hp
  · rename_i heq
    cases hp
    exact heq ▸ ⟨hn, hs⟩
  · exact h m p hp

theorem Named.objectName (h : c.Named scope) (ho : c.objects[n]? = some o) :
    o.objectName? = some n := by
  obtain ⟨hn, hs⟩ := h.objects n o ho
  exact WatchedObject.objectName?_eq_cacheName? hn hs

theorem Named.get?_eq (h : c.Named scope) (hn : scope.Allows n) : c.get? n = c.objects[n]? :=
  Cache.get?_eq (fun m o ho => (h.objects m o ho).2) hn

theorem Named.holds_iff (h : c.Named scope) : c.Holds n ↔ c.version? n ≠ none := by
  rw [ne_eq, version?, Option.map_eq_none_iff]
  constructor
  · rintro ⟨m, o, ho, hname⟩ hnone
    cases (h.objectName ho).symm.trans hname
    cases ho.symm.trans hnone
  · intro hne
    obtain ⟨o, ho⟩ := Option.ne_none_iff_exists'.1 hne
    exact ⟨n, o, ho, h.objectName ho⟩

theorem version?_insert :
    ({ c with objects := c.objects.insert n o } : Cache).version? m =
      if n = m then some o.resourceVersion? else c.version? m := by
  simp only [version?, Std.ExtTreeMap.getElem?_insert, Std.LawfulEqCmp.compare_eq_iff_eq]
  split <;> rfl

theorem version?_erase :
    ({ c with objects := c.objects.erase n } : Cache).version? m =
      if n = m then none else c.version? m := by
  simp only [version?, Std.ExtTreeMap.getElem?_erase, Std.LawfulEqCmp.compare_eq_iff_eq]
  split <;> rfl

theorem comingVersion?_insert :
    ({ c with arriving := c.arriving.insert n o } : Cache).comingVersion? m =
      if n = m then some o.resourceVersion? else c.comingVersion? m := by
  simp only [comingVersion?, Std.ExtTreeMap.getElem?_insert, Std.LawfulEqCmp.compare_eq_iff_eq]
  split <;> rfl

end Cache

/-! ## Streams -/

/-- An object has a name that a scope allows. -/
def Scope.Admits (scope : Scope) (o : WatchedObject) : Prop :=
  ∃ n, o.cacheName? = some n ∧ scope.Allows n

/-- The events that may come next. -/
def Scope.AdmitsEvent (scope : Scope) (reading : Bool) : WatchEvent → Prop
  | .applied o | .deleted o => reading = false ∧ scope.Admits o
  | .listBegins => True
  | .listed o => reading = true ∧ scope.Admits o
  | .listEnds _ => reading = true

/-- The events that may come one after the other. -/
def Scope.AdmitsAll (scope : Scope) : Bool → List WatchEvent → Prop
  | _, [] => True
  | reading, event :: events =>
    scope.AdmitsEvent reading event ∧ scope.AdmitsAll (event.readingAfter reading) events

section Decidable

variable {scope : Scope} {reading : Bool}

instance (o : WatchedObject) : Decidable (scope.Admits o) :=
  decidable_of_iff (∃ n ∈ o.cacheName?, scope.Allows n) .rfl

instance (event : WatchEvent) : Decidable (scope.AdmitsEvent reading event) :=
  match event with
  | .applied _ | .deleted _ => inferInstanceAs (Decidable (_ ∧ _))
  | .listBegins => isTrue trivial
  | .listed _ => inferInstanceAs (Decidable (_ ∧ _))
  | .listEnds _ => inferInstanceAs (Decidable (_ = _))

instance decidableAdmitsAll (scope : Scope) :
    (reading : Bool) → (events : List WatchEvent) → Decidable (scope.AdmitsAll reading events)
  | _, [] => isTrue trivial
  | reading, event :: events =>
    have := decidableAdmitsAll scope (event.readingAfter reading) events
    inferInstanceAs (Decidable (_ ∧ _))

end Decidable

/-! ## What an event leads to -/

/-- The work accounts for what an event does to the cache. -/
structure Accounts (c c' : Cache) (items : List WorkItem) : Prop where
  add : ∀ item ∈ items, item.change = .add →
    c.version? item.name = none ∧ c'.version? item.name ≠ none
  update : ∀ item ∈ items, item.change = .update →
    c.version? item.name ≠ none ∧ c'.version? item.name ≠ none
  delete : ∀ item ∈ items, item.change = .delete → c'.version? item.name = none
  rest : ∀ n, (∀ item ∈ items, item.name ≠ n) → c'.version? n = c.version? n

namespace Listing

variable {scope : Scope} {c : Cache} {l : Listing} {n : ObjectName} {o : WatchedObject}
  {item : WorkItem}

/-- What has been found out while a list is being read. -/
structure Awaits (l : Listing) (c : Cache) : Prop where
  seen : ∀ n, n ∈ l.seen ↔ c.comingVersion? n ≠ none
  held : ∀ item ∈ l.held, c.comingVersion? item.name ≠ none ∧
    item.change = if c.version? item.name = none then .add else .update
  unheld : ∀ n, c.comingVersion? n ≠ none → (∀ item ∈ l.held, item.name ≠ n) →
    c.comingVersion? n = c.version? n

/-- An object leads to an addition if it is not cached, and else to an update or to nothing. -/
theorem changed?_cases (hc : c.Named scope) (hn : o.cacheName? = some n) (hs : scope.Allows n) :
    changed? o c = some ⟨n, if c.version? n = none then .add else .update⟩ ∨
      changed? o c = none ∧ c.version? n = some o.resourceVersion? := by
  rw [changed?_of_name (WatchedObject.objectName?_eq_cacheName? hn hs) hn (hc.get?_eq hs)]
  unfold Cache.version?
  cases hold : c.objects[n]? with
  | none => exact .inl rfl
  | some old =>
    dsimp only
    split
    · rename_i hsame
      exact .inr ⟨rfl, congrArg some hsame.2⟩
    · exact .inl rfl

theorem awaits_initial (hc : ∀ n, c.comingVersion? n = none) : initial.Awaits c where
  seen n := by simp [initial, hc n]
  held item h := absurd h List.not_mem_nil
  unheld n h := absurd (hc n) h

/-- An object of a list has been seen, and the work that it leads to is held back. -/
theorem Awaits.listed (h : l.Awaits c) (hc : c.Named scope) (hn : o.cacheName? = some n)
    (hs : scope.Allows n) :
    (⟨l.seen.insert n, l.held ++ (changed? o c).toList⟩ : Listing).Awaits
      { c with arriving := c.arriving.insert n o } := by
  have hchanged := changed?_cases hc hn hs
  refine ⟨fun m => ?_, fun item hitem => ?_, fun m hm hun => ?_⟩
  · rw [Cache.comingVersion?_insert, Std.ExtTreeSet.mem_insert, Std.LawfulEqCmp.compare_eq_iff_eq,
      h.seen]
    by_cases hnm : n = m <;> simp [hnm]
  · rw [Cache.comingVersion?_insert]
    rcases List.mem_append.1 hitem with hitem | hitem
    · obtain ⟨hcoming, hchange⟩ := h.held item hitem
      exact ⟨by split <;> simp_all, hchange⟩
    · rcases hchanged with heq | ⟨hnone, -⟩
      · cases heq.symm.trans (Option.mem_toList.1 hitem)
        exact ⟨by simp, rfl⟩
      · cases hnone.symm.trans (Option.mem_toList.1 hitem)
  · rw [Cache.comingVersion?_insert] at hm ⊢
    by_cases hnm : n = m
    · subst hnm
      rw [if_pos rfl]
      rcases hchanged with heq | ⟨-, hsame⟩
      · have hmem := List.mem_append_right l.held (Option.mem_toList.2 heq)
        exact absurd rfl (hun _ hmem)
      · exact hsame.symm
    · rw [if_neg hnm] at hm ⊢
      exact h.unheld m hm fun item hi => hun item (List.mem_append_left _ hi)

end Listing

namespace Accounts

variable {scope : Scope} {c : Cache} {l : Listing} {n : ObjectName} {o : WatchedObject}

theorem nothing {c' : Cache} (h : ∀ n, c'.version? n = c.version? n) : Accounts c c' [] :=
  ⟨by simp, by simp, by simp, fun n _ => h n⟩

theorem applied (hc : c.Named scope) (hn : o.cacheName? = some n) (hs : scope.Allows n) :
    Accounts c { c with objects := c.objects.insert n o } (Listing.changed? o c).toList := by
  have hafter : ({ c with objects := c.objects.insert n o } : Cache).version? n ≠ none := by
    rw [Cache.version?_insert, if_pos rfl]
    exact Option.some_ne_none _
  rcases Listing.changed?_cases hc hn hs with heq | ⟨hnone, hsame⟩
  · rw [heq, Option.toList_some]
    refine ⟨?_, ?_, ?_, fun m hm => ?_⟩
    · intro item hi ha
      cases List.mem_singleton.1 hi
      dsimp only at ha
      split at ha
      · rename_i hnew
        exact ⟨hnew, hafter⟩
      · cases ha
    · intro item hi hu
      cases List.mem_singleton.1 hi
      dsimp only at hu
      split at hu
      · cases hu
      · rename_i hold
        exact ⟨hold, hafter⟩
    · intro item hi hd
      cases List.mem_singleton.1 hi
      dsimp only at hd
      split at hd <;> cases hd
    · have hnm : n ≠ m := hm _ (List.mem_singleton.2 rfl)
      rw [Cache.version?_insert, if_neg hnm]
  · rw [hnone, Option.toList_none]
    refine nothing fun m => ?_
    rw [Cache.version?_insert]
    split
    · rename_i hnm
      rw [← hnm, hsame]
    · rfl

theorem deleted : Accounts c { c with objects := c.objects.erase n } [⟨n, .delete⟩] := by
  refine ⟨?_, ?_, ?_, fun m hm => ?_⟩
  · intro item hi ha
    cases List.mem_singleton.1 hi
    cases ha
  · intro item hi hu
    cases List.mem_singleton.1 hi
    cases hu
  · intro item hi _
    cases List.mem_singleton.1 hi
    rw [Cache.version?_erase, if_pos rfl]
  · have hnm : n ≠ m := hm _ (List.mem_singleton.2 rfl)
    rw [Cache.version?_erase, if_neg hnm]

/-- A complete list is compared with what the cache holds until then. -/
theorem listEnds {order : Arrangement} (hc : c.Named scope) (hl : l.Awaits c) :
    Accounts c { c with objects := c.arriving, arriving := ∅, synced := true }
      (l.held ++ l.left c order) := by
  have hafter : ∀ n, ({ c with objects := c.arriving, arriving := ∅, synced := true } :
      Cache).version? n = c.comingVersion? n := fun _ => rfl
  have hleft : ∀ item ∈ l.left c order, item.change = .delete ∧ c.version? item.name ≠ none ∧
      item.name ∉ l.seen := fun item hi => by
    rw [← hc.holds_iff]
    exact Listing.mem_left_iff_holds.1 hi
  refine ⟨?_, ?_, ?_, fun m hm => ?_⟩
  · intro item hi ha
    rw [hafter]
    rcases List.mem_append.1 hi with hi | hi
    · obtain ⟨hcoming, hchange⟩ := hl.held item hi
      rw [ha] at hchange
      split at hchange
      · rename_i hnew
        exact ⟨hnew, hcoming⟩
      · cases hchange
    · cases ha.symm.trans (hleft item hi).1
  · intro item hi hu
    rw [hafter]
    rcases List.mem_append.1 hi with hi | hi
    · obtain ⟨hcoming, hchange⟩ := hl.held item hi
      rw [hu] at hchange
      split at hchange
      · cases hchange
      · rename_i hold
        exact ⟨hold, hcoming⟩
    · cases hu.symm.trans (hleft item hi).1
  · intro item hi hd
    rw [hafter]
    rcases List.mem_append.1 hi with hi | hi
    · have hchange := (hl.held item hi).2
      rw [hd] at hchange
      split at hchange <;> cases hchange
    · obtain ⟨-, -, hseen⟩ := hleft item hi
      exact Classical.not_not.1 (mt (hl.seen _).2 hseen)
  · rw [hafter]
    by_cases hcoming : c.comingVersion? m = none
    · -- Had the cache held it, the list would have led to its deletion.
      by_cases hcached : c.version? m = none
      · rw [hcoming, hcached]
      · have hleft : ⟨m, .delete⟩ ∈ l.left c order := Listing.mem_left_iff_holds.2
          ⟨rfl, hc.holds_iff.2 hcached, fun hseen => (hl.seen m).1 hseen hcoming⟩
        exact absurd rfl (hm _ (List.mem_append_right l.held hleft))
    · exact hl.unheld m hcoming fun item hi => hm item (List.mem_append_left _ hi)

end Accounts

/-! ## Watches at work -/

/-- What was reported, and the cache before and after the event that led to it. -/
structure Desk.Notice where
  item : WorkItem
  before : Cache
  after : Cache

/-- A watch at work. -/
structure Desk where
  listing : Listing
  cache : Cache
  /-- Whether a list is being read. -/
  reading : Bool

namespace Desk

def initial : Desk := ⟨.initial, .initial, false⟩

/-- Takes an event in and reports what follows; none if the event's object cannot be cached. -/
def take? (d : Desk) (event : WatchEvent) : Option (Desk × List Notice) :=
  (d.cache.accept? event).map fun cache =>
    (⟨(d.listing.observe event d.cache).1, cache, event.readingAfter d.reading⟩,
      (d.listing.observe event d.cache).2.map fun item => ⟨item, d.cache, cache⟩)

/-- Takes events in and adds what follows to earlier notices, the latest first. -/
def run? (past : List Notice) (d : Desk) : List WatchEvent → Option (List Notice × Desk)
  | [] => some (past, d)
  | event :: events =>
    (d.take? event).bind fun (d', notices) => run? (notices.reverse ++ past) d' events

/-- The last notice of a name. -/
def last? (n : ObjectName) (past : List Notice) : Option Notice := past.find? (·.item.name = n)

variable {scope : Scope} {d d' : Desk} {past notices : List Notice} {event : WatchEvent}
  {n : ObjectName}

/-- What a desk keeps. -/
structure Keeps (d : Desk) (scope : Scope) (past : List Notice) : Prop where
  named : d.cache.Named scope
  awaits : d.reading = true → d.listing.Awaits d.cache
  /-- Nothing is left of a list that has ended or was interrupted. -/
  rests : d.reading = false → d.listing = .initial ∧ d.cache.arriving = ∅
  known : ∀ x ∈ past, x.before.Named scope ∧ x.after.Named scope
  add : ∀ x ∈ past, x.item.change = .add →
    ¬ x.before.Holds x.item.name ∧ x.after.Holds x.item.name
  update : ∀ x ∈ past, x.item.change = .update →
    x.before.Holds x.item.name ∧ x.after.Holds x.item.name
  delete : ∀ x ∈ past, x.item.change = .delete → ¬ x.after.Holds x.item.name
  /-- The version of a name is the one that was reported last. -/
  version : ∀ n, d.cache.version? n = (last? n past).bind fun x => x.after.version? n

theorem keeps_initial (scope : Scope) : initial.Keeps scope [] where
  named := ⟨Cache.named_of_empty, Cache.named_of_empty⟩
  awaits h := absurd h Bool.false_ne_true
  rests _ := ⟨rfl, rfl⟩
  known _ h := absurd h List.not_mem_nil
  add _ h := absurd h List.not_mem_nil
  update _ h := absurd h List.not_mem_nil
  delete _ h := absurd h List.not_mem_nil
  version n := by simp [initial, Cache.initial, Cache.version?, last?]

/-- The last notice of a name is one of the last event if that has led to any. -/
theorem last?_append (n : ObjectName) (items : List WorkItem) (before after : Cache)
    (past : List Notice) :
    (∃ item ∈ items, item.name = n ∧
      last? n ((items.map fun item => ⟨item, before, after⟩).reverse ++ past) =
        some ⟨item, before, after⟩) ∨
    (∀ item ∈ items, item.name ≠ n) ∧
      last? n ((items.map fun item => ⟨item, before, after⟩).reverse ++ past) = last? n past := by
  unfold last?
  rw [List.find?_append]
  cases hfound : ((items.map fun item => (⟨item, before, after⟩ : Notice)).reverse).find?
      (·.item.name = n) with
  | none =>
    refine .inr ⟨fun item hi hn => ?_, rfl⟩
    have hnot := List.find?_eq_none.1 hfound ⟨item, before, after⟩ (by simpa using hi)
    simp [hn] at hnot
  | some x =>
    have hname := List.find?_some hfound
    have hmem := List.mem_of_find?_eq_some hfound
    simp only [List.mem_reverse, List.mem_map] at hmem
    obtain ⟨item, hi, rfl⟩ := hmem
    exact .inl ⟨item, hi, by simpa using hname, rfl⟩

/-- An event that accounts for what it does to the cache has been taken in. -/
theorem Keeps.report {listing : Listing} {cache : Cache} {reading : Bool} {items : List WorkItem}
    (h : d.Keeps scope past) (hnamed : cache.Named scope)
    (hawaits : reading = true → listing.Awaits cache)
    (hrests : reading = false → listing = .initial ∧ cache.arriving = ∅)
    (haccounts : Accounts d.cache cache items) :
    (⟨listing, cache, reading⟩ : Desk).Keeps scope
      ((items.map fun item => ⟨item, d.cache, cache⟩).reverse ++ past) := by
  have hmem : ∀ x : Notice, x ∈ (items.map fun item => (⟨item, d.cache, cache⟩ : Notice)).reverse ++
      past → (∃ item ∈ items, x = ⟨item, d.cache, cache⟩) ∨ x ∈ past := fun x hx => by
    rcases List.mem_append.1 hx with hx | hx
    · obtain ⟨item, hi, rfl⟩ := List.mem_map.1 (List.mem_reverse.1 hx)
      exact .inl ⟨item, hi, rfl⟩
    · exact .inr hx
  refine ⟨hnamed, hawaits, hrests, fun x hx => ?_, fun x hx hc => ?_, fun x hx hc => ?_,
    fun x hx hc => ?_, fun n => ?_⟩
  · rcases hmem x hx with ⟨item, -, rfl⟩ | hx
    · exact ⟨h.named, hnamed⟩
    · exact h.known x hx
  · rcases hmem x hx with ⟨item, hi, rfl⟩ | hx
    · obtain ⟨hbefore, hafter⟩ := haccounts.add item hi hc
      exact ⟨fun hheld => h.named.holds_iff.1 hheld hbefore, hnamed.holds_iff.2 hafter⟩
    · exact h.add x hx hc
  · rcases hmem x hx with ⟨item, hi, rfl⟩ | hx
    · obtain ⟨hbefore, hafter⟩ := haccounts.update item hi hc
      exact ⟨h.named.holds_iff.2 hbefore, hnamed.holds_iff.2 hafter⟩
    · exact h.update x hx hc
  · rcases hmem x hx with ⟨item, hi, rfl⟩ | hx
    · exact fun hheld => hnamed.holds_iff.1 hheld (haccounts.delete item hi hc)
    · exact h.delete x hx hc
  · rcases last?_append n items d.cache cache past with ⟨item, -, -, hlast⟩ | ⟨hnone, hlast⟩
    · rw [hlast]
      rfl
    · rw [hlast, ← h.version n]
      exact haccounts.rest n hnone

/-- An event that may come is taken in. -/
theorem Keeps.take (h : d.Keeps scope past) (ha : scope.AdmitsEvent d.reading event) :
    ∃ d' notices, d.take? event = some (d', notices) ∧ d'.reading = event.readingAfter d.reading ∧
      d'.Keeps scope (notices.reverse ++ past) := by
  obtain ⟨listing, cache, reading⟩ := d
  have hnothing : ∀ arriving, Accounts cache { cache with arriving } [] := fun _ =>
    .nothing fun _ => rfl
  cases event with
  | applied o =>
    obtain ⟨rfl, n, hn, hs⟩ := ha
    obtain ⟨hlisting, harriving⟩ := h.rests rfl
    have haccept : cache.accept? (.applied o) =
        some { cache with objects := cache.objects.insert n o } := by
      rw [Cache.accept?, hn]
      rfl
    refine ⟨_, _, congrArg (Option.map _) haccept, rfl, ?_⟩
    exact h.report ⟨Cache.named_of_insert h.named.objects hn hs, h.named.arriving⟩
      Bool.false_ne_true.elim (fun _ => ⟨hlisting, harriving⟩) (.applied h.named hn hs)
  | deleted o =>
    obtain ⟨rfl, n, hn, hs⟩ := ha
    obtain ⟨hlisting, harriving⟩ := h.rests rfl
    have haccept : cache.accept? (.deleted o) =
        some { cache with objects := cache.objects.erase n } := by
      rw [Cache.accept?, hn]
      rfl
    have hitems : (listing.observe (.deleted o) cache).2 = [⟨n, .delete⟩] := by
      rw [Listing.observe, WatchedObject.objectName?_eq_cacheName? hn hs]
      rfl
    have hnamed : ({ cache with objects := cache.objects.erase n } : Cache).Named scope := by
      refine ⟨fun m p hp => ?_, h.named.arriving⟩
      simp only [Std.ExtTreeMap.getElem?_erase, Std.LawfulEqCmp.compare_eq_iff_eq] at hp
      split at hp
      · cases hp
      · exact h.named.objects m p hp
    refine ⟨_, _, congrArg (Option.map _) haccept, rfl, ?_⟩
    exact h.report hnamed Bool.false_ne_true.elim (fun _ => ⟨hlisting, harriving⟩)
      (hitems ▸ .deleted)
  | listBegins =>
    refine ⟨_, _, rfl, rfl, ?_⟩
    refine h.report ⟨h.named.objects, Cache.named_of_empty⟩ (fun _ => ?_)
      Bool.false_ne_true.symm.elim (hnothing ∅)
    exact Listing.awaits_initial fun n => by simp [Cache.comingVersion?]
  | listed o =>
    obtain ⟨rfl, n, hn, hs⟩ := ha
    have haccept : cache.accept? (.listed o) =
        some { cache with arriving := cache.arriving.insert n o } := by
      rw [Cache.accept?, hn]
      rfl
    have hlisted : (listing.observe (.listed o) cache).1 =
        ⟨listing.seen.insert n, listing.held ++ (Listing.changed? o cache).toList⟩ := by
      rw [Listing.observe, WatchedObject.objectName?_eq_cacheName? hn hs]
    refine ⟨_, _, congrArg (Option.map _) haccept, rfl, ?_⟩
    refine h.report ⟨h.named.objects, Cache.named_of_insert h.named.arriving hn hs⟩ (fun _ => ?_)
      Bool.false_ne_true.symm.elim (hnothing _)
    rw [hlisted]
    exact (h.awaits rfl).listed h.named hn hs
  | listEnds order =>
    obtain rfl : reading = true := ha
    refine ⟨_, _, rfl, rfl, ?_⟩
    exact h.report ⟨h.named.arriving, Cache.named_of_empty⟩ Bool.false_ne_true.elim
      (fun _ => ⟨rfl, rfl⟩) (.listEnds h.named (h.awaits rfl))

/-- What a whole run keeps. -/
theorem Keeps.run {events : List WatchEvent} (h : d.Keeps scope past)
    (ha : scope.AdmitsAll d.reading events) :
    ∃ past' d', run? past d events = some (past', d') ∧ d'.Keeps scope past' := by
  induction events generalizing d past with
  | nil => exact ⟨past, d, rfl, h⟩
  | cons event events ih =>
    obtain ⟨hevent, hevents⟩ := ha
    obtain ⟨d', notices, htake, hreading, hkeeps⟩ := h.take hevent
    obtain ⟨past', d'', hrun, hkeeps'⟩ := ih hkeeps (hreading ▸ hevents)
    refine ⟨past', d'', ?_, hkeeps'⟩
    rw [run?, htake]
    exact hrun

/-- The version in which a name is cached is told by a notice that is no deletion. -/
theorem Keeps.exists_notice (h : d.Keeps scope past) (hn : d.cache.version? n ≠ none) :
    ∃ x, last? n past = some x ∧ x.item.change ≠ .delete ∧
      x.after.version? n = d.cache.version? n := by
  have hversion := h.version n
  cases hlast : last? n past with
  | none =>
    rw [hlast] at hversion
    exact absurd hversion hn
  | some x =>
    rw [hlast] at hversion
    have hversion : d.cache.version? n = x.after.version? n := hversion
    have hmem := List.mem_of_find?_eq_some hlast
    have hname : x.item.name = n := by simpa using List.find?_some hlast
    refine ⟨x, rfl, fun hdelete => ?_, hversion.symm⟩
    have hgone := h.delete x hmem hdelete
    rw [(h.known x hmem).2.holds_iff, hname, ← hversion] at hgone
    exact hgone hn

/-- While a list is being read nothing is reported. -/
theorem take?_reading (ha : scope.AdmitsEvent d.reading event)
    (hr : event.readingAfter d.reading = true) {notices : List Notice}
    (ht : d.take? event = some (d', notices)) : notices = [] := by
  obtain ⟨cache, -, heq⟩ := Option.map_eq_some_iff.1 ht
  cases heq
  cases event with
  | applied | deleted => cases ha.1.symm.trans hr
  | listBegins | listed => rfl
  | listEnds order => cases hr

/-- What has been reported tells what the cache holds, and in which version. -/
theorem tracks {events : List WatchEvent} (h : scope.AdmitsAll false events) :
    ∃ past d, initial.run? [] events = some (past, d) ∧
      (∀ n, (∃ x, last? n past = some x ∧ x.item.change ≠ .delete) ↔ d.cache.Holds n) ∧
      (∀ (n m : ObjectName) (o : WatchedObject), d.cache.objects[m]? = some o →
        o.objectName? = some n → ∃ (x : Notice) (o' : WatchedObject), last? n past = some x ∧
          x.item.change ≠ .delete ∧ x.after.objects[m]? = some o' ∧ o'.objectName? = some n ∧
          o'.resourceVersion? = o.resourceVersion?) ∧
      (∀ x ∈ past, match x.item.change with
        | .add => ¬ x.before.Holds x.item.name ∧ x.after.Holds x.item.name
        | .update => x.before.Holds x.item.name ∧ x.after.Holds x.item.name
        | .delete => ¬ x.after.Holds x.item.name) ∧
      (d.reading = false → d.listing = .initial ∧ d.cache.arriving = ∅) ∧
      ∀ event, scope.AdmitsEvent d.reading event → ∃ d' notices,
        d.take? event = some (d', notices) ∧
          (event.readingAfter d.reading = true → notices = []) := by
  obtain ⟨past, d, hrun, hkeeps⟩ := (keeps_initial scope).run h
  refine ⟨past, d, hrun, fun n => ?_, fun n m o ho hname => ?_, fun x hx => ?_, hkeeps.rests,
    fun event ha => ?_⟩
  · rw [hkeeps.named.holds_iff]
    constructor
    · rintro ⟨x, hlast, hchange⟩
      have hmem := List.mem_of_find?_eq_some hlast
      have hname : x.item.name = n := by simpa using List.find?_some hlast
      have hheld : x.after.Holds n := by
        cases hc : x.item.change with
        | add => exact hname ▸ (hkeeps.add x hmem hc).2
        | update => exact hname ▸ (hkeeps.update x hmem hc).2
        | delete => exact absurd hc hchange
      rw [hkeeps.version n, hlast]
      exact (hkeeps.known x hmem).2.holds_iff.1 hheld
    · intro hn
      obtain ⟨x, hlast, hchange, -⟩ := hkeeps.exists_notice hn
      exact ⟨x, hlast, hchange⟩
  · cases (hkeeps.named.objectName ho).symm.trans hname
    have hversion : d.cache.version? n = some o.resourceVersion? := by rw [Cache.version?, ho]; rfl
    obtain ⟨x, hlast, hchange, hsame⟩ := hkeeps.exists_notice (n := n) (by rw [hversion]; nofun)
    obtain ⟨o', ho', hrv⟩ := Option.map_eq_some_iff.1 (hsame.trans hversion)
    have hknown := (hkeeps.known x (List.mem_of_find?_eq_some hlast)).2
    exact ⟨x, o', hlast, hchange, ho', hknown.objectName ho', hrv⟩
  · cases hc : x.item.change with
    | add => exact hkeeps.add x hx hc
    | update => exact hkeeps.update x hx hc
    | delete => exact hkeeps.delete x hx hc
  · obtain ⟨d', notices, htake, -⟩ := hkeeps.take ha
    exact ⟨d', notices, htake, fun hr => take?_reading ha hr htake⟩

section Example

/-- A node in some version. -/
def nodeAt (name version : String) : WatchedObject :=
  .node { metadata := { name := some name, resourceVersion := some version } }

/-- A list is interrupted by another one, in which a node comes twice, and then nodes change. -/
def relisted : List WatchEvent :=
  [.listBegins, .listed (nodeAt "a" "1"), .listBegins, .listed (nodeAt "b" "1"),
    .listed (nodeAt "b" "2"), .listed (nodeAt "c/d" "1"), .listEnds, .applied (nodeAt "b" "2"),
    .applied (nodeAt "b" "3"), .deleted (nodeAt "c/d" "1"), .listBegins, .listed (nodeAt "a" "5")]

theorem relisted_admitted : Scope.cluster.AdmitsAll false relisted := by decide +kernel

theorem tracks_of_relisted :
    Scope.cluster.AdmitsAll false relisted ∧
    ∃ past d, initial.run? [] relisted = some (past, d) ∧
      ∀ n, (∃ x, last? n past = some x ∧ x.item.change ≠ .delete) ↔ d.cache.Holds n := by
  obtain ⟨past, d, hrun, hholds, -⟩ := tracks relisted_admitted
  exact ⟨relisted_admitted, past, d, hrun, hholds⟩

end Example

end Desk

end ClusterSync
