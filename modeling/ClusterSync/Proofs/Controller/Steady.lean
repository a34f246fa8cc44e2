import ClusterSync.Proofs.Controller.Course

/-!
# Scenes of a run stay on course

`Scene.Steady` is what every scene of a run keeps, beside the course of each name: the backlog is
open and puts nothing off, no delivery fails, and all names belong to the scope of the feed.

**Theorem (`Steady.reaches`).** Every scene of a run is steady, so it is on course for all names of
the scope.
-/

namespace ClusterSync

namespace Scene

variable {f : Feed} {past : History Table} {n : ObjectName} {s s' : Scene Table}
  {event : WatchEvent} {c : Cache}

/-- What holds in every scene of a run. -/
structure Steady (s : Scene Table) (f : Feed) (past : History Table) : Prop where
  kind : s.pipeline.kind = f.kind
  orderly : s.pipeline.Orderly
  isOpen : s.pipeline.backlog.closed = false
  undelayed : s.pipeline.backlog.delayed = []
  valid : s.store.Valid
  cache : s.pipeline.cache.Fits f.kind f.scope
  listing : s.reading = true → s.pipeline.listing.Fits f s.pipeline.cache
  owed : ∀ item ∈ s.owed, f.scope.Contains item.name
  pending : ∀ n ∈ s.pipeline.backlog.pending, f.scope.Contains n
  workers : ∀ w ∈ s.pipeline.workers, ∀ n, w.name? = some n → f.scope.Contains n
  /-- No delivery fails, and each keeps to the path of its name. -/
  talking : ∀ item rest, .talking item rest ∈ s.pipeline.workers →
    rest.Secures (f.kind.pathFor item.name) (fun result _ => result = .ok ())
      (s.found? f item.name)
  paths : ∀ path ∈ s.store.entries, f.kind.Owns path →
    ∃ n, f.scope.Contains n ∧ f.kind.pathFor n = path
  buried : ∀ n : ObjectName, s.pipeline.backlog.pending[n]? = some .delete → past.Buried n
  course : ∀ n, f.scope.Contains n → s.OnCourse f past n

theorem steady_initial {t : Table} (ht : t.Valid) (hempty : ∀ path ∈ t.entries, ¬ f.kind.Owns path)
    (backoff : Backoff) (maxRetries workers : Nat) :
    (initial f.kind backoff maxRetries workers t).Steady f [] where
  kind := rfl
  orderly := Pipeline.orderly_initial f.kind backoff maxRetries workers
  isOpen := rfl
  undelayed := rfl
  valid := ht
  cache := Cache.fits_initial f.kind f.scope
  listing := nofun
  owed := nofun
  pending n hn := absurd hn Std.ExtTreeMap.not_mem_empty
  workers w hw n hn := by
    rw [List.eq_of_mem_replicate hw] at hn
    cases hn
  talking item rest hw := nomatch List.eq_of_mem_replicate hw
  paths path hp ho := absurd ho (hempty path hp)
  buried n hn := by
    rw [show (initial f.kind backoff maxRetries workers t).pipeline.backlog.pending[n]? = none from
      Std.ExtTreeMap.getElem?_empty] at hn
    cases hn
  course n hn := by
    have hdue : (initial f.kind backoff maxRetries workers t).due? n = none :=
      (due?_of_owed_eq_nil rfl).trans Std.ExtTreeMap.getElem?_empty
    have hcontents : Cache.initial.contents? n = none :=
      Cache.contents?_eq_none_iff.2 Std.ExtTreeMap.not_mem_empty
    have hfound : t.entries[f.kind.pathFor n]? = none := by
      rw [getElem?_eq_none_iff]
      exact fun hp => hempty _ hp (Kind.owns_pathFor hn)
    refine ⟨fun hc => (nomatch hdue.symm.trans hc), fun _ => ⟨fun _ => ?_, fun w hw hn => ?_⟩,
      fun _ hd => (nomatch hdue.symm.trans hd)⟩
    · change f.Settled [] n (Cache.initial.contents? n) _
      rw [hcontents]
      exact hfound
    · rw [List.eq_of_mem_replicate hw] at hn
      cases hn

theorem Steady.takeIn (h : s.Steady f past) (ha : f.Admits s.reading s.pipeline.cache event)
    (ho : s.owed = []) (hc : s.pipeline.cache.accept? event = some c) :
    (s.takenIn event c).Steady f past := by
  obtain ⟨c', hc', hcache, hlisting, hnews⟩ := f.news h.cache h.listing ha
  cases hc.symm.trans hc'
  refine { h with
    orderly := h.orderly.congr h.orderly.sound rfl rfl
    cache := hcache
    listing := hlisting
    owed := hnews.scope
    course := fun n hn => ?_ }
  rcases foldl_due n (s.takenIn event c).owed with ⟨hrest, hdue⟩ | ⟨item, hi, rfl, hdue⟩
  · obtain ⟨hnone, heq⟩ := hnews.rest n hrest
    exact (h.course n hn).takenIn_rest ((hdue _).trans (due?_of_owed_eq_nil ho).symm) hnone heq
  · exact (h.course item.name hn).takenIn_item (h.buried item.name) ho hnews hi (hdue _)

theorem Steady.hand {item : WorkItem} {owed : List WorkItem} (h : s.Steady f past)
    (ho : s.owed = item :: owed) :
    ({ s with pipeline := s.pipeline.enqueue item, owed } : Scene Table).Steady f
      (.enqueued item :: past) := by
  have hopen := h.isOpen
  refine { h with
    orderly := h.orderly.congr (h.orderly.sound.add item) rfl Backlog.held_add
    isOpen := Backlog.closed_add.trans hopen
    undelayed := Backlog.delayed_add.trans h.undelayed
    owed := fun item' hi => h.owed item' (ho ▸ List.mem_cons_of_mem _ hi)
    pending := fun n hn => ?_
    buried := fun n hn => ?_
    course := fun n hn => (h.course n hn).alike ?_ }
  · rcases (Backlog.mem_pending_add hopen).1 hn with rfl | hn
    · exact h.owed item (ho ▸ List.mem_cons_self)
    · exact h.pending n hn
  · rw [Pipeline.enqueue, Backlog.getElem?_pending_add hopen] at hn
    obtain ⟨name, change⟩ := item
    split at hn
    · rename_i hname
      cases hn
      exact .inl (by rw [← hname])
    · exact .inr (h.buried n hn)
  · refine ⟨?_, rfl, rfl, fun hh => ?_, fun _ hw _ => hw, rfl, .inr⟩
    · -- What is handed over was due already.
      rw [due?, due?, ho, List.foldl_cons, Pipeline.enqueue, Backlog.getElem?_pending_add hopen]
    · rw [Pipeline.enqueue, Backlog.held_add]
      exact hh

/-! ## Steps of workers -/

variable {i : Nat} {item : WorkItem}

/-- A worker that has an item has a name of the scope. -/
theorem Steady.contains {w : Worker} (h : s.Steady f past) (hw : s.pipeline.workers[i]? = some w)
    (hn : w.name? = some n) : f.scope.Contains n :=
  h.workers w (List.mem_of_getElem? hw) n hn

/-- Deliveries that are not touched keep to their paths. -/
theorem Steady.talking_set {w : Worker} (h : s.Steady f past)
    (hw : ∀ item rest, w ≠ .talking item rest) (item : WorkItem)
    (rest : Dialogue (Except DeliveryError Unit))
    (hmem : .talking item rest ∈ s.pipeline.workers.set i w) :
    rest.Secures (f.kind.pathFor item.name) (fun result _ => result = .ok ())
      (s.found? f item.name) := by
  rcases List.mem_or_eq_of_mem_set hmem with hmem | heq
  · exact h.talking item rest hmem
  · exact absurd heq.symm (hw item rest)

theorem Steady.looks (h : s.Steady f past)
    (hw : s.pipeline.workers[i]? = some (.holding item)) :
    ({ s with
      pipeline := s.pipeline.setWorker i
        (.talking item (Pipeline.delivery s.pipeline.kind s.pipeline.cache item)) } :
          Scene Table).Steady f past := by
  have hscope := h.contains hw (Worker.name?_holding item)
  have hdelivery : (Pipeline.delivery s.pipeline.kind s.pipeline.cache item).Secures
      (f.kind.pathFor item.name) (fun result e => result = .ok () ∧
        Delivered item.change (s.pipeline.cache.contents? item.name) (s.found? f item.name) e)
      (s.found? f item.name) := by
    have hsecures := secures_delivery hscope (fun o => h.cache.bears_of_get? hscope)
      (s.found? f item.name)
    rw [h.cache.get?_eq hscope] at hsecures
    rw [h.kind]
    exact hsecures
  refine { h with
    orderly := h.orderly.setWorker hw rfl
    workers := Worker.forall_mem_set h.workers i fun n hn => h.contains hw hn
    talking := fun item' rest hv => ?_
    course := fun n hn => (h.course n hn).proceed rfl rfl fun goal hp =>
      ⟨hp.free, Worker.forall_mem_set hp.worker i fun hn => ?_⟩ }
  · rcases List.mem_or_eq_of_mem_set hv with hv | heq
    · exact h.talking item' rest hv
    · cases heq
      exact hdelivery.mono fun result e he => he.1
  · cases hn
    have hholding := hp.worker (.holding item) (List.mem_of_getElem? hw) rfl
    exact hdelivery.mono fun result e he => hholding e he.2

theorem Steady.concludes {result : Except DeliveryError Unit} (h : s.Steady f past)
    (hw : s.pipeline.workers[i]? = some (.talking item (.done result))) :
    ({ s with
      pipeline := (s.pipeline.conclude s.now item result).setWorker i (.releasing item) } :
        Scene Table).Steady f past := by
  have hmem := List.mem_of_getElem? hw
  have hok : result = .ok () := h.talking item _ hmem
  subst hok
  refine { h with
    orderly := h.orderly.advance
      (.concludes hw : s.pipeline.Advances Table.backend s.now i s.store _ _)
    workers := Worker.forall_mem_set h.workers i fun n hn => h.contains hw hn
    talking := h.talking_set nofun
    course := fun n hn => (h.course n hn).proceed rfl rfl fun goal hp =>
      ⟨hp.free, Worker.forall_mem_set hp.worker i fun hn => ?_⟩ }
  cases hn
  have htalking := hp.worker _ hmem rfl
  exact htalking

theorem Steady.releases (h : s.Steady f past)
    (hw : s.pipeline.workers[i]? = some (.releasing item)) :
    ({ s with
      pipeline :=
        { s.pipeline with backlog := s.pipeline.backlog.release item.name }.setWorker i .idle } :
          Scene Table).Steady f past := by
  have hmem := List.mem_of_getElem? hw
  refine { h with
    orderly := h.orderly.advance
      (.releases hw : s.pipeline.Advances Table.backend s.now i s.store _ _)
    isOpen := Backlog.closed_release.trans h.isOpen
    undelayed := Backlog.delayed_release.trans h.undelayed
    pending := fun n hn => h.pending n (Backlog.pending_release ▸ hn)
    workers := Worker.forall_mem_set h.workers i nofun
    talking := h.talking_set nofun
    buried := fun n hn => h.buried n (Backlog.pending_release ▸ hn)
    course := fun n hn => (h.course n hn).proceed (due?_congr rfl ?_) rfl fun goal hp =>
      ⟨fun hfree => ?_, Worker.forall_mem_set hp.worker i nofun⟩ }
  · exact congrArg (·[n]?) Backlog.pending_release
  · -- The name is free because it has just been given back, or because it was.
    by_cases hname : item.name = n
    · exact hp.worker _ hmem (congrArg some hname)
    · exact hp.free fun hheld => hfree (Backlog.mem_held_release.2 ⟨hname, hheld⟩)

theorem Steady.talks {rest : Dialogue (Except DeliveryError Unit)} (h : s.Steady f past)
    (hf : f.kind.Fits f.scope) (hw : s.pipeline.workers[i]? = some (.talking item rest))
    (hr : ∀ result, rest ≠ .done result) :
    ({ s with
      pipeline := { s.pipeline with
        journal := (rest.step Table.backend s.pipeline.journal s.store).2.1 }.setWorker i
          (.talking item (rest.step Table.backend s.pipeline.journal s.store).1)
      store := (rest.step Table.backend s.pipeline.journal s.store).2.2 } :
        Scene Table).Steady f past := by
  have hmem := List.mem_of_getElem? hw
  have hscope := h.contains hw (Worker.name?_talking item rest)
  obtain ⟨hstep, hvalid, hframe⟩ := (h.talking item rest hmem).step h.valid s.pipeline.journal
  have hother : ∀ n, f.scope.Contains n → n ≠ item.name →
      (rest.step Table.backend s.pipeline.journal s.store).2.2.entries[f.kind.pathFor n]? =
        s.found? f n := fun n hn hne =>
    hframe _ fun heq => hne (Kind.pathFor_inj hf hn hscope heq)
  -- The other workers have other names.
  have hsingle : ∀ v ∈ s.pipeline.workers.set i
      (.talking item (rest.step Table.backend s.pipeline.journal s.store).1),
      v = .talking item (rest.step Table.backend s.pipeline.journal s.store).1 ∨
        v ∈ s.pipeline.workers ∧ v.name? ≠ some item.name := fun v hv => by
    obtain ⟨j, hj⟩ := List.mem_iff_getElem?.1 hv
    rcases Pipeline.getElem?_setWorker hj with ⟨-, rfl⟩ | ⟨hne, hj⟩
    · exact .inl rfl
    · exact .inr ⟨List.mem_of_getElem? hj, fun hn => hne (h.orderly.single hw hj rfl hn)⟩
  refine { h with
    orderly := h.orderly.advance
      (.talks hw hr : s.pipeline.Advances Table.backend s.now i s.store _ _)
    valid := hvalid
    workers := fun v hv n hn => ?_
    talking := fun item' rest' hv => ?_
    paths := fun path hp ho => ?_
    course := fun n hn => (h.course n hn).proceed rfl rfl fun goal hp => ?_ }
  · rcases hsingle v hv with rfl | ⟨hv, -⟩
    · exact h.contains hw hn
    · exact h.workers v hv n hn
  · rcases hsingle _ hv with heq | ⟨hv, hne⟩
    · cases heq
      exact hstep
    · have hfound := hother item'.name (h.workers _ hv _ rfl) fun heq => hne (congrArg some heq)
      have hsecures := h.talking item' rest' hv
      rw [← hfound] at hsecures
      exact hsecures
  · by_cases hpath : path = f.kind.pathFor item.name
    · exact ⟨item.name, hscope, hpath.symm⟩
    · refine h.paths path ?_ ho
      rw [Std.ExtTreeMap.mem_iff_isSome_getElem?, ← hframe path hpath]
      exact Std.ExtTreeMap.mem_iff_isSome_getElem?.1 hp
  · by_cases hname : n = item.name
    · subst hname
      refine ⟨fun hfree => absurd (h.orderly.held hw rfl) hfree, fun v hv hn => ?_⟩
      rcases hsingle v hv with rfl | ⟨-, hne⟩
      · have hsecures : rest.Secures (f.kind.pathFor item.name) (fun _ e => goal e) _ :=
          hp.worker _ hmem rfl
        exact (hsecures.step h.valid s.pipeline.journal).1
      · exact absurd hn hne
    · have hfound := hother n hn hname
      refine ⟨fun hfree => ?_, fun v hv hn => ?_⟩
      · have hgoal := hp.free hfree
        rw [← hfound] at hgoal
        exact hgoal
      · rcases hsingle v hv with rfl | ⟨hv, -⟩
        · exact absurd (Option.some.inj hn).symm hname
        · have hworker := hp.worker v hv hn
          rw [← hfound] at hworker
          exact hworker

theorem Steady.takes {backlog : Backlog} (h : s.Steady f past)
    (hw : s.pipeline.workers[i]? = some .idle)
    (ht : s.pipeline.backlog.take? = some (item, backlog)) :
    ({ s with pipeline := { s.pipeline with backlog }.setWorker i (.holding item) } :
      Scene Table).Steady f (.handedOut item s.store :: past) := by
  have horderly := h.orderly.advance
    (.takes hw ht : s.pipeline.Advances Table.backend s.now i s.store _ _)
  have hpend : ∀ n, backlog.pending[n]? =
      if item.name = n then none else s.pipeline.backlog.pending[n]? := fun n =>
    Backlog.getElem?_pending_take h.orderly.sound ht
  have hheld : ∀ n, n ∈ backlog.held ↔ item.name = n ∨ n ∈ s.pipeline.backlog.held := fun n =>
    Backlog.mem_held_take h.orderly.sound ht
  obtain ⟨rest, -, hpending, hfree, rfl⟩ := Backlog.take?_eq_some h.orderly.sound ht
  have hmem : item.name ∈ s.pipeline.backlog.pending := by
    rw [Std.ExtTreeMap.mem_iff_isSome_getElem?, hpending]
    rfl
  have hscope := h.pending item.name hmem
  refine { h with
    orderly := horderly
    pending := fun n hn => h.pending n (Std.ExtTreeMap.mem_erase.1 hn).2
    workers := Worker.forall_mem_set h.workers i fun n hn => Option.some.inj hn ▸ hscope
    talking := h.talking_set nofun
    buried := fun n hn => ?_
    course := fun n hn => ?_ }
  · rw [Pipeline.backlog_setWorker, hpend] at hn
    split at hn
    · cases hn
    · rename_i hne
      exact ⟨fun heq => absurd heq hne, h.buried n hn⟩
  · by_cases hname : item.name = n
    · subst hname
      refine (h.course item.name hn).handedOut hpending hfree rfl ((hpend _).trans (if_pos rfl)) rfl
        fun goal hgoal => ⟨fun hn => absurd ((hheld _).2 (.inl rfl)) hn,
          Worker.forall_mem_set (fun v hv hn => ?_) i fun _ => hgoal⟩
      -- Nobody else has the name, since it was not held.
      obtain ⟨j, hj⟩ := List.mem_iff_getElem?.1 hv
      exact absurd (h.orderly.held hj hn) hfree
    · refine (h.course n hn).alike ⟨due?_congr rfl ((hpend n).trans (if_neg hname)), rfl, rfl,
        fun hh => (hheld n).2 (.inr hh), fun v hv hn => ?_, if_neg hname,
        fun hb => ⟨fun heq => absurd heq hname, hb⟩⟩
      rcases List.mem_or_eq_of_mem_set hv with hv | rfl
      · exact hv
      · exact absurd (Option.some.inj hn) hname

/-! ## Runs -/

/-- What one move preserves. -/
theorem Steady.move (h : s.Steady f past) (hf : f.kind.Fits f.scope) {m : Move} (hm : f.May s m)
    (hs : s.move? Table.backend m = some s') : s'.Steady f ((s.occurs? m).toList ++ past) := by
  cases moves_of_move? hs with
  | takeIn ho hc => exact h.takeIn hm ho hc
  | hand ho =>
    rw [occurs?, ho]
    exact h.hand ho
  | @advance i p store ha =>
    cases ha with
    | takes hw ht =>
      rw [occurs?_takes hw ht]
      exact h.takes hw ht
    | leaves hw ht hc => rw [h.isOpen] at hc; cases hc
    | looks hw =>
      rw [occurs?_looks hw]
      exact h.looks hw
    | @concludes item result hw =>
      have hok : result = .ok () := h.talking item _ (List.mem_of_getElem? hw)
      rw [occurs?_concludes hw, hok]
      exact h.concludes (hok ▸ hw)
    | talks hw hr =>
      rw [occurs?_talks hw hr]
      exact h.talks hf hw hr
    | releases hw =>
      rw [occurs?_releases hw]
      exact h.releases hw
  | fire hd hdue =>
    rw [h.undelayed] at hd
    cases hd
  | wait time =>
    exact { h with course := fun n hn =>
      (h.course n hn).alike ⟨rfl, rfl, rfl, id, fun _ hw _ => hw, rfl, id⟩ }

/-- What a whole run preserves. -/
theorem Steady.reaches {start : Scene Table} (h : start.Steady f []) (hf : f.kind.Fits f.scope)
    (hr : Reaches Table.backend f.May start past s) : s.Steady f past := by
  induction hr with
  | start => exact h
  | move _ hm hs ih => exact ih.move hf hm hs

end Scene

end ClusterSync
