import ClusterSync.Proofs.Controller.Within
import ClusterSync.Proofs.Supervisor.Office

/-!
# One delivery at a time on each path

The backlog of a controller lets a name go to one worker at a time, and each kind has one
controller. So as long as the watches bring objects whose names stay apart on their way to a path,
no two deliveries are ever about the same path, whoever makes them.

**Theorem (`Reaches.singleFlight`).** A delivery makes calls about one path, and no other one that
is under way at the same time is about that path.

**Theorem (`Reaches.undisturbed`).** On a table on which nobody else writes these paths, an update
finds in its transaction what it has read before, no delivery fails, and none is counted as failed.
-/

namespace ClusterSync

open Text

variable {σ : Type} {kind : Kind} {n : ObjectName}

/-- Nodes belong to the whole cluster, and policies to namespaces. -/
def Kind.scope : Kind → Scope
  | .node => .cluster
  | .policy => .namespaced

theorem Kind.fits_scope (kind : Kind) : kind.Fits kind.scope := by
  rintro rfl
  rfl

/-- The counts of deliveries that have failed, and of what has become of them. -/
def Sample.IsFailure : Sample → Prop
  | .syncErrors .. | .requeues _ | .itemsDropped _ => True
  | .eventsEnqueued .. | .syncs _ | .syncDurations _ | .queueDepth _ | .storeOperations ..
  | .controllersRunning => False

/-- No failure has been counted. -/
def Journal.CountsNoFailure (j : Journal) : Prop :=
  ∀ sample, sample.IsFailure → j.metrics.value sample = 0

theorem Journal.CountsNoFailure.adjust {j : Journal} {sample : Sample} (h : j.CountsNoFailure)
    (hs : ¬ sample.IsFailure) (amount : Int) : (j.adjust sample amount).CountsNoFailure := by
  intro other ho
  have hne : other ≠ sample := by
    rintro rfl
    exact hs ho
  rw [value_adjust, if_neg hne, Int.add_zero]
  exact h other ho

theorem Journal.CountsNoFailure.count {j : Journal} {sample : Sample} (h : j.CountsNoFailure)
    (hs : ¬ sample.IsFailure) : (j.count sample).CountsNoFailure := h.adjust hs 1

theorem Dialogue.KeepsTo.countsNoFailure {α : Type} {P : String → Prop} {p : Dialogue α}
    {journal : Journal} (backend : Backend σ) (store : σ) (h : p.KeepsTo P)
    (hj : journal.CountsNoFailure) : (p.step backend journal store).2.1.CountsNoFailure := by
  intro sample hs
  rw [h.value_step]
  · exact hj sample hs
  · rintro operation outcome rfl
    exact hs

/-- Watches that bring only objects of their kind, with names of its scope. -/
def Outside.KeepsScope (w : Outside) : Prop :=
  ∀ kind event, w.news kind event → event.IsAbout kind kind.scope

/-- The path of an object of a kind. -/
def Kind.Uses (kind : Kind) (path : String) : Prop :=
  ∃ n, kind.scope.Contains n ∧ path = kind.pathFor n

theorem Kind.Uses.owns {path : String} (h : kind.Uses path) : kind.Owns path := by
  obtain ⟨n, hn, rfl⟩ := h
  exact Kind.owns_pathFor hn

/-- The paths that deliveries may be about. -/
def IsObjectPath (path : String) : Prop := ∃ kind : Kind, kind.Uses path

namespace Shift

variable {s s' : Shift σ} {backend : Backend σ} {w : Outside} {m : Move} {o : Option Incident}
  {i j : Nat} {item : WorkItem}

/-! ## Members in order -/

/-- A controller whose workers have different names of its scope and keep to their own paths. -/
structure Tidy (s : Shift σ) : Prop where
  course : s.OnCourse
  order : s.InOrder
  within : s.Within s.pipeline.kind.scope
  topic : s.OnTopic (AboutOwn s.pipeline.kind)

theorem preserves_tidy (hw : w.KeepsScope) : w.Preserves backend Tidy where
  place store now h :=
    ⟨h.course, ⟨h.order.orderly, h.order.failing⟩, ⟨h.within.cache, h.within.listing,
      h.within.owed, h.within.backlog, h.within.workers⟩, h.topic⟩
  move {s s' m r} h hm hs := by
    have hwithin : m.IsWithin s.pipeline.kind s.pipeline.kind.scope := by
      cases m with
      | takeIn event => exact hw _ event hm
      | add => exact hm.elim
      | start | tellToStop | respond | hand | abandon | work | fire | wait => trivial
    have hkind := hs.kind
    refine ⟨h.course.moves hs, h.order.moves h.course hs, ?_, ?_⟩
    · rw [hkind]
      exact h.within.moves hwithin hs
    · rw [hkind]
      exact hs.onTopic h.topic h.within.willKeepTo

/-- Workers with different names have different paths. -/
theorem Tidy.pathFor_inj {v v' : Worker} {n n' : ObjectName} (h : s.Tidy)
    (hv : s.pipeline.workers[i]? = some v) (hn : v.name? = some n)
    (hv' : s.pipeline.workers[j]? = some v') (hn' : v'.name? = some n')
    (hp : s.pipeline.kind.pathFor n = s.pipeline.kind.pathFor n') : i = j := by
  have hnames : n = n' :=
    Kind.pathFor_inj (Kind.fits_scope _) (h.within.name hv hn) (h.within.name hv' hn') hp
  subst hnames
  exact h.order.orderly.single hv hv' hn hn'

theorem Tidy.uses {v : Worker} {n : ObjectName} (h : s.Tidy)
    (hv : s.pipeline.workers[i]? = some v) (hn : v.name? = some n) :
    s.pipeline.kind.Uses (s.pipeline.kind.pathFor n) :=
  ⟨n, h.within.name hv hn, rfl⟩

end Shift

namespace Office

variable {o o' : Office σ} {backend : Backend σ} {w : Outside} {i j a b : Nat} {path : String}
  {item item' : WorkItem} {rest rest' : Dialogue (Except DeliveryError Unit)}
  {settings : Settings} {now : Nat} {store : σ}

theorem tidy_opening : ∀ i s, (opening settings now store).shift? i = some s → s.Tidy := by
  intro i s hs
  obtain ⟨kind, rfl⟩ := exists_kind_of_opening hs
  have hempty : (Backlog.initial (.initial settings.backoffStart settings.backoffMax)).Within
      kind.scope := ⟨nofun, nofun⟩
  exact ⟨⟨rfl, rfl, rfl⟩, ⟨Pipeline.orderly_initial kind _ _ 0, fun hi => absurd rfl hi⟩,
    ⟨Cache.fits_initial kind kind.scope, nofun, nofun, hempty, nofun⟩,
    Shift.onTopic_of_workers_eq_nil rfl⟩

theorem Reaches.tidy (hw : w.KeepsScope)
    (h : Reaches backend w (opening settings now store) o) :
    ∀ i s, o.shift? i = some s → s.Tidy :=
  h.shift (Shift.preserves_tidy hw) tidy_opening

/-- The worker `a` of the member `i` is delivering an item, which is about a path. -/
def Delivers (o : Office σ) (i a : Nat) (path : String) (item : WorkItem)
    (rest : Dialogue (Except DeliveryError Unit)) : Prop :=
  ∃ s, o.shift? i = some s ∧ s.pipeline.workers[a]? = some (.talking item rest) ∧
    path = s.pipeline.kind.pathFor item.name

/-- Every delivery makes calls about one path, and there is no other one about it. -/
structure SingleFlight (o : Office σ) : Prop where
  keepsTo : ∀ {i a path item rest}, o.Delivers i a path item rest → rest.KeepsTo (· = path)
  single : ∀ {i a j b path item item' rest rest'}, o.Delivers i a path item rest →
    o.Delivers j b path item' rest' → i = j ∧ a = b

theorem Reaches.singleFlight (hw : w.KeepsScope)
    (h : Reaches backend w (opening settings now store) o) : o.SingleFlight where
  keepsTo {i a path item rest} hd := by
    obtain ⟨s, hs, hworker, rfl⟩ := hd
    exact (h.tidy hw i s hs).topic item rest (List.mem_of_getElem? hworker)
  single {i a j b path item item' rest rest'} hd hd' := by
    obtain ⟨s, hs, hworker, rfl⟩ := hd
    obtain ⟨s', hs', hworker', hpath⟩ := hd'
    have huses := (h.tidy hw i s hs).uses hworker rfl
    have huses' := (h.tidy hw j s' hs').uses hworker' rfl
    rw [← hpath] at huses'
    have hij : i = j := h.eq_of_kind hs hs' (huses.owns.kind_eq huses'.owns)
    subst hij
    cases hs.symm.trans hs'
    exact ⟨rfl, (h.tidy hw i s hs).pathFor_inj hworker rfl hworker' rfl hpath⟩

end Office

/-! ## Deliveries that nobody disturbs -/

/-- What is left of a delivery comes to a good end, and its transactions find what they expect if it
is an update, as long as nobody else touches its path. -/
structure Smooth (path : String) (change : Change) (rest : Dialogue (Except DeliveryError Unit))
    (found : Option Entry) : Prop where
  secures : rest.Secures path (fun result _ => result = .ok ()) found
  prevails : change = .update → rest.Prevails path found

namespace Shift

variable {s s' : Shift Table} {m : Move} {r : Option Incident} {i j : Nat} {item : WorkItem}
  {rest : Dialogue (Except DeliveryError Unit)}

/-- The path that an item is about. -/
def pathOf (s : Shift Table) (item : WorkItem) : String := s.pipeline.kind.pathFor item.name

/-- A controller on whose paths nobody else writes. -/
structure Safe (s : Shift Table) : Prop where
  tidy : s.Tidy
  reached : s.store.Reached
  smooth : ∀ {j : Nat} {item rest}, s.pipeline.workers[j]? = some (.talking item rest) →
    Smooth (s.pathOf item) item.change rest s.store.entries[s.pathOf item]?
  uncounted : s.pipeline.journal.CountsNoFailure

theorem Safe.not_failed (h : s.Safe) {e : DeliveryError} :
    s.pipeline.workers[i]? ≠ some (.talking item (.done (.error e))) := by
  intro hw
  have hok : Except.error e = Except.ok () := (h.smooth hw).secures
  cases hok

/-- Deliveries go on as they were when a worker does something else. -/
theorem Safe.smooth_set {w : Worker} (h : s.Safe)
    (hj : (s.pipeline.workers.set i w)[j]? = some (.talking item rest))
    (hw : ∀ item rest, w ≠ .talking item rest) :
    Smooth (s.pathOf item) item.change rest s.store.entries[s.pathOf item]? := by
  rcases Pipeline.getElem?_setWorker hj with ⟨-, heq⟩ | ⟨-, hj⟩
  · exact absurd heq.symm (hw item rest)
  · exact h.smooth hj

theorem Safe.smooth_delivery (h : s.Safe)
    (hw : s.pipeline.workers[i]? = some (.holding item)) :
    Smooth (s.pathOf item) item.change (Pipeline.delivery s.pipeline.kind s.pipeline.cache item)
      s.store.entries[s.pathOf item]? := by
  have hname := h.tidy.within.name hw rfl
  have hbears : ∀ o, s.pipeline.cache.get? item.name = some o →
      o.Bears s.pipeline.kind s.pipeline.kind.scope item.name :=
    fun o => h.tidy.within.cache.bears_of_get? hname
  refine ⟨(secures_delivery hname hbears _).mono fun result e he => he.1, fun hc => ?_⟩
  exact Pipeline.prevails_delivery hc hbears _

/-- A step of one delivery leaves the paths of the others alone. -/
theorem Safe.smooth_step {next : Dialogue (Except DeliveryError Unit)} {journal : Journal}
    {store : Table} (h : s.Safe) (hw : s.pipeline.workers[i]? = some (.talking item rest))
    (hn : rest.step Table.backend s.pipeline.journal s.store = (next, journal, store))
    {item' : WorkItem} {rest' : Dialogue (Except DeliveryError Unit)}
    (hj : (s.pipeline.workers.set i (.talking item next))[j]? = some (.talking item' rest')) :
    Smooth (s.pathOf item') item'.change rest' store.entries[s.pathOf item']? := by
  obtain ⟨hsecures, -, hsame⟩ := (h.smooth hw).secures.step h.reached.valid s.pipeline.journal
  rw [hn] at hsecures hsame
  rcases Pipeline.getElem?_setWorker hj with ⟨-, heq⟩ | ⟨hij, hj⟩
  · cases heq
    refine ⟨hsecures, fun hc => ?_⟩
    have hprevails := ((h.smooth hw).prevails hc).step h.reached.valid s.pipeline.journal
    rw [hn] at hprevails
    exact hprevails
  · have hne : s.pathOf item' ≠ s.pathOf item := fun hp =>
      hij (h.tidy.pathFor_inj hw rfl hj rfl hp.symm)
    have hfound : store.entries[s.pathOf item']? = s.store.entries[s.pathOf item']? :=
      hsame _ hne
    rw [hfound]
    exact h.smooth hj

theorem Safe.works (h : s.Safe) (hw : s.Works Table.backend i r s') (ht : s'.Tidy)
    (hs : s'.store.Reached) : s'.Safe := by
  cases hw with
  | takes => exact ⟨ht, hs, fun hj => h.smooth_set hj nofun, h.uncounted⟩
  | leaves => exact ⟨ht, hs, fun hj => h.smooth_set hj nofun, h.uncounted⟩
  | releases => exact ⟨ht, hs, fun hj => h.smooth_set hj nofun, h.uncounted⟩
  | succeeds =>
    refine ⟨ht, hs, fun hj => h.smooth_set hj nofun, ?_⟩
    exact (h.uncounted.count id).count id
  | looks hw =>
    refine ⟨ht, hs, fun {j item' rest'} hj => ?_, h.uncounted⟩
    rcases Pipeline.getElem?_setWorker hj with ⟨-, heq⟩ | ⟨-, hj⟩
    · cases heq
      exact h.smooth_delivery hw
    · exact h.smooth hj
  | @talks item rest next journal store hw hr hn =>
    refine ⟨ht, hs, fun hj => h.smooth_step hw hn hj, ?_⟩
    have hkeeps := h.tidy.topic item rest (List.mem_of_getElem? hw)
    have hcounts := hkeeps.countsNoFailure Table.backend s.store h.uncounted
    rw [hn] at hcounts
    exact hcounts
  | judges hw | counts hw | desists hw | readds hw | delays hw | forgets hw =>
    exact absurd hw h.not_failed

theorem Safe.moves (h : s.Safe) (hm : s.Moves Table.backend m r s') (ht : s'.Tidy) :
    s'.Safe := by
  have hs := hm.reached h.reached
  cases hm with
  | works hw => exact h.works hw ht hs
  | starts | told | takesIn | adds | abandons | fires | waits =>
    exact ⟨ht, hs, h.smooth, h.uncounted⟩
  | hands => exact ⟨ht, hs, h.smooth, h.uncounted.count id⟩
  | responds hr =>
    cases hr with
    | starts =>
      refine ⟨ht, hs, fun {j item rest} hj => ?_, h.uncounted.adjust id 1⟩
      cases List.eq_of_mem_replicate (List.mem_of_getElem? hj)
    | fails | drains | reports => exact ⟨ht, hs, h.smooth, h.uncounted⟩
    | stops => exact ⟨ht, hs, h.smooth, h.uncounted.adjust id (-1)⟩

/-- Nothing changes for a controller while others write other paths. -/
theorem Safe.moveTo {store : Table} {now : Nat} (h : s.Safe) (ht : (s.moveTo store now).Tidy)
    (hs : store.Reached)
    (hsame : ∀ path, s.pipeline.kind.Uses path → store.entries[path]? = s.store.entries[path]?) :
    (s.moveTo store now).Safe := by
  refine ⟨ht, hs, fun {j item rest} hj => ?_, h.uncounted⟩
  have hfound : store.entries[s.pathOf item]? = s.store.entries[s.pathOf item]? :=
    hsame _ (h.tidy.uses hj rfl)
  show Smooth (s.pathOf item) item.change rest store.entries[s.pathOf item]?
  rw [hfound]
  exact h.smooth hj

end Shift

namespace Office

variable {o o' : Office σ} {backend : Backend σ} {w : Outside} {i j : Nat} {path : String}
  {settings : Settings} {now : Nat} {store : σ}

/-! ## The supervisor itself -/

/-- A supervisor whose dialogue is about the flag, and which counts no failure. -/
structure Modest (supervisor : Supervisor) : Prop where
  keepsTo : ∀ rest, supervisor.stage.dialogue? = some rest → rest.KeepsTo (· = Key.readyPath)
  uncounted : supervisor.journal.CountsNoFailure

section

variable {supervisor supervisor' : Supervisor}

theorem countsNoFailure_reportAll {events : List LogEvent}
    (h : supervisor.journal.CountsNoFailure) :
    (supervisor.reportAll events).journal.CountsNoFailure := by
  have hfold : ∀ (events : List LogEvent) (j : Journal), j.CountsNoFailure →
      (events.foldl Journal.record j).CountsNoFailure := by
    intro events
    induction events with
    | nil => exact fun _ hj => hj
    | cons event events ih => exact fun j hj => ih (j.record event) hj
  exact hfold events _ h

theorem modest_start (settings : Settings) (now : Nat) :
    Modest (Supervisor.start settings now) where
  keepsTo rest h := by
    unfold Supervisor.start Supervisor.reportAll at h
    dsimp only at h
    split at h <;> cases h
  uncounted := countsNoFailure_reportAll fun _ _ => rfl

theorem Modest.respond {stimulus : Supervisor.Stimulus} (h : Modest supervisor)
    (hr : supervisor.respond? stimulus = some supervisor') : Modest supervisor' := by
  unfold Supervisor.respond? at hr
  dsimp only at hr
  split at hr
  · split at hr
    · rename_i allRunning _
      cases hr
      unfold Supervisor.concludeRollCall
      cases allRunning with
      | true =>
        refine ⟨fun rest heq => ?_, h.uncounted⟩
        cases heq
        exact ReadyFlag.keepsTo_publish true
      | false => exact ⟨nofun, countsNoFailure_reportAll h.uncounted⟩
    · obtain ⟨⟨roll, events⟩, -, rfl⟩ := Option.map_eq_some_iff.1 hr
      exact ⟨nofun, countsNoFailure_reportAll h.uncounted⟩
  · split at hr
    · cases hr
      refine ⟨fun rest heq => ?_, h.uncounted⟩
      cases heq
      exact ReadyFlag.keepsTo_publish false
    · cases hr
  · split at hr
    · cases hr
      refine ⟨fun rest heq => ?_, h.uncounted⟩
      cases heq
      exact ReadyFlag.keepsTo_publish false
    · cases hr
  · split at hr
    · cases hr
      exact ⟨nofun, countsNoFailure_reportAll h.uncounted⟩
    · cases hr
  · cases hr

theorem Modest.speak {store' : σ} (h : Modest supervisor)
    (hs : supervisor.speak? backend store = some (supervisor', store')) : Modest supervisor' := by
  obtain ⟨rest, hrest, hjournal, hnext⟩ := exists_step_of_speak? hs
  have hkeeps := h.keepsTo rest hrest
  refine ⟨fun rest' heq => ?_, ?_⟩
  · rw [hnext rest' heq]
    exact hkeeps.step backend supervisor.journal store
  · have hcounts := hkeeps.countsNoFailure backend store h.uncounted
    rw [hjournal] at hcounts
    exact hcounts

theorem Modest.setController {c : Controller} (h : Modest supervisor) :
    Modest (supervisor.setController i c) where
  keepsTo rest := by
    rw [stage_setController]
    exact h.keepsTo rest
  uncounted := by
    unfold Supervisor.setController
    split
    · exact h.uncounted
    · exact countsNoFailure_reportAll h.uncounted

end

theorem Steps.modest (h : o.Steps backend w o') (hm : Modest o.supervisor) :
    Modest o'.supervisor := by
  cases h with
  | responds h => exact hm.respond h
  | speaks h => exact hm.speak h
  | signal | chokes => exact ⟨hm.keepsTo, hm.uncounted⟩
  | serves | hears => exact hm.setController
  | commits | waits => exact hm
  | leaves ho h =>
    obtain ⟨m, -, rfl⟩ := exists_member_of_endWatch? h
    exact ⟨hm.keepsTo, hm.uncounted⟩

theorem Reaches.modest (h : Reaches backend w (opening settings now store) o) :
    Modest o.supervisor := by
  induction h with
  | start => exact modest_start settings now
  | step _ hs ih => exact hs.modest ih

/-! ## All members together -/

section Tables

variable {o : Office Table} {t : Table}

/-- What is not done by the member of a kind leaves the paths of the kind alone. -/
theorem Drifts.getElem?_store {kind : Kind} {store : Table}
    (hd : o.Drifts Table.backend w j store) (hm : Modest o.supervisor)
    (hx : ∀ x, w.writes x → x.Spares IsObjectPath)
    (htidy : ∀ i s, o.shift? i = some s → s.Tidy)
    (hkind : ∀ i s, o.shift? i = some s → s.pipeline.kind = kind → i = j) (hp : kind.Uses path) :
    store.entries[path]? = o.store.entries[path]? := by
  cases hd with
  | rests => rfl
  | speaks h =>
    obtain ⟨rest, hrest, hstore, -⟩ := exists_step_of_speak? h
    have hsame := (hm.keepsTo rest hrest).getElem?_step o.supervisor.journal o.store
      hp.owns.ne_readyPath
    rw [hstore] at hsame
    exact hsame
  | @works i s t m r hij hs h =>
    have hmoves := Shift.moves_of_move? h
    have ht := htidy i s hs
    refine (hmoves.getElem?_store ht.topic fun a item rest hworker hpath => ?_).trans ?_
    · have huses := ht.uses hworker rfl
      rw [← hpath] at huses
      exact hij (hkind i s hs (huses.owns.kind_eq hp.owns))
    · rw [store_eq hs]
  | commits h => exact Table.getElem?_commit_of_spares (hx _ h) ⟨kind, hp⟩

theorem safe_opening (ht : t.Reached) :
    ∀ i s, (opening settings now t).shift? i = some s → s.Safe := by
  intro i s hs
  have htidy := tidy_opening i s hs
  obtain ⟨kind, rfl⟩ := exists_kind_of_opening hs
  refine ⟨htidy, ht, fun {j item rest} hj => ?_, fun _ _ => rfl⟩
  have hnone : ([] : List Worker)[j]? = some (.talking item rest) := hj
  cases hnone

theorem Reaches.safe (hw : w.KeepsScope) (hx : ∀ x, w.writes x → x.Spares IsObjectPath)
    (ht : t.Reached) (h : Reaches Table.backend w (opening settings now t) o) :
    ∀ i s, o.shift? i = some s → s.Safe := by
  induction h with
  | start => exact safe_opening ht
  | @step o o' hreach hs ih =>
    intro j s' hs'
    have htidy := (hreach.step hs).tidy hw j s' hs'
    obtain ⟨s, hbefore, hcarries⟩ := hs.exists_shift hs'
    have hsafe := ih j s hbefore
    have hreached := (hreach.step hs).reached ht
    rw [← store_eq hs'] at hreached
    cases hcarries with
    | moves _ hmove => exact hsafe.moves (Shift.moves_of_move? hmove) htidy
    | stays hd now =>
      refine hsafe.moveTo htidy hreached fun path hp => ?_
      rw [store_eq hbefore]
      exact hd.getElem?_store hreach.modest hx (hreach.tidy hw)
        (fun i u hu hk => hreach.eq_of_kind hu hbefore hk) hp

/-- No delivery fails, no update finds its path changed, and no failure is counted. -/
structure Undisturbed (o : Office Table) : Prop where
  succeeds : ∀ {i a path item result}, o.Delivers i a path item (.done result) → result = .ok ()
  unchanged : ∀ {i a path n x next}, o.Delivers i a path ⟨n, .update⟩ (.commit x next) →
    o.store.satisfies x.comparison = true
  uncounted : o.supervisor.journal.CountsNoFailure ∧
    ∀ m ∈ o.supervisor.members, m.controller.pipeline.journal.CountsNoFailure

theorem Reaches.undisturbed (hw : w.KeepsScope) (hx : ∀ x, w.writes x → x.Spares IsObjectPath)
    (ht : t.Reached) (h : Reaches Table.backend w (opening settings now t) o) :
    o.Undisturbed where
  succeeds {i a path item result} hd := by
    obtain ⟨s, hs, hworker, rfl⟩ := hd
    exact ((h.safe hw hx ht i s hs).smooth hworker).secures
  unchanged {i a path n x next} hd := by
    obtain ⟨s, hs, hworker, rfl⟩ := hd
    have hsafe := h.safe hw hx ht i s hs
    have hprevails := (hsafe.smooth hworker).prevails rfl
    rw [← store_eq hs]
    exact (hprevails s.store hsafe.reached.valid rfl).1
  uncounted := by
    refine ⟨h.modest.uncounted, fun m hm => ?_⟩
    obtain ⟨i, hi⟩ := List.getElem?_of_mem hm
    exact (h.safe hw hx ht i _ (shift?_eq_some hi)).uncounted

end Tables

/-- Whatever the members do and whatever their watches bring, there is one delivery at a time on
each path; and so on a table nothing comes between the reading and the writing of an update. -/
theorem one_delivery_on_each_path (settings : Settings) (now : Nat) {w : Outside}
    (hw : w.KeepsScope) :
    (∀ (σ : Type) (backend : Backend σ) (store : σ) (o : Office σ),
      Reaches backend w (opening settings now store) o → o.SingleFlight) ∧
    ∀ (t : Table) (o : Office Table), t.Reached → (∀ x, w.writes x → x.Spares IsObjectPath) →
      Reaches Table.backend w (opening settings now t) o → o.Undisturbed :=
  ⟨fun _ _ _ _ h => h.singleFlight hw, fun _ _ ht hx h => h.undisturbed hw hx ht⟩

section Example

/-- Two workers for nodes and one for policies. -/
def bothKinds : Settings :=
  { Settings.default with controllers := "node,unp", nodeWorkers := 2 }

/-- All that may come from outside if it keeps to the scopes and spares the paths of objects. -/
def scopedNews : Outside where
  news kind event := event.IsAbout kind kind.scope
  writes x := x.Spares IsObjectPath

instance (kind : Kind) (event : WatchEvent) : Decidable (scopedNews.news kind event) :=
  inferInstanceAs (Decidable (event.IsAbout kind kind.scope))

def nodeAt (version : String) : WatchedObject :=
  .node { metadata := { name := some "n1", resourceVersion := some version } }

def policyInSpace : WatchedObject :=
  .policy { metadata := { name := some "p1", «namespace» := some "ns" }, spec := {} }

/-- A node is written and then updated twice. The second update waits while the first one is about
to be written; meanwhile the policy is about to be created. -/
def busyActs : List Act :=
  [.hear 0 .node .listBegins, .hear 0 .node (.listed (nodeAt "1")), .hear 0 .node .listEnds,
    .serve 0 .hand, .serve 0 (.respond .cache)] ++
  List.replicate 6 (.serve 0 (.work 0)) ++
  [.hear 0 .node (.applied (nodeAt "2")), .serve 0 .hand] ++
  List.replicate 3 (.serve 0 (.work 1)) ++
  [.hear 0 .node (.applied (nodeAt "3")), .serve 0 .hand,
    .hear 1 .policy .listBegins, .hear 1 .policy .listEnds,
    .hear 1 .policy (.applied policyInSpace), .serve 1 .hand, .serve 1 (.respond .cache),
    .serve 1 (.work 0), .serve 1 (.work 0)]

def busyOffice? : Option (Office Table) :=
  busyActs.foldlM (act? Table.backend) (opening bothKinds 0 .initial)

/-- What the workers of each member have. -/
def atWork (o : Office Table) : List (List (Option WorkItem)) :=
  o.supervisor.members.map fun m => m.controller.pipeline.workers.map Worker.item?

theorem atWork_busyOffice : busyOffice?.map atWork =
    some [[none, some ⟨.cluster "n1", .update⟩], [some ⟨⟨some "ns", "p1"⟩, .add⟩]] := by
  decide +kernel

theorem one_delivery_on_each_path_of_bothKinds :
    ∃ o, Reaches Table.backend scopedNews (opening bothKinds 0 .initial) o ∧
      atWork o = [[none, some ⟨.cluster "n1", .update⟩], [some ⟨⟨some "ns", "p1"⟩, .add⟩]] ∧
      o.SingleFlight ∧ o.Undisturbed := by
  have hscope : scopedNews.KeepsScope := fun _ _ h => h
  obtain ⟨o, ho, hat⟩ := Option.map_eq_some_iff.1 atWork_busyOffice
  have hmay : ∀ act ∈ busyActs, act.May scopedNews := by decide +kernel
  have hreaches : Reaches Table.backend scopedNews (opening bothKinds 0 .initial) o :=
    Reaches.start.acts ho hmay
  obtain ⟨hsingle, hundisturbed⟩ := one_delivery_on_each_path bothKinds 0 hscope
  exact ⟨o, hreaches, hat, hsingle _ _ _ o hreaches,
    hundisturbed _ o .initial (fun _ h => h) hreaches⟩

end Example

end Office

end ClusterSync
