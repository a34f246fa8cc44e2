import ClusterSync.Controller.Worker
import ClusterSync.Proofs.Backlog.Sound
import ClusterSync.Proofs.Watch.News

/-!
# Pipelines at work

A scene is a pipeline between its watch and its datastore. Its moves are as small as what others
can come between: an event reaches the cache in one move, and each item that follows from it is
added in a move of its own, while workers go on, delays end and time passes. Nobody closes the
backlog here.

A history tells which items were added because of events, which were added again because their
delivery had failed, and which were handed out, and what the datastore was then.

**Theorem (`receive?_eq_play`).** Taking an event in at one go is one order of these moves.

**Theorem (`Orderly.advance`).** Whatever the datastore answers, workers hold different names, and
the backlog knows them as held.
-/

namespace ClusterSync

variable {σ : Type}

/-! ## Steps of workers -/

namespace Worker

/-- The name that a worker has. -/
def name? (w : Worker) : Option ObjectName := w.item?.map (·.name)

@[simp] theorem name?_idle : idle.name? = none := rfl

@[simp] theorem name?_finished : finished.name? = none := rfl

@[simp] theorem name?_holding (item : WorkItem) : (holding item).name? = some item.name := rfl

@[simp] theorem name?_talking (item : WorkItem) (rest : Dialogue (Except DeliveryError Unit)) :
    (talking item rest).name? = some item.name := rfl

@[simp] theorem name?_releasing (item : WorkItem) : (releasing item).name? = some item.name := rfl

/-- What holds of all workers still does when one of them goes on in a way for which it holds. -/
theorem forall_mem_set {P : Worker → Prop} {workers : List Worker} {w : Worker}
    (h : ∀ v ∈ workers, P v) (i : Nat) (hw : P w) : ∀ v ∈ workers.set i w, P v := fun v hv => by
  rcases List.mem_or_eq_of_mem_set hv with hv | rfl
  · exact h v hv
  · exact hw

end Worker

namespace Pipeline

variable {p p' : Pipeline} {store store' : σ} {backend : Backend σ} {now i j : Nat}
  {item : WorkItem} {w v : Worker}

/-- The item that a delivery puts back at once: one that failed and has no delay to wait for. -/
def readmits? (p : Pipeline) (item : WorkItem) : Except DeliveryError Unit → Option WorkItem
  | .ok () => none
  | .error e =>
    if RetryPolicy.verdict p.backlog item e p.maxRetries = .requeue ∧ p.backlog.closed = false ∧
        (p.backlog.backoff.next item.name).1.nanos = 0 then some item
    else none

theorem readmits?_eq_some {item' : WorkItem} {result : Except DeliveryError Unit}
    (h : p.readmits? item result = some item') : item = item' := by
  cases result with
  | ok => cases h
  | error e =>
    rw [readmits?] at h
    split at h
    · exact Option.some.inj h
    · cases h

/-- The steps of a worker, one for each state that it can be in. -/
inductive Advances (backend : Backend σ) (now i : Nat) (p : Pipeline) (store : σ) :
    Pipeline → σ → Prop
  | takes {item : WorkItem} {backlog : Backlog} (hw : p.workers[i]? = some .idle)
      (ht : p.backlog.take? = some (item, backlog)) :
      Advances backend now i p store ({ p with backlog }.setWorker i (.holding item)) store
  | leaves (hw : p.workers[i]? = some .idle) (ht : p.backlog.take? = none)
      (hc : p.backlog.closed = true) :
      Advances backend now i p store (p.setWorker i .finished) store
  | looks {item : WorkItem} (hw : p.workers[i]? = some (.holding item)) :
      Advances backend now i p store
        (p.setWorker i (.talking item (delivery p.kind p.cache item))) store
  | concludes {item : WorkItem} {result : Except DeliveryError Unit}
      (hw : p.workers[i]? = some (.talking item (.done result))) :
      Advances backend now i p store
        ((p.conclude now item result).setWorker i (.releasing item)) store
  | talks {item : WorkItem} {rest : Dialogue (Except DeliveryError Unit)}
      (hw : p.workers[i]? = some (.talking item rest)) (hr : ∀ result, rest ≠ .done result) :
      Advances backend now i p store
        ({ p with journal := (rest.step backend p.journal store).2.1 }.setWorker i
          (.talking item (rest.step backend p.journal store).1))
        (rest.step backend p.journal store).2.2
  | releases {item : WorkItem} (hw : p.workers[i]? = some (.releasing item)) :
      Advances backend now i p store
        ({ p with backlog := p.backlog.release item.name }.setWorker i .idle) store

theorem advances_of_advance? (h : p.advance? backend now i store = some (p', store')) :
    p.Advances backend now i store p' store' := by
  unfold advance? at h
  split at h
  · cases h
  · cases h
  · cases h
  · rename_i hw
    split at h
    · rename_i ht
      cases h
      exact .takes hw ht
    · rename_i ht
      split at h
      · rename_i hc
        cases h
        exact .leaves hw ht hc
      · cases h
  · rename_i hw
    cases h
    exact .looks hw
  · rename_i hw
    cases h
    exact .concludes hw
  · rename_i hr hw
    cases h
    exact .talks hw fun result heq => hr result heq
  · rename_i hw
    cases h
    exact .releases hw

@[simp] theorem workers_setWorker : (p.setWorker i w).workers = p.workers.set i w := rfl

@[simp] theorem backlog_setWorker : (p.setWorker i w).backlog = p.backlog := rfl

theorem getElem?_setWorker (h : (p.setWorker i w).workers[j]? = some v) :
    i = j ∧ v = w ∨ i ≠ j ∧ p.workers[j]? = some v := by
  rw [workers_setWorker, List.getElem?_set] at h
  split at h
  · rename_i heq
    split at h
    · exact .inl ⟨heq, (Option.some.inj h).symm⟩
    · cases h
  · rename_i hne
    exact .inr ⟨hne, h⟩

theorem getElem?_setWorker_self (h : p.workers[i]? = some w) :
    (p.setWorker i v).workers[i]? = some v :=
  List.getElem?_set_self (List.getElem?_eq_some_iff.1 h).1

/-! ## Conclusions -/

/-- A conclusion changes nothing but the backlog and the journal. -/
theorem conclude_eq (p : Pipeline) (now : Nat) (item : WorkItem)
    (result : Except DeliveryError Unit) :
    ∃ backlog journal, p.conclude now item result = { p with backlog, journal } := by
  unfold conclude
  cases result <;> exact ⟨_, _, rfl⟩

@[simp] theorem workers_conclude {result : Except DeliveryError Unit} :
    (p.conclude now item result).workers = p.workers := by
  obtain ⟨_, _, h⟩ := p.conclude_eq now item result
  rw [h]

/-- To the backlog a conclusion adds what it puts back at once. Apart from that it only counts
failures and puts the item off. -/
theorem backlog_conclude (p : Pipeline) (now : Nat) (item : WorkItem)
    (result : Except DeliveryError Unit) :
    ∃ backoff delayed, (∀ d ∈ delayed, d ∈ p.backlog.delayed ∨ d.item = item) ∧
      (p.conclude now item result).backlog =
        { (p.readmits? item result).elim p.backlog p.backlog.add with backoff, delayed } := by
  cases result with
  | ok => exact ⟨p.backlog.backoff.forget item.name, p.backlog.delayed, fun d hd => .inl hd, rfl⟩
  | error e =>
    unfold readmits? conclude verdict RetryPolicy.carryOut
    dsimp only
    by_cases hv : RetryPolicy.verdict p.backlog item e p.maxRetries = .requeue
    · obtain ⟨backoff, delayed, hd, hb⟩ := p.backlog.addLater_eq now item
      refine ⟨backoff, delayed, hd, ?_⟩
      rw [hv]
      dsimp only
      rw [hb]
      by_cases hz : p.backlog.closed = false ∧ (p.backlog.backoff.next item.name).1.nanos = 0
      · rw [if_pos hz, if_pos ⟨rfl, hz⟩]
        rfl
      · rw [if_neg hz, if_neg fun h => hz h.2]
        rfl
    · rw [if_neg fun h => hv h.1]
      refine ⟨p.backlog.backoff.forget item.name, p.backlog.delayed, fun d hd => .inl hd, ?_⟩
      -- Both verdicts other than a requeue forget the name.
      split
      · rename_i hreq
        exact absurd hreq hv
      · rfl
      · rfl

theorem held_conclude {result : Except DeliveryError Unit} :
    (p.conclude now item result).backlog.held = p.backlog.held := by
  obtain ⟨_, _, -, h⟩ := p.backlog_conclude now item result
  rw [h]
  cases p.readmits? item result with
  | none => rfl
  | some item => exact Backlog.held_add

/-! ## Workers and the names they hold -/

/-- The backlog is sound, and what it holds for its workers is what they have, each something
else. -/
structure Orderly (p : Pipeline) : Prop where
  sound : p.backlog.Sound
  held : ∀ {i : Nat} {w : Worker} {n : ObjectName}, p.workers[i]? = some w →
    w.name? = some n → n ∈ p.backlog.held
  had : ∀ {n : ObjectName}, n ∈ p.backlog.held →
    ∃ (i : Nat) (w : Worker), p.workers[i]? = some w ∧ w.name? = some n
  single : ∀ {i j : Nat} {w v : Worker} {n : ObjectName}, p.workers[i]? = some w →
    p.workers[j]? = some v → w.name? = some n → v.name? = some n → i = j

/-- A pipeline whose workers wait for their first items. -/
theorem orderly_initial (kind : Kind) (backoff : Backoff) (maxRetries workers : Nat) :
    ({ initial kind backoff maxRetries with
      workers := List.replicate workers .idle } : Pipeline).Orderly := by
  have hidle : ∀ {i : Nat} {w : Worker}, (List.replicate workers Worker.idle)[i]? = some w →
      w.name? = none := fun hw => by
    rw [List.eq_of_mem_replicate (List.mem_of_getElem? hw)]
    rfl
  refine ⟨Backlog.sound_initial backoff, fun hi hn => ?_, fun hn => ?_, fun hi _ hn => ?_⟩
  · rw [hidle hi] at hn
    cases hn
  · exact absurd hn Std.ExtTreeSet.not_mem_empty
  · rw [hidle hi] at hn
    cases hn

/-- Nothing else counts. -/
theorem Orderly.congr (h : p.Orderly) (hs : p'.backlog.Sound) (hw : p'.workers = p.workers)
    (hh : p'.backlog.held = p.backlog.held) : p'.Orderly where
  sound := hs
  held hi hn := by rw [hh]; exact h.held (hw ▸ hi) hn
  had hn := by rw [hw]; exact h.had (hh ▸ hn)
  single hi hj := h.single (hw ▸ hi) (hw ▸ hj)

/-- A worker goes on with the name that it has, if it has one. -/
theorem Orderly.setWorker (h : p.Orderly) (hw : p.workers[i]? = some w)
    (hn : v.name? = w.name?) : (p.setWorker i v).Orderly where
  sound := h.sound
  held {j u n} hj hu := by
    rcases getElem?_setWorker hj with ⟨-, rfl⟩ | ⟨-, hj⟩
    · exact h.held hw (hn ▸ hu)
    · exact h.held hj hu
  had {n} hmem := by
    obtain ⟨j, u, hj, hu⟩ := h.had hmem
    by_cases hij : i = j
    · subst hij
      cases hw.symm.trans hj
      exact ⟨i, v, getElem?_setWorker_self hw, hn.trans hu⟩
    · exact ⟨j, u, (List.getElem?_set_ne hij).trans hj, hu⟩
  single {j k u u' n} hj hk hu hu' := by
    rcases getElem?_setWorker hj with ⟨rfl, rfl⟩ | ⟨-, hj'⟩ <;>
      rcases getElem?_setWorker hk with ⟨rfl, rfl⟩ | ⟨-, hk'⟩
    · rfl
    · exact h.single hw hk' (hn ▸ hu) hu'
    · exact h.single hj' hw hu (hn ▸ hu')
    · exact h.single hj' hk' hu hu'

theorem Orderly.advance (h : p.Orderly) (ha : p.Advances backend now i store p' store') :
    p'.Orderly := by
  cases ha with
  | @takes item backlog hw ht =>
    obtain ⟨rest, -, -, hfree, -⟩ := Backlog.take?_eq_some h.sound ht
    have hmem : ∀ n, n ∈ backlog.held ↔ item.name = n ∨ n ∈ p.backlog.held := fun n =>
      Backlog.mem_held_take h.sound ht
    -- Nobody else can have the name, since it was not held.
    have hother : ∀ {j : Nat} {v : Worker} {n : ObjectName}, p.workers[j]? = some v →
        v.name? = some n → item.name ≠ n :=
      fun hj hv heq => hfree (heq ▸ h.held hj hv)
    refine ⟨h.sound.take ht, fun hj hv => ?_, fun hn => ?_, fun {j k u u' n} hj hk hu hu' => ?_⟩
    · rcases getElem?_setWorker hj with ⟨-, rfl⟩ | ⟨-, hj⟩
      · exact (hmem _).2 (.inl (Option.some.inj hv))
      · exact (hmem _).2 (.inr (h.held hj hv))
    · rcases (hmem _).1 hn with rfl | hn
      · exact ⟨i, _, getElem?_setWorker_self hw, rfl⟩
      · obtain ⟨j, v, hj, hv⟩ := h.had hn
        have hij : i ≠ j := fun heq => by
          subst heq
          cases hw.symm.trans hj
          cases hv
        exact ⟨j, v, (List.getElem?_set_ne hij).trans hj, hv⟩
    · rcases getElem?_setWorker hj with ⟨rfl, rfl⟩ | ⟨-, hj'⟩ <;>
        rcases getElem?_setWorker hk with ⟨rfl, rfl⟩ | ⟨-, hk'⟩
      · rfl
      · exact absurd (Option.some.inj hu) (hother hk' hu')
      · exact absurd (Option.some.inj hu') (hother hj' hu)
      · exact h.single hj' hk' hu hu'
  | leaves hw ht hc => exact h.setWorker hw rfl
  | looks hw => exact h.setWorker hw rfl
  | @concludes item result hw =>
    obtain ⟨_, _, -, hb⟩ := p.backlog_conclude now item result
    have hs : (p.conclude now item result).backlog.Sound := by
      rw [hb]
      cases p.readmits? item result with
      | none => exact h.sound.congr rfl rfl rfl
      | some item => exact (h.sound.add item).congr rfl rfl rfl
    have h' : (p.conclude now item result).Orderly := h.congr hs workers_conclude held_conclude
    have hw' : (p.conclude now item result).workers[i]? = some (.talking item (.done result)) := by
      rw [workers_conclude]
      exact hw
    exact h'.setWorker hw' rfl
  | @talks item rest hw hr =>
    have h' : (p.setWorker i (.talking item (rest.step backend p.journal store).1)).Orderly :=
      h.setWorker hw rfl
    exact h'.congr h.sound rfl rfl
  | @releases item hw =>
    have hheld := h.held hw (Worker.name?_releasing item)
    -- The worker that releases the name is the one that had it.
    have hother : ∀ {j : Nat} {v : Worker} {n : ObjectName}, i ≠ j → p.workers[j]? = some v →
        v.name? = some n → item.name ≠ n := fun hne hj hv heq =>
      hne (h.single hw hj (Worker.name?_releasing item) (heq ▸ hv))
    refine ⟨h.sound.release hheld, fun {j v n} hj hv => ?_, fun {n} hn => ?_,
      fun {j k u u' n} hj hk hu hu' => ?_⟩
    · rcases getElem?_setWorker hj with ⟨-, rfl⟩ | ⟨hne, hj⟩
      · cases hv
      · exact Backlog.mem_held_release.2 ⟨hother hne hj hv, h.held hj hv⟩
    · obtain ⟨hname, hn⟩ := Backlog.mem_held_release.1 hn
      obtain ⟨j, v, hj, hv⟩ := h.had hn
      have hij : i ≠ j := fun heq => by
        subst heq
        cases hw.symm.trans hj
        exact hname (Option.some.inj hv)
      exact ⟨j, v, (List.getElem?_set_ne hij).trans hj, hv⟩
    · rcases getElem?_setWorker hj with ⟨-, rfl⟩ | ⟨-, hj'⟩
      · cases hu
      rcases getElem?_setWorker hk with ⟨-, rfl⟩ | ⟨-, hk'⟩
      · cases hu'
      exact h.single hj' hk' hu hu'

end Pipeline

/-! ## Scenes -/

/-- A pipeline at work. -/
structure Scene (σ : Type) where
  pipeline : Pipeline
  store : σ
  now : Nat
  /-- The items that follow from the last event and are still to be added. -/
  owed : List WorkItem
  /-- Whether a list is being read. -/
  reading : Bool

inductive Move
  /-- An event reaches the cache. -/
  | takeIn (event : WatchEvent)
  /-- The first of the owed items is added. -/
  | hand
  | advance (worker : Nat)
  /-- The delay at a place of the delayed work is over. -/
  | fire (delayed : Nat)
  | wait (time : Nat)

/-- What a history tells. -/
inductive Occurrence (σ : Type)
  | enqueued (item : WorkItem)
  | requeued (item : WorkItem)
  | handedOut (item : WorkItem) (store : σ)

/-- What has occurred so far, the latest first. -/
abbrev History (σ : Type) := List (Occurrence σ)

namespace Scene

/-- Nothing has happened yet. -/
def initial (kind : Kind) (backoff : Backoff) (maxRetries workers : Nat) (store : σ) : Scene σ :=
  ⟨{ Pipeline.initial kind backoff maxRetries with workers := List.replicate workers .idle }, store,
    0, [], false⟩

def setBacklog (s : Scene σ) (backlog : Backlog) : Scene σ :=
  { s with pipeline := { s.pipeline with backlog } }

/-- An event has been taken in and has led to a cache. -/
def takenIn (s : Scene σ) (event : WatchEvent) (cache : Cache) : Scene σ :=
  { s with
    pipeline := (s.pipeline.takenIn event cache).1
    owed := (s.pipeline.takenIn event cache).2
    reading := event.readingAfter s.reading }

/-- Makes a move; none if it cannot be made now. -/
def move? (backend : Backend σ) (s : Scene σ) : Move → Option (Scene σ)
  | .takeIn event =>
    if s.owed = [] then (s.pipeline.cache.accept? event).map (s.takenIn event) else none
  | .hand =>
    match s.owed with
    | [] => none
    | item :: owed => some { s with pipeline := s.pipeline.enqueue item, owed }
  | .advance i =>
    (s.pipeline.advance? backend s.now i s.store).map fun (pipeline, store) =>
      { s with pipeline, store }
  | .fire i =>
    (s.pipeline.backlog.delayed[i]?).bind fun d =>
      if d.due ≤ s.now then some (s.setBacklog (s.pipeline.backlog.fire i)) else none
  | .wait time => some { s with now := s.now + time }

/-- The moves that can be made, one constructor for each kind. -/
inductive Moves (backend : Backend σ) (s : Scene σ) : Move → Scene σ → Prop
  | takeIn {event : WatchEvent} {cache : Cache} (ho : s.owed = [])
      (hc : s.pipeline.cache.accept? event = some cache) :
      Moves backend s (.takeIn event) (s.takenIn event cache)
  | hand {item : WorkItem} {owed : List WorkItem} (ho : s.owed = item :: owed) :
      Moves backend s .hand { s with pipeline := s.pipeline.enqueue item, owed }
  | advance {i : Nat} {pipeline : Pipeline} {store : σ}
      (ha : s.pipeline.Advances backend s.now i s.store pipeline store) :
      Moves backend s (.advance i) { s with pipeline, store }
  | fire {i : Nat} {d : Delayed} (hd : s.pipeline.backlog.delayed[i]? = some d)
      (hdue : d.due ≤ s.now) :
      Moves backend s (.fire i) (s.setBacklog (s.pipeline.backlog.fire i))
  | wait (time : Nat) : Moves backend s (.wait time) { s with now := s.now + time }

theorem moves_of_move? {backend : Backend σ} {s s' : Scene σ} {m : Move}
    (h : s.move? backend m = some s') : s.Moves backend m s' := by
  cases m with
  | takeIn event =>
    rw [move?] at h
    split at h
    · rename_i ho
      obtain ⟨cache, hc, rfl⟩ := Option.map_eq_some_iff.1 h
      exact .takeIn ho hc
    · cases h
  | hand =>
    rw [move?] at h
    split at h
    · cases h
    · rename_i item owed ho
      cases h
      exact .hand ho
  | advance i =>
    obtain ⟨⟨p, store⟩, ha, rfl⟩ := Option.map_eq_some_iff.1 h
    exact .advance (Pipeline.advances_of_advance? ha)
  | fire i =>
    obtain ⟨d, hd, h⟩ := Option.bind_eq_some_iff.1 h
    split at h
    · rename_i hdue
      cases h
      exact .fire hd hdue
    · cases h
  | wait time =>
    cases h
    exact .wait time

/-- What occurs at a move. -/
def occurs? (s : Scene σ) : Move → Option (Occurrence σ)
  | .takeIn _ | .wait _ => none
  | .hand => s.owed.head?.map .enqueued
  | .advance i =>
    match s.pipeline.workers[i]? with
    | some .idle => s.pipeline.backlog.take?.map fun (item, _) => .handedOut item s.store
    | some (.talking item (.done result)) => (s.pipeline.readmits? item result).map .requeued
    | _ => none
  | .fire i => s.pipeline.backlog.delayed[i]?.map (.requeued ·.item)

section Occurs

variable {s : Scene σ} {i : Nat} {item : WorkItem}

theorem occurs?_takes {backlog : Backlog} (hw : s.pipeline.workers[i]? = some .idle)
    (ht : s.pipeline.backlog.take? = some (item, backlog)) :
    s.occurs? (.advance i) = some (.handedOut item s.store) := by
  simp only [occurs?, hw, ht, Option.map_some]

theorem occurs?_leaves (hw : s.pipeline.workers[i]? = some .idle)
    (ht : s.pipeline.backlog.take? = none) : s.occurs? (.advance i) = none := by
  simp only [occurs?, hw, ht, Option.map_none]

theorem occurs?_looks (hw : s.pipeline.workers[i]? = some (.holding item)) :
    s.occurs? (.advance i) = none := by
  simp only [occurs?, hw]

theorem occurs?_concludes {result : Except DeliveryError Unit}
    (hw : s.pipeline.workers[i]? = some (.talking item (.done result))) :
    s.occurs? (.advance i) = (s.pipeline.readmits? item result).map .requeued := by
  simp only [occurs?, hw]

theorem occurs?_talks {rest : Dialogue (Except DeliveryError Unit)}
    (hw : s.pipeline.workers[i]? = some (.talking item rest)) (hr : ∀ result, rest ≠ .done result) :
    s.occurs? (.advance i) = none := by
  cases rest with
  | done result => exact absurd rfl (hr result)
  | commit | read | log | count => simp only [occurs?, hw]

theorem occurs?_releases (hw : s.pipeline.workers[i]? = some (.releasing item)) :
    s.occurs? (.advance i) = none := by
  simp only [occurs?, hw]

end Occurs

/-- Makes a move if it can be made. -/
def after (backend : Backend σ) (s : Scene σ) (m : Move) : Scene σ := (s.move? backend m).getD s

/-- Makes moves one after the other and goes on with a history. -/
def play (backend : Backend σ) (past : History σ) (s : Scene σ) : List Move → History σ × Scene σ
  | [] => (past, s)
  | m :: moves => play backend ((s.occurs? m).toList ++ past) (s.after backend m) moves

/-- Each of the moves is one that may and can be made when it is made. -/
def Playable (backend : Backend σ) (may : Scene σ → Move → Prop) (s : Scene σ) :
    List Move → Prop
  | [] => True
  | m :: moves =>
    may s m ∧ (s.move? backend m).isSome ∧ Playable backend may (s.after backend m) moves

instance decidablePlayable (backend : Backend σ) (may : Scene σ → Move → Prop)
    [∀ s m, Decidable (may s m)] (s : Scene σ) :
    (moves : List Move) → Decidable (s.Playable backend may moves)
  | [] => isTrue trivial
  | m :: moves =>
    have := decidablePlayable backend may (s.after backend m) moves
    inferInstanceAs (Decidable (_ ∧ _ ∧ _))

/-- Adding all the items that are owed, one after the other. -/
theorem play_hand (backend : Backend σ) (past : History σ) (s : Scene σ) :
    play backend past s (List.replicate s.owed.length .hand) =
      (s.owed.reverse.map .enqueued ++ past,
        { s with pipeline := s.owed.foldl Pipeline.enqueue s.pipeline, owed := [] }) := by
  obtain ⟨p, store, now, owed, reading⟩ := s
  induction owed generalizing p past with
  | nil => rfl
  | cons item owed ih =>
    dsimp only [List.length_cons, List.replicate_succ]
    rw [play]
    refine (ih (.enqueued item :: past) (p.enqueue item)).trans ?_
    simp

/-- Taking an event in at one go. -/
theorem receive?_eq_play {backend : Backend σ} {past : History σ} {s : Scene σ}
    {event : WatchEvent} {p : Pipeline} {count : Nat} (howed : s.owed = [])
    (h : s.pipeline.receive? event = some (p, count)) :
    (play backend past s (.takeIn event :: List.replicate count .hand)).2 =
      { s with pipeline := p, reading := event.readingAfter s.reading } := by
  obtain ⟨cache, hcache, heq⟩ := Option.map_eq_some_iff.1 h
  cases heq
  rw [play, after, move?, if_pos howed, hcache, Option.map_some, Option.getD_some]
  have hplay := play_hand backend ((s.occurs? (.takeIn event)).toList ++ past)
    (s.takenIn event cache)
  refine (congrArg Prod.snd hplay).trans ?_
  simp only [takenIn, howed]
  rfl

/-! ## Runs -/

/-- The histories and scenes that moves lead to, as long as each is one that may be made. -/
inductive Reaches (backend : Backend σ) (may : Scene σ → Move → Prop) (start : Scene σ) :
    History σ → Scene σ → Prop
  | start : Reaches backend may start [] start
  | move {past : History σ} {s s' : Scene σ} {m : Move} (h : Reaches backend may start past s)
      (hm : may s m) (hs : s.move? backend m = some s') :
      Reaches backend may start ((s.occurs? m).toList ++ past) s'

theorem Reaches.play {backend : Backend σ} {may : Scene σ → Move → Prop} {start s : Scene σ}
    {past : History σ} (h : Reaches backend may start past s) (moves : List Move)
    (hp : s.Playable backend may moves) :
    Reaches backend may start (s.play backend past moves).1 (s.play backend past moves).2 := by
  induction moves generalizing s past with
  | nil => exact h
  | cons m moves ih =>
    obtain ⟨hm, hs, hrest⟩ := hp
    obtain ⟨s', hs'⟩ := Option.isSome_iff_exists.1 hs
    have hafter : s.after backend m = s' := by rw [after, hs', Option.getD_some]
    exact ih (.move h hm (hafter ▸ hs')) hrest

end Scene

/-- The moves of a scene whose news come from a feed. -/
def Feed.May (f : Feed) (s : Scene σ) : Move → Prop
  | .takeIn event => f.Admits s.reading s.pipeline.cache event
  | .hand | .advance _ | .fire _ | .wait _ => True

instance (f : Feed) [Decidable f.versioned] (s : Scene σ) (m : Move) : Decidable (f.May s m) :=
  match m with
  | .takeIn event => inferInstanceAs (Decidable (f.Admits s.reading s.pipeline.cache event))
  | .hand | .advance _ | .fire _ | .wait _ => isTrue trivial

end ClusterSync
