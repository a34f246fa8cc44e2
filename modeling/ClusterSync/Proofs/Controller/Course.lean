import ClusterSync.Proofs.Controller.Scene
import ClusterSync.Proofs.Delivery.Delivered

/-!
# How a pipeline keeps its datastore on course

A pipeline is fed by a watch and works on a table that nobody else writes and that does not fail.
For each name there is at most one change that is due: the last one that is owed to the backlog, or
else the one that waits there. `Scene.OnCourse` says for a single name what holds at any moment.

- If a change is due, it is a deletion exactly if the cache does not hold the name.
- If none is due, the worker that has the name brings about what the cache asks for; and if no
  worker has the name, that is what its path holds already.

What a worker will bring about depends on how far it is with its item. `Scene.Promises` puts a goal
for a path down to that.

**Theorem (`OnCourse.takenIn_item`, `OnCourse.takenIn_rest`).** A name stays on course when an
event is taken in, whether it leads to work for the name or not.

**Theorem (`OnCourse.handedOut`).** It stays on course when it is handed out, if the worker that
gets it will do what its change asks for.

An addition does not write a path that exists, so the course allows the path to hold other bytes
than the cache asks for, if the name has last been handed out as added while the path held them.
That can only be after the deletion of an object gave way to the addition of another one.
-/

namespace ClusterSync

open Text

/-! ## Histories -/

namespace History

variable {σ : Type} {past : History σ} {n : ObjectName}

/-- The change with which a name was last handed out, and what the datastore was then. -/
def lastHandedOut? (n : ObjectName) : History σ → Option (Change × σ)
  | [] => none
  | .handedOut item store :: past =>
    if item.name = n then some (item.change, store) else lastHandedOut? n past
  | .enqueued _ :: past | .requeued _ :: past => lastHandedOut? n past

/-- A deletion of the name was added, and since then the name has been handed out as added only. -/
def Buried (n : ObjectName) : History σ → Prop
  | [] => False
  | .enqueued item :: past => item = ⟨n, .delete⟩ ∨ Buried n past
  | .requeued _ :: past => Buried n past
  | .handedOut item _ :: past => (item.name = n → item.change = .add) ∧ Buried n past

/-- The name has last been handed out as added while its path held other bytes. -/
def FoundOther (past : History Table) (n : ObjectName) (path : String) (bytes : Bytes) : Prop :=
  ∃ (t : Table) (e : Entry), lastHandedOut? n past = some (.add, t) ∧
    t.entries[path]? = some e ∧ e.value ≠ bytes

end History

/-! ## Goals and promises -/

variable {f : Feed} {past past' : History Table} {n : ObjectName} {contents : Option Bytes}
  {found e : Option Entry} {path : String} {goal goal' : Option Entry → Prop}

/-- What the path of a name is to hold once nothing is left to be done. -/
def Feed.Settled (f : Feed) (past : History Table) (n : ObjectName) (contents : Option Bytes)
    (found : Option Entry) : Prop :=
  match contents with
  | none => found = none
  | some bytes => ∃ e, found = some e ∧ (f.versioned →
      (e.value ≠ bytes ↔ past.FoundOther n (f.kind.pathFor n) bytes) ∧
      (e.value ≠ bytes → past.Buried n))

/-- The path holds nothing but what the cache asks for. -/
def Fresh (contents : Option Bytes) (found : Option Entry) : Prop :=
  ∀ e, found = some e → some e.value = contents

namespace Worker

/-- What a worker will bring about on the path of its name. -/
def Promises (path : String) (contents : Option Bytes) (found : Option Entry)
    (goal : Option Entry → Prop) : Worker → Prop
  | .holding item => ∀ e, Delivered item.change contents found e → goal e
  | .talking _ rest => rest.Secures path (fun _ e => goal e) found
  | .releasing _ | .idle | .finished | .broken => goal found

theorem Promises.mono {w : Worker} (h : w.Promises path contents found goal)
    (hg : ∀ e, goal e → goal' e) : w.Promises path contents found goal' := by
  cases w with
  | holding item => exact fun e he => hg e (h e he)
  | talking item rest => exact Dialogue.Secures.mono h fun _ e => hg e
  | idle | releasing | finished | broken => exact hg _ h

end Worker

namespace Scene

variable {s s' : Scene Table}

/-- What the path of a name holds. -/
def found? (s : Scene Table) (f : Feed) (n : ObjectName) : Option Entry :=
  s.store.entries[f.kind.pathFor n]?

/-- The change that is due for a name. -/
def due? (s : Scene Table) (n : ObjectName) : Option Change :=
  s.owed.foldl (fun due item => if item.name = n then some item.change else due)
    s.pipeline.backlog.pending[n]?

/-- The path of a name will come to meet a goal if nothing more is handed out: the worker that has
the name brings that about, or there is none and the path meets the goal already. -/
structure Promises (s : Scene Table) (f : Feed) (n : ObjectName) (goal : Option Entry → Prop) :
    Prop where
  free : n ∉ s.pipeline.backlog.held → goal (s.found? f n)
  worker : ∀ w ∈ s.pipeline.workers, w.name? = some n →
    w.Promises (f.kind.pathFor n) (s.pipeline.cache.contents? n) (s.found? f n) goal

theorem Promises.mono (h : s.Promises f n goal) (hg : ∀ e, goal e → goal' e) :
    s.Promises f n goal' where
  free hn := hg _ (h.free hn)
  worker w hw hn := (h.worker w hw hn).mono hg

/-- What holds for a name at any moment. -/
structure OnCourse (s : Scene Table) (f : Feed) (past : History Table) (n : ObjectName) :
    Prop where
  due : ∀ {c : Change}, s.due? n = some c → (c = .delete ↔ s.pipeline.cache.contents? n = none)
  settled : s.due? n = none →
    s.Promises f n (f.Settled past n (s.pipeline.cache.contents? n))
  added : f.versioned → s.due? n = some .add →
    past.Buried n ∨ s.Promises f n (Fresh (s.pipeline.cache.contents? n))

/-- Between two scenes nothing has happened that concerns a name. -/
structure Alike (s : Scene Table) (past : History Table) (s' : Scene Table)
    (past' : History Table) (f : Feed) (n : ObjectName) : Prop where
  due : s'.due? n = s.due? n
  contents : s'.pipeline.cache.contents? n = s.pipeline.cache.contents? n
  found : s'.found? f n = s.found? f n
  held : n ∈ s.pipeline.backlog.held → n ∈ s'.pipeline.backlog.held
  workers : ∀ w ∈ s'.pipeline.workers, w.name? = some n → w ∈ s.pipeline.workers
  handedOut : past'.lastHandedOut? n = past.lastHandedOut? n
  buried : past.Buried n → past'.Buried n

theorem Alike.promises (ha : Alike s past s' past' f n) (h : s.Promises f n goal) :
    s'.Promises f n goal where
  free hn := by
    rw [ha.found]
    exact h.free (mt ha.held hn)
  worker w hw hn := by
    rw [ha.contents, ha.found]
    exact h.worker w (ha.workers w hw hn) hn

theorem Alike.settled (ha : Alike s past s' past' f n)
    (h : f.Settled past n contents e) : f.Settled past' n contents e := by
  cases contents with
  | none => exact h
  | some bytes =>
    obtain ⟨e', he, hv⟩ := h
    refine ⟨e', he, fun hf => ⟨(hv hf).1.trans ?_, fun hne => ha.buried ((hv hf).2 hne)⟩⟩
    unfold History.FoundOther
    rw [ha.handedOut]

theorem OnCourse.alike (h : s.OnCourse f past n) (ha : Alike s past s' past' f n) :
    s'.OnCourse f past' n where
  due hc := by
    rw [ha.contents]
    exact h.due (ha.due ▸ hc)
  settled hd := by
    rw [ha.contents]
    exact (ha.promises (h.settled (ha.due ▸ hd))).mono fun _ => ha.settled
  added hf hd := by
    rw [ha.contents]
    exact (h.added hf (ha.due ▸ hd)).imp ha.buried ha.promises

/-- Promises are kept while a name is neither handed out nor changed in the cache. -/
theorem OnCourse.proceed (h : s.OnCourse f past n) (hdue : s'.due? n = s.due? n)
    (hc : s'.pipeline.cache.contents? n = s.pipeline.cache.contents? n)
    (hp : ∀ goal, s.Promises f n goal → s'.Promises f n goal) : s'.OnCourse f past n where
  due hd := by
    rw [hc]
    exact h.due (hdue ▸ hd)
  settled hd := by
    rw [hc]
    exact hp _ (h.settled (hdue ▸ hd))
  added hf hd := by
    rw [hc]
    exact (h.added hf (hdue ▸ hd)).imp_right (hp _)

/-! ## Changes that are due -/

/-- Of the owed items the last one for a name counts. -/
theorem foldl_due (n : ObjectName) (owed : List WorkItem) :
    ((∀ item ∈ owed, item.name ≠ n) ∧ ∀ due : Option Change,
        owed.foldl (fun due item => if item.name = n then some item.change else due) due = due) ∨
      ∃ item ∈ owed, item.name = n ∧ ∀ due : Option Change,
        owed.foldl (fun due item => if item.name = n then some item.change else due) due =
          some item.change := by
  induction owed with
  | nil => exact .inl ⟨nofun, fun _ => rfl⟩
  | cons item owed ih =>
    rcases ih with ⟨hnone, heq⟩ | ⟨last, hlast, hn, heq⟩
    · by_cases hname : item.name = n
      · refine .inr ⟨item, List.mem_cons_self, hname, fun due => ?_⟩
        rw [List.foldl_cons, if_pos hname]
        exact heq _
      · refine .inl ⟨fun item' hi => ?_, fun due => ?_⟩
        · rcases List.mem_cons.1 hi with rfl | hi
          · exact hname
          · exact hnone item' hi
        · rw [List.foldl_cons, if_neg hname]
          exact heq _
    · exact .inr ⟨last, List.mem_cons_of_mem _ hlast, hn, fun due => heq _⟩

theorem due?_of_owed_eq_nil (h : s.owed = []) : s.due? n = s.pipeline.backlog.pending[n]? := by
  rw [due?, h]
  rfl

theorem due?_congr (ho : s'.owed = s.owed)
    (hp : s'.pipeline.backlog.pending[n]? = s.pipeline.backlog.pending[n]?) :
    s'.due? n = s.due? n := by
  rw [due?, due?, ho, hp]

end Scene

/-! ## News -/

theorem Feed.settled_some_iff (hf : ¬ f.versioned) {bytes : Bytes} :
    f.Settled past n (some bytes) e ↔ ∃ e', e = some e' :=
  ⟨fun ⟨e', he, _⟩ => ⟨e', he⟩, fun ⟨e', he⟩ => ⟨e', he, fun hv => absurd hv hf⟩⟩

/-- Whether there is something in the end does not depend on what the cache asks for. -/
theorem Worker.Promises.exists_of_some {w : Worker} {bytes bytes' : Bytes}
    (h : w.Promises path (some bytes) found fun e => ∃ e', e = some e') :
    w.Promises path (some bytes') found fun e => ∃ e', e = some e' := by
  cases w with
  | talking | idle | releasing | finished | broken => exact h
  | holding item =>
    refine fun e he => he.exists_eq_some fun hdelete => ?_
    obtain ⟨e', he'⟩ := h none (by rw [hdelete]; rfl)
    cases he'

/-- A worker that will leave nothing because the cache asks for nothing will leave nothing but what
the cache asks for. -/
theorem Worker.Promises.fresh {w : Worker} (h : w.Promises path none found (· = none))
    (hc : contents ≠ none) : w.Promises path contents found (Fresh contents) := by
  have hnone : ∀ e : Option Entry, e = none → Fresh contents e := fun e he e' he' => by
    rw [he] at he'
    cases he'
  cases w with
  | talking item rest => exact Dialogue.Secures.mono h fun _ e => hnone e
  | idle | releasing | finished | broken => exact hnone _ h
  | holding item =>
    intro e he
    obtain ⟨name, change⟩ := item
    obtain ⟨bytes, rfl⟩ := Option.ne_none_iff_exists'.1 hc
    cases change with
    | delete => exact hnone e he
    | add =>
      cases h found rfl
      obtain ⟨e', rfl, hvalue⟩ := he
      exact fun e'' he'' => by cases he''; rw [hvalue]
    | update =>
      obtain ⟨e', rfl, hvalue⟩ := he
      exact fun e'' he'' => by cases he''; rw [hvalue]

namespace Scene

variable {s s' : Scene Table} {event : WatchEvent} {c : Cache}

/-- An event has been taken in that leads to no work for the name. -/
theorem OnCourse.takenIn_rest (h : s.OnCourse f past n)
    (hdue : (s.takenIn event c).due? n = s.due? n)
    (hnone : c.contents? n = none ↔ s.pipeline.cache.contents? n = none)
    (heq : f.versioned → c.contents? n = s.pipeline.cache.contents? n) :
    (s.takenIn event c).OnCourse f past n := by
  by_cases hsame : c.contents? n = s.pipeline.cache.contents? n
  · exact h.alike ⟨hdue, hsame, rfl, id, fun _ hw _ => hw, rfl, id⟩
  -- The object has been replaced by another one of the same version.
  have hf : ¬ f.versioned := fun hf => hsame (heq hf)
  refine ⟨fun hc => (h.due (hdue ▸ hc)).trans hnone.symm, fun hd => ?_, fun hv => absurd hv hf⟩
  have hsettled := h.settled (hdue ▸ hd)
  change (s.takenIn event c).Promises f n (f.Settled past n (c.contents? n))
  cases hold : s.pipeline.cache.contents? n with
  | none => exact absurd ((hnone.2 hold).trans hold.symm) hsame
  | some bytes =>
    obtain ⟨bytes', hnew⟩ := Option.ne_none_iff_exists'.1 (mt hnone.1 (by rw [hold]; nofun))
    rw [hold] at hsettled
    rw [hnew]
    refine ⟨fun hn => ?_, fun w hw hn => ?_⟩
    · exact (Feed.settled_some_iff hf).2 ((Feed.settled_some_iff hf).1 (hsettled.free hn))
    · have hworker := hsettled.worker w hw hn
      rw [hold] at hworker
      change w.Promises _ (c.contents? n) _ _
      rw [hnew]
      refine (Worker.Promises.exists_of_some (hworker.mono fun e => ?_)).mono fun e => ?_
      · exact (Feed.settled_some_iff hf).1
      · exact (Feed.settled_some_iff hf).2

/-- An event has been taken in that leads to work for the name. -/
theorem OnCourse.takenIn_item {item : WorkItem} {items : List WorkItem}
    (h : s.OnCourse f past item.name)
    (hburied : s.pipeline.backlog.pending[item.name]? = some .delete → past.Buried item.name)
    (ho : s.owed = []) (hnews : f.News s.pipeline.cache c items) (hi : item ∈ items)
    (hdue : (s.takenIn event c).due? item.name = some item.change) :
    (s.takenIn event c).OnCourse f past item.name := by
  refine ⟨fun hc => ?_, fun hd => ?_, fun _ hd => ?_⟩
  · cases hdue.symm.trans hc
    exact hnews.delete_iff item hi
  · rw [hdue] at hd
    cases hd
  · have hadd : item.change = .add := Option.some.inj (hdue.symm.trans hd)
    have hold := hnews.add item hi hadd
    have hnew : c.contents? item.name ≠ none := fun hn => by
      rw [(hnews.delete_iff item hi).2 hn] at hadd
      cases hadd
    -- What was not cached is either gone from the datastore in the end, or its deletion is due.
    cases hpending : s.pipeline.backlog.pending[item.name]? with
    | none =>
      have hgone := h.settled (due?_of_owed_eq_nil ho ▸ hpending)
      rw [hold] at hgone
      refine .inr ⟨fun hn e he => ?_, fun w hw hn => ?_⟩
      · have hnone : s.found? f item.name = none := hgone.free hn
        rw [show (s.takenIn event c).found? f item.name = s.found? f item.name from rfl,
          hnone] at he
        cases he
      · have hworker := hgone.worker w hw hn
        rw [hold] at hworker
        exact hworker.fresh hnew
    | some change =>
      have hdelete := (h.due (due?_of_owed_eq_nil ho ▸ hpending)).2 hold
      exact .inl (hburied (hdelete ▸ hpending))

end Scene

/-! ## Handing out -/

section HandedOut

variable {item : WorkItem} {t : Table}

/-- A delivery settles the path of the name that was handed out. -/
theorem Delivered.settled (hd : Delivered item.change contents found e)
    (hdue : item.change = .delete ↔ contents = none)
    (ht : t.entries[f.kind.pathFor item.name]? = found)
    (hadded : f.versioned → item.change = .add → past.Buried item.name ∨ Fresh contents found) :
    f.Settled (.handedOut item t :: past) item.name contents e := by
  obtain ⟨n, change⟩ := item
  have hlast : History.lastHandedOut? n (.handedOut ⟨n, change⟩ t :: past) = some (change, t) :=
    if_pos rfl
  cases contents with
  | none =>
    cases hdue.2 rfl
    exact hd
  | some bytes =>
    cases change with
    | delete => cases hdue.1 rfl
    | update =>
      obtain ⟨e', rfl, hvalue⟩ := hd
      refine ⟨e', rfl, fun _ => ⟨iff_of_false (fun hne => hne hvalue) ?_, fun hne => ?_⟩⟩
      · rintro ⟨t', e₀, hadd, -, -⟩
        cases hlast.symm.trans hadd
      · exact absurd hvalue hne
    | add =>
      cases found with
      | none =>
        obtain ⟨e', rfl, hvalue⟩ := hd
        refine ⟨e', rfl, fun _ => ⟨iff_of_false (fun hne => hne hvalue) ?_, fun hne => ?_⟩⟩
        · rintro ⟨t', e₀, hadd, hentry, -⟩
          cases hlast.symm.trans hadd
          cases ht.symm.trans hentry
        · exact absurd hvalue hne
      | some e₀ =>
        -- What the path held is left alone, whatever it is.
        refine ⟨e₀, hd, fun hv => ⟨⟨fun hne => ⟨t, e₀, hlast, ht, hne⟩, ?_⟩, fun hne => ?_⟩⟩
        · rintro ⟨t', e₁, hadd, hentry, hne⟩
          cases hlast.symm.trans hadd
          cases ht.symm.trans hentry
          exact hne
        · rcases hadded hv rfl with hburied | hfresh
          · exact ⟨fun _ => rfl, hburied⟩
          · exact absurd (Option.some.inj (hfresh e₀ rfl)) hne

/-- A delivery on a path that is not to be overwritten leaves nothing wrong, unless a deletion of
the name has given way to an addition. -/
theorem Delivered.buried_or_fresh (hc : contents ≠ none)
    (h : past.Buried item.name ∨ Fresh contents found) :
    History.Buried item.name (.handedOut item t :: past) ∨
      ∀ e, Delivered item.change contents found e → Fresh contents e := by
  obtain ⟨n, change⟩ := item
  obtain ⟨bytes, rfl⟩ := Option.ne_none_iff_exists'.1 hc
  have hwritten : ∀ e : Option Entry, (∃ e', e = some e' ∧ e'.value = bytes) →
      Fresh (some bytes) e := by
    rintro _ ⟨e', rfl, hvalue⟩ e'' he''
    cases he''
    rw [hvalue]
  cases change with
  | delete => exact .inr fun e he e' he' => nomatch he.symm.trans he'
  | update => exact .inr hwritten
  | add =>
    rcases h with hburied | hfresh
    · exact .inl ⟨fun _ => rfl, hburied⟩
    · cases found with
      | none => exact .inr hwritten
      | some e₀ =>
        refine .inr fun e (he : e = some e₀) => ?_
        rw [he]
        exact hfresh

end HandedOut

namespace Scene

variable {s s' : Scene Table} {i : Nat} {item : WorkItem}

/-- The name that is handed out: its change is due no more, unless more is owed for it. -/
theorem OnCourse.handedOut (h : s.OnCourse f past item.name)
    (hpending : s.pipeline.backlog.pending[item.name]? = some item.change)
    (hfree : item.name ∉ s.pipeline.backlog.held) (ho : s'.owed = s.owed)
    (hgone : s'.pipeline.backlog.pending[item.name]? = none)
    (hc : s'.pipeline.cache.contents? item.name = s.pipeline.cache.contents? item.name)
    (hp : ∀ goal : Option Entry → Prop,
      (∀ e, Delivered item.change (s.pipeline.cache.contents? item.name) (s.found? f item.name) e →
        goal e) → s'.Promises f item.name goal) :
    s'.OnCourse f (.handedOut item s.store :: past) item.name := by
  rcases foldl_due item.name s.owed with ⟨-, hdue⟩ | ⟨last, -, -, hdue⟩
  · have hbefore : s.due? item.name = some item.change := (hdue _).trans hpending
    have hafter : s'.due? item.name = none := by
      rw [due?, ho, hdue]
      exact hgone
    refine ⟨fun hd => (nomatch hafter.symm.trans hd), fun _ => ?_,
      fun _ hd => (nomatch hafter.symm.trans hd)⟩
    rw [hc]
    refine hp _ fun e he => he.settled (h.due hbefore) rfl fun hv hadd => ?_
    exact (h.added hv (hadd ▸ hbefore)).imp_right fun hfresh => hfresh.free hfree
  · have hbefore : s.due? item.name = some last.change := hdue _
    have hafter : s'.due? item.name = some last.change := by
      rw [due?, ho]
      exact hdue _
    refine ⟨fun hd => ?_, fun hd => (nomatch hafter.symm.trans hd), fun hv hd => ?_⟩
    · rw [hc]
      exact h.due (hbefore.trans (hafter.symm.trans hd))
    · rw [hc]
      have hadd : last.change = .add := Option.some.inj (hafter.symm.trans hd)
      have hcached : s.pipeline.cache.contents? item.name ≠ none := fun hn => by
        have hdelete := (h.due hbefore).2 hn
        rw [hadd] at hdelete
        cases hdelete
      have hstart := (h.added hv (hadd ▸ hbefore)).imp_right fun hfresh => hfresh.free hfree
      exact (Delivered.buried_or_fresh hcached hstart).imp_right (hp _)

end Scene

end ClusterSync
