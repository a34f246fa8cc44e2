import ClusterSync.Backlog.Waiting
import ClusterSync.Proofs.Backlog.Sound

/-!
# The backlog is an ordered, single-flight queue without duplicates

A ledger is what the users of a backlog need to know of it: the items to be handed out, in their
order and with no name twice, and the names that are handed out, each with the change that came for
it meanwhile. Adding, asking for work, giving a name back and closing are plain there.

**Theorem (`run_tracks_ledger`).** Let any sequence of calls be made of a new backlog, by whomever
and in whatever order, such that only held names are given back. Then the ledger, told the same
calls, stands for the backlog after each of them, and everybody who asks for work is answered as
the ledger answers.

Delays are no concern of the ledger. Work that is put off is added to it when the delay is over, or
at once if there is none. Putting off takes two steps, between which others may act: the delay is
drawn, and then it begins. They are calls of their own here, beside the two together.
-/

namespace ClusterSync

/-- What somebody who asks for work is told. -/
inductive Handout
  | item (item : WorkItem)
  /-- There is nothing and will be nothing any more. -/
  | over
  /-- There is nothing yet. -/
  | notYet
  deriving DecidableEq, Repr

/-! ## Ledgers -/

structure Ledger where
  /-- The items to be handed out, in their order. -/
  ready : List WorkItem
  /-- The names that are handed out, each with the change that came for it meanwhile. -/
  held : Std.ExtTreeMap ObjectName (Option Change)
  closed : Bool

namespace Ledger

def empty : Ledger := ⟨[], ∅, false⟩

/-- Puts an item in the place of the one that has its name. -/
def replace (items : List WorkItem) (item : WorkItem) : List WorkItem :=
  items.map fun i => if i.name = item.name then item else i

/-- Adds an item: in the place of the one that waits, to the held name, or at the end. -/
def add (l : Ledger) (item : WorkItem) : Ledger :=
  if l.closed then l
  else if item.name ∈ l.ready.map (·.name) then { l with ready := replace l.ready item }
  else if item.name ∈ l.held then { l with held := l.held.insert item.name (some item.change) }
  else { l with ready := l.ready ++ [item] }

/-- Hands out the first item. -/
def get (l : Ledger) : Ledger × Handout :=
  match l.ready with
  | item :: rest => ({ l with ready := rest, held := l.held.insert item.name none }, .item item)
  | [] => (l, if l.closed then .over else .notYet)

/-- Takes a name back, and puts it at the end if a change came for it. -/
def done (l : Ledger) (name : ObjectName) : Ledger :=
  match l.held[name]? with
  | some (some change) =>
    { l with ready := l.ready ++ [⟨name, change⟩], held := l.held.erase name }
  | _ => { l with held := l.held.erase name }

def close (l : Ledger) : Ledger := { l with closed := true }

end Ledger

/-! ## Calls -/

/-- What can be asked of a backlog. Each call is one step. -/
inductive BacklogCall
  | add (item : WorkItem)
  | get
  | done (name : ObjectName)
  | forget (name : ObjectName)
  | addLater (now : Nat) (item : WorkItem)
  /-- Draws the delay for a name that failed. -/
  | drawDelay (name : ObjectName)
  | addAfter (now : Nat) (delay : Duration) (item : WorkItem)
  /-- The delay at a place of the delayed work is over. -/
  | fire (i : Nat)
  | close

namespace Backlog

variable {b : Backlog} {c : BacklogCall} {item : WorkItem}

/-- Hands out the first item, if there is one. -/
def get (b : Backlog) : Backlog × Handout :=
  match b.take? with
  | some (item, b) => (b, .item item)
  | none => (b, if b.closed then .over else .notYet)

/-- Counts a failure of a name. -/
def drawDelay (b : Backlog) (name : ObjectName) : Backlog :=
  if b.closed then b else { b with backoff := (b.backoff.next name).2 }

/-- Drawing a delay leaves everything but the counts of failures alone. -/
theorem drawDelay_eq (b : Backlog) (name : ObjectName) :
    ∃ backoff, b.drawDelay name = { b with backoff } := by
  unfold drawDelay
  split
  · exact ⟨b.backoff, rfl⟩
  · exact ⟨_, rfl⟩

/-- Carries out a call; the answer is for those who ask for work. -/
def perform (b : Backlog) : BacklogCall → Backlog × Option Handout
  | .add item => (b.add item, none)
  | .get => (b.get.1, some b.get.2)
  | .done name => (b.release name, none)
  | .forget name => (b.forget name, none)
  | .addLater now item => (b.addLater now item, none)
  | .drawDelay name => (b.drawDelay name, none)
  | .addAfter now delay item => (b.addAfter now delay item, none)
  | .fire i => (b.fire i, none)
  | .close => (b.close, none)

/-- The item that a call adds now. -/
def admits? (b : Backlog) : BacklogCall → Option WorkItem
  | .add item => some item
  | .addLater _ item => if (b.backoff.next item.name).1.nanos = 0 then some item else none
  | .addAfter _ delay item => if delay.nanos = 0 then some item else none
  | .fire i => b.delayed[i]?.map (·.item)
  | .get | .done _ | .forget _ | .drawDelay _ | .close => none

/-- Only held names are given back. -/
def Allows (b : Backlog) : BacklogCall → Prop
  | .done name => name ∈ b.held
  | _ => True

instance (b : Backlog) (c : BacklogCall) : Decidable (b.Allows c) := by
  cases c <;> unfold Allows <;> infer_instance

/-- Carries out calls one after the other; the answers are in their order. -/
def run (b : Backlog) : List BacklogCall → Backlog × List Handout
  | [] => (b, [])
  | c :: cs =>
    let (after, answer) := b.perform c
    let (last, answers) := after.run cs
    (last, answer.toList ++ answers)

/-- Each of the calls is allowed when it is made. -/
def Lawful (b : Backlog) : List BacklogCall → Prop
  | [] => True
  | c :: cs => b.Allows c ∧ (b.perform c).1.Lawful cs

instance decidableLawful (b : Backlog) : (cs : List BacklogCall) → Decidable (b.Lawful cs)
  | [] => isTrue trivial
  | c :: cs =>
    have := decidableLawful (b.perform c).1 cs
    inferInstanceAs (Decidable (_ ∧ _))

theorem Sound.get (h : b.Sound) : b.get.1.Sound := by
  unfold Backlog.get
  cases ht : b.take? with
  | none => exact h
  | some taken => exact h.take ht

theorem Sound.perform (h : b.Sound) (hc : b.Allows c) : (b.perform c).1.Sound := by
  cases c with
  | add item => exact h.add item
  | get => exact h.get
  | done name => exact h.release hc
  | forget name => exact h.forget name
  | addLater now item => exact h.addLater now item
  | drawDelay name =>
    obtain ⟨backoff, hb⟩ := drawDelay_eq b name
    change (b.drawDelay name).Sound
    rw [hb]
    exact h.congr rfl rfl rfl
  | addAfter now delay item => exact h.addAfter now delay item
  | fire i => exact h.fire i
  | close => exact h.close

/-- What is handed out was held by nobody. -/
theorem Sound.not_held_of_get (h : b.Sound) (hg : b.get.2 = .item item) : item.name ∉ b.held := by
  unfold Backlog.get at hg
  cases ht : b.take? with
  | none =>
    rw [ht] at hg
    dsimp only at hg
    split at hg <;> cases hg
  | some taken =>
    rw [ht] at hg
    cases hg
    obtain ⟨-, -, -, hh, -⟩ := take?_eq_some h ht
    exact hh

/-- Callers that look into a waiting room's backlog are answered by `get`; those for whom there is
nothing yet go on waiting. -/
theorem look_eq_get (r : WaitingRoom) (i : Nat) (heard : Heard) :
    r.look i heard = match r.backlog.get with
      | (b, .item item) =>
        { r with backlog := b, callers := r.callers.set i (.leaving heard (some item)) }
      | (_, .over) => { r with callers := r.callers.set i (.leaving heard none) }
      | (_, .notYet) =>
        { r with
          callers := r.callers.set i (if heard = .nothing then .asleep else .woken heard) } := by
  unfold WaitingRoom.look get
  cases r.backlog.take? with
  | some taken => rfl
  | none => by_cases hc : r.backlog.closed = true <;> simp [hc]

/-- Putting work off is drawing its delay and beginning it, if nobody acts between the two. -/
theorem addLater_eq_addAfter (h : b.closed = false) (now : Nat) :
    b.addLater now item =
      (b.drawDelay item.name).addAfter now (b.backoff.next item.name).1 item := by
  simp [addLater, drawDelay, h]

end Backlog

namespace Ledger

/-- What a backlog's call comes to for a ledger. -/
def follow (l : Ledger) (b : Backlog) (c : BacklogCall) : Ledger × Option Handout :=
  match c with
  | .get => (l.get.1, some l.get.2)
  | .done name => (l.done name, none)
  | .close => (l.close, none)
  | c => ((b.admits? c).elim l l.add, none)

/-- Follows calls made of a backlog one after the other. -/
def run (l : Ledger) (b : Backlog) : List BacklogCall → Ledger × List Handout
  | [] => (l, [])
  | c :: cs =>
    let (after, answer) := l.follow b c
    let (last, answers) := after.run (b.perform c).1 cs
    (last, answer.toList ++ answers)

/-! ## Ledgers that stand for backlogs -/

/-- The ledger stands for the backlog. -/
structure Tracks (l : Ledger) (b : Backlog) : Prop where
  /-- The items to be handed out are the names in their order, with the changes that wait. -/
  names : l.ready.map (·.name) = b.ready
  changes : ∀ i ∈ l.ready, b.pending[i.name]? = some i.change
  /-- The held names are the same, with the changes that wait for them. -/
  held : ∀ n, l.held[n]? = if n ∈ b.held then some b.pending[n]? else none
  closed : l.closed = b.closed

variable {l : Ledger} {b : Backlog} {c : BacklogCall} {item : WorkItem} {n : ObjectName}

theorem tracks_empty (backoff : Backoff) : Tracks empty (.initial backoff) where
  names := rfl
  changes _ h := absurd h List.not_mem_nil
  held n := by
    rw [if_neg (show n ∉ (Backlog.initial backoff).held from Std.ExtTreeSet.not_mem_empty)]
    exact Std.ExtTreeMap.getElem?_empty
  closed := rfl

theorem Tracks.mem_held (h : Tracks l b) : n ∈ l.held ↔ n ∈ b.held := by
  rw [Std.ExtTreeMap.mem_iff_isSome_getElem?, h.held n]
  split <;> simp_all

theorem Tracks.mem_ready (h : Tracks l b) (hi : item ∈ l.ready) : item.name ∈ b.ready :=
  h.names ▸ List.mem_map.2 ⟨item, hi, rfl⟩

/-- Only the collections and the door count. -/
theorem Tracks.congr {b' : Backlog} (h : Tracks l b) (hr : b'.ready = b.ready)
    (hp : b'.pending = b.pending) (hh : b'.held = b.held) (hc : b'.closed = b.closed) :
    Tracks l b' where
  names := hr ▸ h.names
  changes i hi := hp ▸ h.changes i hi
  held n := by rw [hh, hp]; exact h.held n
  closed := hc ▸ h.closed

theorem map_name_replace (items : List WorkItem) (item : WorkItem) :
    (replace items item).map (·.name) = items.map (·.name) := by
  rw [replace, List.map_map]
  refine List.map_congr_left fun i _ => ?_
  by_cases hi : i.name = item.name <;> simp [hi]

theorem Tracks.add (h : Tracks l b) (hs : b.Sound) (item : WorkItem) :
    Tracks (l.add item) (b.add item) := by
  by_cases hc : b.closed = true
  · rw [Backlog.add_of_closed hc, Ledger.add, if_pos (h.closed.trans hc)]
    exact h
  have hopen : b.closed = false := by simpa using hc
  have hlook : ∀ n, (b.add item).pending[n]? =
      if item.name = n then some item.change else b.pending[n]? := fun n =>
    Backlog.getElem?_pending_add hopen
  rw [Ledger.add, if_neg (by rw [h.closed, hopen]; exact Bool.false_ne_true)]
  by_cases hr : item.name ∈ b.ready
  · -- The item takes the place of the one that waits.
    have hh := hs.not_held_of_ready _ hr
    rw [if_pos (h.names ▸ hr)]
    refine ⟨?_, fun i hi => ?_, fun n => ?_, ?_⟩
    · rw [Backlog.ready_add_of_waiting (.inl (hs.pending_of_ready _ hr))]
      exact (map_name_replace l.ready item).trans h.names
    · obtain ⟨j, hj, rfl⟩ := List.mem_map.1 hi
      by_cases hji : j.name = item.name
      · rw [if_pos hji, hlook, if_pos rfl]
      · rw [if_neg hji, hlook, if_neg (Ne.symm hji)]
        exact h.changes j hj
    · rw [Backlog.held_add, hlook, h.held n]
      by_cases hn : item.name = n
      · rw [← hn, if_neg hh, if_neg hh]
      · rw [if_neg hn]
    · rw [Backlog.closed_add]
      exact h.closed
  rw [if_neg (h.names ▸ hr)]
  have hne : ∀ i ∈ l.ready, item.name ≠ i.name := fun i hi heq => hr (heq ▸ h.mem_ready hi)
  by_cases hh : item.name ∈ b.held
  · -- The item waits until its name is given back.
    rw [if_pos (h.mem_held.2 hh)]
    refine ⟨?_, fun i hi => ?_, fun n => ?_, ?_⟩
    · rw [Backlog.ready_add_of_waiting (.inr hh)]
      exact h.names
    · rw [hlook, if_neg (hne i hi)]
      exact h.changes i hi
    · simp only [Std.ExtTreeMap.getElem?_insert, Std.LawfulEqCmp.compare_eq_iff_eq,
        Backlog.held_add, hlook]
      by_cases hn : item.name = n
      · rw [if_pos hn, if_pos hn, if_pos (hn ▸ hh)]
      · rw [if_neg hn, if_neg hn]
        exact h.held n
    · rw [Backlog.closed_add]
      exact h.closed
  · rw [if_neg (mt h.mem_held.1 hh)]
    have hp : item.name ∉ b.pending := fun hp => (hs.ready_or_held _ hp).elim hr hh
    refine ⟨?_, fun i hi => ?_, fun n => ?_, ?_⟩
    · rw [Backlog.ready_add_of_new hopen hp hh, ← h.names]
      exact List.map_append
    · rcases List.mem_append.1 hi with hi | hi
      · rw [hlook, if_neg (hne i hi)]
        exact h.changes i hi
      · rw [List.mem_singleton.1 hi, hlook, if_pos rfl]
    · rw [Backlog.held_add, hlook, h.held n]
      by_cases hn : item.name = n
      · rw [← hn, if_neg hh, if_neg hh]
      · rw [if_neg hn]
    · rw [Backlog.closed_add]
      exact h.closed

theorem Tracks.get (h : Tracks l b) (hs : b.Sound) :
    Tracks l.get.1 b.get.1 ∧ l.get.2 = b.get.2 := by
  unfold Ledger.get Backlog.get
  cases ht : b.take? with
  | none =>
    have hl : l.ready = [] := by
      rw [← List.map_eq_nil_iff (f := (·.name)), h.names]
      exact Backlog.take?_eq_none_iff.1 ht
    rw [hl]
    exact ⟨h, by rw [h.closed]⟩
  | some taken =>
    obtain ⟨item, b'⟩ := taken
    obtain ⟨rest, hready, hp, hh, rfl⟩ := Backlog.take?_eq_some hs ht
    have hnodup := hs.nodup
    rw [hready, List.nodup_cons] at hnodup
    have hnames := h.names
    rw [hready] at hnames
    obtain ⟨first, others, hl, hfirst, hothers⟩ := List.map_eq_cons_iff.1 hnames
    have hitem : first = item := by
      have hc := h.changes first (by rw [hl]; exact List.mem_cons_self)
      rw [hfirst, hp, Option.some.injEq] at hc
      cases first; cases item; simp_all
    subst hitem
    have hkeep : ∀ i ∈ others, b.pending[i.name]? = some i.change := fun i hi =>
      h.changes i (by rw [hl]; exact List.mem_cons_of_mem _ hi)
    rw [hl]
    refine ⟨⟨hothers, fun i (hi : i ∈ others) => ?_, fun n => ?_, h.closed⟩, rfl⟩
    · have hi' : i.name ∈ rest := hothers ▸ List.mem_map.2 ⟨i, hi, rfl⟩
      have hne : first.name ≠ i.name := fun heq => hnodup.1 (heq ▸ hi')
      simpa [Std.ExtTreeMap.getElem?_erase, hne] using hkeep i hi
    · simp only [Std.ExtTreeMap.getElem?_insert, Std.ExtTreeMap.getElem?_erase,
        Std.LawfulEqCmp.compare_eq_iff_eq, Std.ExtTreeSet.mem_insert]
      by_cases hn : first.name = n
      · simp [hn]
      · simp [hn, h.held n]

theorem Tracks.done (h : Tracks l b) (hn : n ∈ b.held) :
    Tracks (l.done n) (b.release n) := by
  have hheld : ∀ m, (l.held.erase n)[m]? =
      if m ∈ (b.release n).held then some (b.release n).pending[m]? else none := fun m => by
    simp only [Std.ExtTreeMap.getElem?_erase, Std.LawfulEqCmp.compare_eq_iff_eq,
      Backlog.held_release, Backlog.pending_release, h.held m]
    by_cases hm : n = m <;> simp [Std.ExtTreeSet.mem_erase, hm]
  have hclosed : l.closed = (b.release n).closed := by rw [Backlog.closed_release]; exact h.closed
  unfold Ledger.done
  rw [h.held n, if_pos hn]
  cases hp : b.pending[n]? with
  | none =>
    have hmem : n ∉ b.pending := fun hm => by
      rw [Std.ExtTreeMap.mem_iff_isSome_getElem?, hp] at hm
      exact Bool.false_ne_true hm
    refine ⟨?_, fun i hi => ?_, hheld, hclosed⟩
    · rw [Backlog.ready_release, if_neg hmem]
      exact h.names
    · rw [Backlog.pending_release]
      exact h.changes i hi
  | some change =>
    have hmem : n ∈ b.pending := by rw [Std.ExtTreeMap.mem_iff_isSome_getElem?, hp]; rfl
    refine ⟨?_, fun i hi => ?_, hheld, hclosed⟩
    · rw [Backlog.ready_release, if_pos hmem, ← h.names]
      exact List.map_append
    · rw [Backlog.pending_release]
      rcases List.mem_append.1 hi with hi | hi
      · exact h.changes i hi
      · rw [List.mem_singleton.1 hi]
        exact hp

/-! ## Calls and runs -/

theorem Tracks.addAfter (h : Tracks l b) (hs : b.Sound) (now : Nat) (delay : Duration)
    (item : WorkItem) :
    Tracks (if delay.nanos = 0 then l.add item else l) (b.addAfter now delay item) := by
  unfold Backlog.addAfter
  split
  · exact h.add hs item
  · exact h.congr rfl rfl rfl rfl

theorem Tracks.addLater (h : Tracks l b) (hs : b.Sound) (now : Nat) (item : WorkItem) :
    Tracks (if (b.backoff.next item.name).1.nanos = 0 then l.add item else l)
      (b.addLater now item) := by
  by_cases hc : b.closed = true
  · have hl : l.add item = l := by rw [Ledger.add, if_pos (h.closed.trans hc)]
    rw [hl, ite_self, Backlog.addLater, if_pos hc]
    exact h
  · rw [Backlog.addLater, if_neg hc]
    have h' : Tracks l { b with backoff := (b.backoff.next item.name).2 } := h.congr rfl rfl rfl rfl
    exact h'.addAfter (hs.congr rfl rfl rfl) now _ item

theorem Tracks.fire (h : Tracks l b) (hs : b.Sound) (i : Nat) :
    Tracks ((b.delayed[i]?.map (·.item)).elim l l.add) (b.fire i) := by
  unfold Backlog.fire
  cases b.delayed[i]? with
  | none => exact h
  | some d =>
    have h' : Tracks l { b with delayed := b.delayed.eraseIdx i } := h.congr rfl rfl rfl rfl
    exact h'.add (hs.congr rfl rfl rfl) d.item

/-- What one call preserves, and that it is answered alike. -/
theorem Tracks.follow (h : Tracks l b) (hs : b.Sound) (hc : b.Allows c) :
    Tracks (l.follow b c).1 (b.perform c).1 ∧ (l.follow b c).2 = (b.perform c).2 := by
  cases c with
  | add item => exact ⟨h.add hs item, rfl⟩
  | get => exact ⟨(h.get hs).1, congrArg some (h.get hs).2⟩
  | done name => exact ⟨h.done hc, rfl⟩
  | forget name => exact ⟨h.congr rfl rfl rfl rfl, rfl⟩
  | addLater now item =>
    refine ⟨?_, rfl⟩
    have := h.addLater hs now item
    unfold Ledger.follow Backlog.admits?
    split at this <;> simp_all [Backlog.perform]
  | drawDelay name =>
    obtain ⟨backoff, hb⟩ := Backlog.drawDelay_eq b name
    refine ⟨?_, rfl⟩
    change Tracks l (b.drawDelay name)
    rw [hb]
    exact h.congr rfl rfl rfl rfl
  | addAfter now delay item =>
    refine ⟨?_, rfl⟩
    have := h.addAfter hs now delay item
    unfold Ledger.follow Backlog.admits?
    split at this <;> simp_all [Backlog.perform]
  | fire i => exact ⟨h.fire hs i, rfl⟩
  | close =>
    exact ⟨⟨h.names, h.changes, h.held, rfl⟩, rfl⟩

/-- Induction on the calls: the relation and the soundness of the backlog carry each other. -/
theorem Tracks.run (h : Tracks l b) (hs : b.Sound) (calls : List BacklogCall)
    (hc : b.Lawful calls) :
    (l.run b calls).2 = (b.run calls).2 ∧ Tracks (l.run b calls).1 (b.run calls).1 ∧
      (b.run calls).1.Sound := by
  induction calls generalizing l b with
  | nil => exact ⟨rfl, h, hs⟩
  | cons c calls ih =>
    obtain ⟨hallows, hrest⟩ := hc
    obtain ⟨htracks, hanswer⟩ := h.follow hs hallows
    obtain ⟨hanswers, hend⟩ := ih htracks (hs.perform hallows) hrest
    refine ⟨?_, hend⟩
    simp only [Ledger.run, Backlog.run, hanswer, hanswers]

/-- A backlog is an ordered, single-flight queue without duplicates. -/
theorem run_tracks_ledger (backoff : Backoff) (calls : List BacklogCall)
    (h : (Backlog.initial backoff).Lawful calls) :
    let (b, answers) := (Backlog.initial backoff).run calls
    let (l, expected) := empty.run (.initial backoff) calls
    answers = expected ∧ Tracks l b ∧ b.Sound ∧
      ∀ item, b.get.2 = .item item → item.name ∉ b.held := by
  obtain ⟨hanswers, htracks, hs⟩ :=
    (tracks_empty backoff).run (Backlog.sound_initial backoff) calls h
  exact ⟨hanswers.symm, htracks, hs, fun _ => hs.not_held_of_get⟩

/-- Two names; the first is added again while it is held, and given back after the backlog has been
closed. -/
theorem run_tracks_ledger_of_readded :
    let a := ObjectName.cluster "a"
    let calls : List BacklogCall :=
      [.add ⟨a, .add⟩, .addLater 0 ⟨.cluster "b", .add⟩, .get, .add ⟨a, .delete⟩, .fire 0, .close,
        .done a, .get, .get]
    let start := Backlog.initial (.initial ⟨5⟩ ⟨1000⟩)
    start.Lawful calls ∧ (start.run calls).2 = (empty.run start calls).2 := by
  have hlawful : (Backlog.initial (.initial ⟨5⟩ ⟨1000⟩)).Lawful
      [.add ⟨.cluster "a", .add⟩, .addLater 0 ⟨.cluster "b", .add⟩, .get,
        .add ⟨.cluster "a", .delete⟩, .fire 0, .close, .done (.cluster "a"), .get, .get] := by
    decide +kernel
  exact ⟨hlawful, (run_tracks_ledger _ _ hlawful).1⟩

end Ledger
end ClusterSync
