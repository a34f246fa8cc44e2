import ClusterSync.Proofs.Datastore.Clientele
import ClusterSync.Proofs.Datastore.Secured

/-!
# Values are not overwritten unseen

Any number of callers create, update, delete and read entries of one table, and their exchanges with
the table come in any order.

**Theorem (`respects_of_reaches`).** A creation that succeeds has found its path absent. An update
that succeeds has found on its path the entry that it has read, or one written at the revision that
it was given, or nothing if that is what it expects. Given a revision that has come of the path
before, an update of a pair that can be encoded succeeds exactly if the path has been neither
written nor deleted since. What fails changes nothing. So an entry is only overwritten by an update
that has read just that entry or has been given its revision, and whoever was told this revision has
seen just that entry.

**Theorem (`unencodable_update_fails`).** An update of a pair that cannot be encoded fails although
nobody has touched the path.

The updates read first and commit later, and anything may happen in between. What makes this safe is
that a table's revision grows with every write, so that none of its revisions is used again.
-/

namespace ClusterSync

open Text

variable {exchanges : List (Exchange Table)} {result : Except StoreError Answer}
  {path : String} {bytes : Bytes} {p : Pair} {key : Key}

/-! ## What requests come to -/

/-- A pair has a path and can be encoded. -/
def Pair.Writes (p : Pair) (path : String) (bytes : Bytes) : Prop :=
  p.key.path = .ok path ∧ p.value.encode p.key = .ok bytes

theorem Pair.Writes.encoded_eq (h : p.Writes path bytes) : p.encoded = .done (.ok (path, bytes)) :=
  Pair.encoded_eq h.1 h.2

theorem Pair.encoded_of_not_writes (h : ∀ path bytes, ¬ p.Writes path bytes) :
    ∃ event e, p.encoded = .log event (.done (.error e)) := by
  unfold encoded
  cases hp : p.key.path with
  | error e => exact ⟨_, _, rfl⟩
  | ok path =>
    cases hv : p.value.encode p.key with
    | error e => exact ⟨_, _, rfl⟩
    | ok bytes => exact absurd ⟨hp, hv⟩ (h path bytes)

/-- A conditional write ends as its comparison with the table says. -/
def Decided (t : Table) (c : Comparison) (result : Except StoreError Answer) : Prop :=
  if t.satisfies c then result = .ok (.written (t.revision + 1)) else ∃ e, result = .error e

theorem Decided.of_ok {t : Table} {c : Comparison} {answer : Answer}
    (h : Decided t c (.ok answer)) :
    t.satisfies c = true ∧ answer = .written (t.revision + 1) := by
  unfold Decided at h
  split at h
  · exact ⟨‹_›, Except.ok.inj h⟩
  · obtain ⟨e, he⟩ := h
    cases he

theorem Decided.of_error {t : Table} {c : Comparison} {e : StoreError}
    (h : Decided t c (.error e)) : t.satisfies c = false := by
  unfold Decided at h
  split at h
  · cases h
  · exact Bool.eq_false_iff.2 ‹_›

theorem Decided.succeeds_iff {t : Table} {c : Comparison} {result : Except StoreError Answer}
    (h : Decided t c result) : (∃ answer, result = .ok answer) ↔ t.satisfies c = true := by
  cases result with
  | error e => simp [h.of_error]
  | ok answer => simp [h.of_ok.1]

/-- What comes of putting a value if a comparison holds. -/
theorem decided_putIf {t : Table} {c : Comparison} {ttl : Option Duration}
    {refusal : Except StoreError Revision} (h : ∃ e, refusal = .error e) :
    Decided t c <| Except.map .written <|
      (Table.backend.commit (Pair.putIf c path bytes ttl) t).1.bind fun o =>
        if o.succeeded then .ok o.revision else refusal := by
  change Decided t c <| Except.map .written <|
    if (t.commit (Pair.putIf c path bytes ttl)).1.succeeded then
      .ok (t.commit (Pair.putIf c path bytes ttl)).1.revision else refusal
  obtain ⟨e, rfl⟩ := h
  rw [Table.commit_putIf]
  unfold Decided
  by_cases hs : t.satisfies c = true
  · simp [hs, Except.map]
  · simp [hs, Except.map]

theorem Table.satisfies_unchangedSince {t : Table} {expected : Revision} :
    t.satisfies (Pair.unchangedSince path expected) = true ↔ t.revisionOf path = expected := by
  unfold Pair.unchangedSince
  split
  · rename_i hzero
    rw [hzero]
    exact decide_eq_true_iff
  · exact decide_eq_true_iff

namespace Request

theorem comesTo_create (h : (create p).dialogue.ComesTo Table.backend exchanges result) :
    ((∀ path bytes, ¬ p.Writes path bytes) ∧ exchanges = [] ∧ ∃ e, result = .error e) ∨
    ∃ path bytes t, p.Writes path bytes ∧
      exchanges = [.commit (Pair.putIf (.absent path) path bytes p.ttl) t] ∧
      Decided t (.absent path) result := by
  obtain ⟨a, hp, rfl⟩ : ∃ a, p.create.ComesTo Table.backend exchanges a ∧
    a.map .written = result := Dialogue.ComesTo.of_map h
  unfold Pair.create at hp
  by_cases hw : ∃ path bytes, p.Writes path bytes
  · obtain ⟨path, bytes, hw⟩ := hw
    rw [hw.encoded_eq] at hp
    obtain ⟨t, rest, rfl, rfl, rfl⟩ := hp
    exact .inr ⟨path, bytes, t, hw, rfl, decided_putIf ⟨_, rfl⟩⟩
  · have hw : ∀ path bytes, ¬ p.Writes path bytes := fun path bytes h => hw ⟨path, bytes, h⟩
    obtain ⟨event, e, he⟩ := Pair.encoded_of_not_writes hw
    rw [he] at hp
    obtain ⟨rfl, rfl⟩ := hp
    exact .inl ⟨hw, rfl, e, rfl⟩

theorem comesTo_overwrite {ttl : Option Duration} {expected : Revision}
    {a : Except StoreError Revision}
    (h : (Pair.overwrite path bytes ttl expected).ComesTo Table.backend exchanges a) :
    ∃ t, exchanges = [.commit (Pair.putIf (Pair.unchangedSince path expected) path bytes ttl) t] ∧
      Decided t (Pair.unchangedSince path expected) (a.map .written) := by
  obtain ⟨t, rest, rfl, rfl, rfl⟩ := h
  refine ⟨t, rfl, decided_putIf ?_⟩
  split <;> exact ⟨_, rfl⟩

theorem comesTo_update (h : (update p).dialogue.ComesTo Table.backend exchanges result) :
    ((∀ path bytes, ¬ p.Writes path bytes) ∧ exchanges = [] ∧ ∃ e, result = .error e) ∨
    ∃ path bytes t expected, p.Writes path bytes ∧
      Decided t (Pair.unchangedSince path expected) result ∧
      ((p.revision = some expected ∧ exchanges =
          [.commit (Pair.putIf (Pair.unchangedSince path expected) path bytes p.ttl) t]) ∨
        (p.revision = none ∧ ∃ u : Table, u.revisionOf path = expected ∧ exchanges = [.read path u,
          .commit (Pair.putIf (Pair.unchangedSince path expected) path bytes p.ttl) t])) := by
  obtain ⟨a, hp, rfl⟩ : ∃ a, p.update.ComesTo Table.backend exchanges a ∧
    a.map .written = result := Dialogue.ComesTo.of_map h
  unfold Pair.update at hp
  by_cases hw : ∃ path bytes, p.Writes path bytes
  · obtain ⟨path, bytes, hw⟩ := hw
    right
    rw [hw.encoded_eq] at hp
    cases hr : p.revision with
    | some expected =>
      rw [hr] at hp
      obtain ⟨t, rfl, hd⟩ := comesTo_overwrite hp
      exact ⟨path, bytes, t, expected, hw, hd, .inl ⟨rfl, rfl⟩⟩
    | none =>
      rw [hr] at hp
      obtain ⟨u, rest, rfl, hp⟩ := hp
      have hfound : (Table.backend.read path u).1 =
          .ok (u.entries[path]?.map fun e => ⟨e.value, e.revision⟩) := rfl
      have hoverwrite : (Pair.overwrite path bytes p.ttl (u.revisionOf path)).ComesTo Table.backend
          rest a := by
        rw [hfound] at hp
        unfold Table.revisionOf
        cases hu : u.entries[path]? with
        | none => rw [hu] at hp; exact hp
        | some e => rw [hu] at hp; exact hp
      obtain ⟨t, rfl, hd⟩ := comesTo_overwrite hoverwrite
      exact ⟨path, bytes, t, u.revisionOf path, hw, hd, .inr ⟨rfl, u, rfl, rfl⟩⟩
  · have hw : ∀ path bytes, ¬ p.Writes path bytes := fun path bytes h => hw ⟨path, bytes, h⟩
    obtain ⟨event, e, he⟩ := Pair.encoded_of_not_writes hw
    rw [he] at hp
    obtain ⟨rfl, rfl⟩ := hp
    exact .inl ⟨hw, rfl, e, rfl⟩

theorem comesTo_remove (h : (remove key).dialogue.ComesTo Table.backend exchanges result) :
    (exchanges = [] ∧ ∃ e, result = .error e) ∨
    ∃ path t, key.path = .ok path ∧ exchanges = [.commit (Key.deleteIfPresent path) t] ∧
      if t.satisfies (.present path) then result = .ok .removed else ∃ e, result = .error e := by
  obtain ⟨a, hp, rfl⟩ : ∃ a, key.remove.ComesTo Table.backend exchanges a ∧
    a.map (fun _ => .removed) = result := Dialogue.ComesTo.of_map h
  unfold Key.remove Key.deletePath at hp
  cases hpath : key.path with
  | error e =>
    rw [hpath] at hp
    obtain ⟨rfl, rfl⟩ := hp
    exact .inl ⟨rfl, _, rfl⟩
  | ok path =>
    rw [hpath] at hp
    obtain ⟨t, rest, rfl, rfl, rfl⟩ := hp
    refine .inr ⟨path, t, rfl, rfl, ?_⟩
    have hsucceeded : (t.commit (Key.deleteIfPresent path)).1.succeeded =
        t.satisfies (.present path) := rfl
    by_cases hs : t.satisfies (.present path) = true
    · rw [if_pos hs]
      change Except.map _ (if (t.commit (Key.deleteIfPresent path)).1.succeeded then _ else _) = _
      rw [hsucceeded, if_pos hs]
      rfl
    · rw [if_neg hs]
      refine ⟨.notFound path, ?_⟩
      change Except.map _ (if (t.commit (Key.deleteIfPresent path)).1.succeeded then _ else _) = _
      rw [hsucceeded, if_neg hs]
      rfl

/-- What is fetched is read in one exchange, which has found what is given away. -/
theorem comesTo_fetch (h : (fetch key).dialogue.ComesTo Table.backend exchanges result) :
    (exchanges = [] ∧ ∃ e, result = .error e) ∨
    ∃ path t, key.path = .ok path ∧ exchanges = [.read path t] ∧
      ∀ answer r, result = .ok answer → answer.revision? = some r →
        ∃ e, t.entries[path]? = some e ∧ e.revision = r := by
  obtain ⟨a, hp, rfl⟩ : ∃ a, key.fetch.ComesTo Table.backend exchanges a ∧
    a.map .fetched = result := Dialogue.ComesTo.of_map h
  unfold Key.fetch at hp
  cases hpath : key.path with
  | error e =>
    rw [hpath] at hp
    obtain ⟨rfl, rfl⟩ := hp
    exact .inl ⟨rfl, _, rfl⟩
  | ok path =>
    rw [hpath] at hp
    obtain ⟨t, rest, rfl, rfl, rfl⟩ := hp
    refine .inr ⟨path, t, rfl, rfl, fun answer r hanswer hr => ?_⟩
    have hfound : (Table.backend.read path t).1 =
        .ok (t.entries[path]?.map fun e => ⟨e.value, e.revision⟩) := rfl
    rw [hfound] at hanswer
    cases he : t.entries[path]? with
    | none =>
      rw [he] at hanswer
      cases hanswer
      cases hr
    | some e =>
      rw [he] at hanswer
      refine ⟨e, rfl, ?_⟩
      dsimp only [Option.map_some, Except.bind] at hanswer
      split at hanswer
      · cases hanswer
      · cases hanswer
        exact Option.some.inj hr

theorem eq_of_append_eq_singleton {before after : List (Exchange Table)} {x y : Transaction}
    {t u : Table} (h : before ++ .commit x t :: after = [.commit y u]) :
    before = [] ∧ x = y ∧ t = u := by
  cases before with
  | nil => simpa using List.cons.inj h |>.1
  | cons first before => simp at h

/-- What can overwrite an entry is an update that goes by its revision. -/
theorem overwrites {request : Request} {x : Transaction} {t : Table} {e : Entry}
    {before after : List (Exchange Table)} (ht : t.Valid)
    (h : request.dialogue.ComesTo Table.backend (before ++ .commit x t :: after) result)
    (he : t.entries[path]? = some e) (hne : (t.commit x).2.entries[path]? ≠ some e)
    (hsome : (t.commit x).2.entries[path]? ≠ none) :
    ∃ p, request = .update p ∧ p.key.path = .ok path ∧
      (p.revision = some e.revision ∨ p.revision = none ∧
        ∃ u : Table, before = [.read path u] ∧ u.revisionOf path = e.revision) := by
  rw [← he] at hne
  cases request with
  | create p =>
    rcases comesTo_create h with ⟨-, hx, -⟩ | ⟨path', bytes, u, -, hx, hd⟩
    · simp at hx
    · obtain ⟨rfl, rfl, rfl⟩ := eq_of_append_eq_singleton hx
      obtain ⟨rfl, hs⟩ := Table.changes_putIf hne
      rw [(Table.satisfies_absent_iff ht).1 hs] at he
      cases he
  | update p =>
    rcases comesTo_update h with
      ⟨-, hx, -⟩ | ⟨path', bytes, u, expected, hw, -, ⟨hp, hx⟩ | ⟨hp, v, hv, hx⟩⟩
    · simp at hx
    · obtain ⟨rfl, rfl, rfl⟩ := eq_of_append_eq_singleton hx
      obtain ⟨rfl, hs⟩ := Table.changes_putIf hne
      have hr := Table.satisfies_unchangedSince.1 hs
      rw [Table.revisionOf_eq he] at hr
      exact ⟨p, rfl, hw.1, .inl (hr ▸ hp)⟩
    · cases before with
      | nil => simp at hx
      | cons first before =>
        obtain ⟨rfl, hrest⟩ := List.cons.inj hx
        obtain ⟨rfl, rfl, rfl⟩ := eq_of_append_eq_singleton hrest
        obtain ⟨rfl, hs⟩ := Table.changes_putIf hne
        have hr := Table.satisfies_unchangedSince.1 hs
        rw [Table.revisionOf_eq he] at hr
        exact ⟨p, rfl, hw.1, .inr ⟨hp, v, rfl, hv.trans hr.symm⟩⟩
  | remove key =>
    rcases comesTo_remove h with ⟨hx, -⟩ | ⟨path', u, -, hx, -⟩
    · simp at hx
    · obtain ⟨rfl, rfl, rfl⟩ := eq_of_append_eq_singleton hx
      by_cases hp : path' = path
      · subst hp
        have hmem : path' ∈ t.entries := by
          rw [Std.ExtTreeMap.mem_iff_isSome_getElem?, he]
          rfl
        rw [Table.commit_deleteIfPresent ht, if_pos hmem] at hsome
        exact absurd Table.getElem?_drop_self hsome
      · exact absurd (Table.getElem?_commit_deleteIfPresent_of_ne hp) hne
  | fetch key =>
    rcases comesTo_fetch h with ⟨hx, -⟩ | ⟨path', u, -, hx, -⟩
    · simp at hx
    · have hmem : Exchange.commit x t ∈ [Exchange.read path' u] := by
        rw [← hx]
        simp
      simp at hmem

end Request

/-! ## What exchanges show -/

namespace Exchange

/-- The table that an exchange leaves behind. -/
def left : Exchange Table → Table
  | .read _ t => t
  | .commit x t => (t.commit x).2

theorem becomes (exchange : Exchange Table) : exchange.store.Becomes exchange.left := by
  cases exchange with
  | read path t => exact .refl t
  | commit x t => exact Table.becomes_commit t x

/-- An exchange reads an entry of a path or writes it. -/
def Shows (path : String) (e : Entry) : Exchange Table → Prop
  | .read asked t => asked = path ∧ t.entries[path]? = some e
  | .commit x t => (t.commit x).2.entries[path]? = some e ∧ t.entries[path]? ≠ some e

theorem Shows.left {exchange : Exchange Table} {e : Entry} (h : exchange.Shows path e) :
    exchange.left.entries[path]? = some e := by
  cases exchange with
  | read asked t => exact h.2
  | commit x t => exact h.1

theorem shows_putIf {t : Table} {c : Comparison} {ttl : Option Duration} (h : t.Valid)
    (hs : t.satisfies c = true) :
    (commit (Pair.putIf c path bytes ttl) t).Shows path ⟨bytes, t.revision + 1, ttl⟩ := by
  change (t.commit _).2.entries[path]? = _ ∧ t.entries[path]? ≠ _
  rw [Table.commit_putIf, if_pos hs]
  refine ⟨Table.getElem?_put_self, fun hbefore => ?_⟩
  have hle := (h.written path _ hbefore).2
  exact absurd (Int.lt_succ t.revision) (Int.not_lt.2 hle)

end Exchange

/-! ## Tables that exchanges lead to -/

namespace Chronicle

variable {past later earlier : Chronicle Table} {t t₀ : Table}

theorem Leads.valid (h₀ : t₀.Valid) (h : past.Leads Table.backend t₀ t) : t.Valid := by
  induction past generalizing t with
  | nil => cases h; exact h₀
  | cons event past ih =>
    obtain ⟨i, event⟩ := event
    cases event with
    | asked | answered => exact ih h
    | met exchange =>
      cases exchange with
      | read path u => obtain ⟨rfl, h⟩ := h; exact ih h
      | commit x u => obtain ⟨rfl, h⟩ := h; exact (ih h).commit x

/-- What was there before the later exchanges has become what is there now. The entry of a path is
still the same if none of them has made another of it. -/
theorem Leads.since (h : (later ++ earlier).Leads Table.backend t₀ t) :
    ∃ u, earlier.Leads Table.backend t₀ u ∧ u.Becomes t ∧ ∀ path : String,
      (∀ i x v, (i, .met (.commit x v)) ∈ later → u.revision ≤ v.revision →
        (v.commit x).2.entries[path]? = v.entries[path]?) →
      t.entries[path]? = u.entries[path]? := by
  induction later generalizing t with
  | nil => exact ⟨t, h, .refl t, fun _ _ => rfl⟩
  | cons event later ih =>
    obtain ⟨i, event⟩ := event
    cases event with
    | asked | answered =>
      obtain ⟨u, hu, hut, hsame⟩ := ih h
      exact ⟨u, hu, hut, fun path hl => hsame path fun j x v hmem =>
        hl j x v (List.mem_cons_of_mem _ hmem)⟩
    | met exchange =>
      cases exchange with
      | read asked v =>
        obtain ⟨rfl, h⟩ := h
        obtain ⟨u, hu, hut, hsame⟩ := ih h
        exact ⟨u, hu, hut, fun path hl => hsame path fun j x v hmem =>
          hl j x v (List.mem_cons_of_mem _ hmem)⟩
      | commit x v =>
        obtain ⟨rfl, h⟩ := h
        obtain ⟨u, hu, huv, hsame⟩ := ih h
        refine ⟨u, hu, huv.trans (Table.becomes_commit v x), fun path hl => ?_⟩
        have hlast := hl i x v List.mem_cons_self huv.revision_le
        exact hlast.trans (hsame path fun j y w hmem => hl j y w (List.mem_cons_of_mem _ hmem))

theorem Leads.left {i : Nat} {exchange : Exchange Table} (h₀ : t₀.Valid)
    (h : past.Leads Table.backend t₀ t) (hmem : (i, .met exchange) ∈ past) :
    exchange.store.Valid ∧ exchange.left.Valid ∧ exchange.left.Becomes t := by
  obtain ⟨later, earlier, rfl⟩ := List.append_of_mem hmem
  obtain ⟨u, hu, hut, -⟩ := h.since
  cases exchange with
  | read path v =>
    obtain ⟨rfl, hv⟩ := hu
    have hvalid := hv.valid h₀
    exact ⟨hvalid, hvalid, hut⟩
  | commit x v =>
    obtain ⟨rfl, hv⟩ := hu
    have hvalid := hv.valid h₀
    exact ⟨hvalid, hvalid.commit x, hut⟩

/-- Of two exchanges one finds what the other has left, or what has come of it. -/
theorem Leads.ordered {i j : Nat} {x y : Exchange Table} (h₀ : t₀.Valid)
    (h : past.Leads Table.backend t₀ t) (hx : (i, .met x) ∈ past) (hy : (j, .met y) ∈ past) :
    x = y ∨ x.left.Becomes y.store ∨ y.left.Becomes x.store := by
  induction past generalizing t with
  | nil => cases hx
  | cons event past ih =>
    obtain ⟨k, event⟩ := event
    cases event with
    | asked | answered =>
      exact ih h (by simpa using hx) (by simpa using hy)
    | met exchange =>
      have hbefore : Leads Table.backend t₀ past exchange.store := by
        cases exchange with
        | read | commit => exact h.2
      rcases List.mem_cons.1 hx with hx | hxpast
      · cases hx
        rcases List.mem_cons.1 hy with hy | hypast
        · cases hy
          exact .inl rfl
        · exact .inr (.inr (hbefore.left h₀ hypast).2.2)
      · rcases List.mem_cons.1 hy with hy | hypast
        · cases hy
          exact .inr (.inl (hbefore.left h₀ hxpast).2.2)
        · exact ih hbefore hxpast hypast

/-- What an exchange has found on a path is what any other shows there of the same revision. -/
theorem Leads.entry_eq_of_shows {i j : Nat} {x y : Exchange Table} {e e' : Entry}
    (h₀ : t₀.Valid) (h : past.Leads Table.backend t₀ t) (hx : (i, .met x) ∈ past)
    (he : x.store.entries[path]? = some e) (hy : (j, .met y) ∈ past) (hshows : y.Shows path e')
    (hr : e'.revision = e.revision) : e' = e := by
  obtain ⟨hvalid, -, -⟩ := h.left h₀ hx
  obtain ⟨-, hleft, -⟩ := h.left h₀ hy
  rcases h.ordered h₀ hx hy with rfl | hbefore | hafter
  · exact x.becomes.entry_eq hvalid he hshows.left hr
  · have hbecomes := (x.becomes.trans hbefore).trans y.becomes
    exact hbecomes.entry_eq hvalid he hshows.left hr
  · exact (hafter.entry_eq hleft hshows.left he hr.symm).symm

/-- The exchanges of a call find what its earlier ones have left, or what has come of it. -/
theorem Leads.pairwise {i : Nat} (h₀ : t₀.Valid) (h : past.Leads Table.backend t₀ t) :
    (past.exchangesOf i).Pairwise fun first second => first.left.Becomes second.store := by
  induction past generalizing t with
  | nil => exact .nil
  | cons event past ih =>
    obtain ⟨j, event⟩ := event
    cases event with
    | asked | answered => exact ih h
    | met exchange =>
      have hbefore : Leads Table.backend t₀ past exchange.store := by
        cases exchange with
        | read | commit => exact h.2
      have hpast := ih hbefore
      unfold exchangesOf
      split
      · rename_i hj
        rw [List.pairwise_append]
        refine ⟨hpast, List.pairwise_singleton .., fun first hfirst second hsecond => ?_⟩
        cases List.mem_singleton.1 hsecond
        exact (hbefore.left h₀ (mem_exchangesOf.1 hfirst)).2.2
      · exact hpast

/-! ## What calls have found out -/

/-- A call has given away a revision of a path. -/
def Told (past : Chronicle Table) (j : Nat) (path : String) (r : Revision) : Prop :=
  ∃ request answer, (j, .answered request (.ok answer)) ∈ past ∧ request.key.path = .ok path ∧
    answer.revision? = some r

/-- A call has read an entry of a path or has written it. -/
def Met (past : Chronicle Table) (j : Nat) (path : String) (e : Entry) : Prop :=
  ∃ exchange, (j, .met exchange) ∈ past ∧ exchange.Shows path e

/-- A path has been written or deleted since a revision. -/
def Touched (past : Chronicle Table) (path : String) (r : Revision) : Prop :=
  ∃ i x t, (i, .met (.commit x t)) ∈ past ∧ r ≤ t.revision ∧
    (t.commit x).2.entries[path]? ≠ t.entries[path]?

/-- A path that shows what was written at a revision has not been touched since. -/
theorem Leads.not_touched {e : Entry} (h₀ : t₀.Valid) (h : past.Leads Table.backend t₀ t)
    (he : t.entries[path]? = some e) : ¬ past.Touched path e.revision := by
  rintro ⟨i, x, u, hmem, hle, hne⟩
  have hbecomes : (u.commit x).2.Becomes t := (h.left h₀ hmem).2.2
  have hgrown := (Table.becomes_commit u x).revision_le
  rcases hbecomes.entry path with hsame | hlater
  · rcases (Table.becomes_commit u x).entry path with hkept | hwritten
    · exact hne hkept
    · have hlt := hwritten e (hsame.symm.trans he)
      exact absurd hle (Int.not_le.2 hlt)
  · have hlt := hlater e he
    exact absurd (Int.le_trans hle hgrown) (Int.not_le.2 hlt)

/-- A path that has not been touched shows what was seen there. -/
theorem Leads.shows_of_not_touched {j : Nat} {e : Entry} (h₀ : t₀.Valid)
    (h : past.Leads Table.backend t₀ t) (hmet : past.Met j path e)
    (hnot : ¬ past.Touched path e.revision) : t.entries[path]? = some e := by
  obtain ⟨exchange, hmem, hshows⟩ := hmet
  obtain ⟨-, hvalid, -⟩ := h.left h₀ hmem
  have hle := (hvalid.written path e hshows.left).2
  obtain ⟨later, earlier, rfl⟩ := List.append_of_mem hmem
  obtain ⟨u, hu, -, hsame⟩ := h.since
  have hleft : u = exchange.left := by
    cases exchange with
    | read | commit => exact hu.1
  subst hleft
  rw [← hshows.left]
  refine hsame path fun i x v hv hrevision => Classical.byContradiction fun hne => hnot ?_
  exact ⟨i, x, v, List.mem_append_left _ hv, Int.le_trans hle hrevision, hne⟩

/-- Since a revision that has been seen, a path has been left alone exactly if it still shows it. -/
theorem Leads.revisionOf_eq_iff {j : Nat} {e : Entry} (h₀ : t₀.Valid)
    (h : past.Leads Table.backend t₀ t) (hmet : past.Met j path e) :
    t.revisionOf path = e.revision ↔ ¬ past.Touched path e.revision := by
  constructor
  · intro hr
    obtain ⟨exchange, hmem, hshows⟩ := hmet
    have hpos := ((h.left h₀ hmem).2.1.written path e hshows.left).1
    cases he : t.entries[path]? with
    | none =>
      rw [(Table.revisionOf_eq_zero_iff (h.valid h₀)).2 he] at hr
      exact absurd hr (Int.ne_of_lt hpos)
    | some e' =>
      rw [← hr, Table.revisionOf_eq he]
      exact h.not_touched h₀ he
  · intro hnot
    exact Table.revisionOf_eq (h.shows_of_not_touched h₀ hmet hnot)

/-- A call has ended, after what it has looked up, by putting its pair into a table. -/
def Puts (past : Chronicle Table) (i : Nat) (p : Pair) (answer : Answer)
    (looked : List (Exchange Table)) (path : String) (t : Table) : Prop :=
  ∃ bytes x, p.Writes path bytes ∧ past.exchangesOf i = looked ++ [.commit x t] ∧
    (t.commit x).2 = t.put path bytes p.ttl ∧ answer = .written (t.revision + 1)

end Chronicle

/-- A table holds on a path what an update has looked up or is told to go by. -/
def Pair.Expects (p : Pair) (looked : List (Exchange Table)) (path : String) (t : Table) : Prop :=
  match p.revision with
  | none => ∃ u : Table, looked = [.read path u] ∧ t.entries[path]? = u.entries[path]?
  | some r => looked = [] ∧
      (r = 0 ∧ t.entries[path]? = none ∨ ∃ e, t.entries[path]? = some e ∧ e.revision = r)

namespace Clientele

variable {past later earlier : Chronicle Table} {t₀ : Table} {c : Clientele Table} {i j : Nat}
  {request : Request} {r : Revision}

/-- Who gives away a revision has read or written an entry with it. -/
theorem Reaches.met_of_told (h₀ : t₀.Valid) (h : Reaches Table.backend (initial t₀) past c)
    (htold : past.Told j path r) :
    ∃ e, past.Met j path e ∧ e.revision = r := by
  obtain ⟨request, answer, hmem, hkey, hr⟩ := htold
  obtain ⟨later, earlier, hpast⟩ := List.append_of_mem hmem
  have hcomes := ((hpast ▸ h).answered).2
  have hleads := h.recounts.leads
  have hmet : ∀ exchange ∈ Chronicle.exchangesOf j earlier, (j, .met exchange) ∈ past := by
    intro exchange he
    rw [hpast]
    exact List.mem_append_right _ (List.mem_cons_of_mem _ (Chronicle.mem_exchangesOf.1 he))
  cases request with
  | create p =>
    rcases Request.comesTo_create hcomes with ⟨-, -, e, he⟩ | ⟨path', bytes, t, hw, hx, hd⟩
    · cases he
    · cases hkey.symm.trans hw.1
      obtain ⟨hs, rfl⟩ := hd.of_ok
      cases hr
      have hmem := hmet _ (hx ▸ List.mem_cons_self)
      exact ⟨_, ⟨_, hmem, Exchange.shows_putIf (hleads.left h₀ hmem).1 hs⟩, rfl⟩
  | update p =>
    rcases Request.comesTo_update hcomes with
      ⟨-, -, e, he⟩ | ⟨path', bytes, t, expected, hw, hd, hx⟩
    · cases he
    · cases hkey.symm.trans hw.1
      obtain ⟨hs, rfl⟩ := hd.of_ok
      cases hr
      have hmem : .commit (Pair.putIf (Pair.unchangedSince path expected) path bytes p.ttl) t ∈
          Chronicle.exchangesOf j earlier := by
        rcases hx with ⟨-, hx⟩ | ⟨-, u, -, hx⟩ <;> simp [hx]
      have hvalid := (hleads.left h₀ (hmet _ hmem)).1
      exact ⟨_, ⟨_, hmet _ hmem, Exchange.shows_putIf hvalid hs⟩, rfl⟩
  | remove key =>
    rcases Request.comesTo_remove hcomes with ⟨-, e, he⟩ | ⟨path', t, -, -, hd⟩
    · cases he
    · split at hd
      · cases hd
        cases hr
      · obtain ⟨e, he⟩ := hd
        cases he
  | fetch key =>
    rcases Request.comesTo_fetch hcomes with ⟨-, e, he⟩ | ⟨path', t, hpath, hx, hfound⟩
    · cases he
    · cases hkey.symm.trans hpath
      obtain ⟨e, he, her⟩ := hfound answer r rfl hr
      exact ⟨e, ⟨.read path t, hmet _ (hx ▸ List.mem_cons_self), rfl, he⟩, her⟩

/-! ## The promises kept -/

theorem Reaches.create_respected {p : Pair} {answer : Answer} (h₀ : t₀.Valid)
    (h : Reaches Table.backend (initial t₀)
      (later ++ (i, .answered (.create p) (.ok answer)) :: earlier) c) :
    ∃ path t, Chronicle.Puts earlier i p answer [] path t ∧ t.entries[path]? = none := by
  obtain ⟨c₁, -, hreach, -⟩ := h.split
  rcases Request.comesTo_create h.answered.2 with ⟨-, -, e, he⟩ | ⟨path, bytes, t, hw, hx, hd⟩
  · cases he
  · obtain ⟨hs, rfl⟩ := hd.of_ok
    have hmem := Chronicle.mem_exchangesOf.1 (hx ▸ List.mem_cons_self)
    have hvalid := (hreach.recounts.leads.left h₀ hmem).1
    have habsent := (Table.satisfies_absent_iff hvalid).1 hs
    exact ⟨path, t, ⟨bytes, _, hw, hx, Table.commit_putIf_of_satisfies hs, rfl⟩, habsent⟩

theorem Reaches.update_respected {p : Pair} {answer : Answer} (h₀ : t₀.Valid)
    (h : Reaches Table.backend (initial t₀)
      (later ++ (i, .answered (.update p) (.ok answer)) :: earlier) c) :
    ∃ path t looked, Chronicle.Puts earlier i p answer looked path t ∧ p.Expects looked path t := by
  obtain ⟨c₁, -, hreach, -⟩ := h.split
  have hleads := hreach.recounts.leads
  have hvalid : ∀ exchange ∈ Chronicle.exchangesOf i earlier, exchange.store.Valid := by
    intro exchange hmem
    exact (hleads.left h₀ (Chronicle.mem_exchangesOf.1 hmem)).1
  rcases Request.comesTo_update h.answered.2 with
    ⟨-, -, e, he⟩ | ⟨path, bytes, t, expected, hw, hd, hx⟩
  · cases he
  · obtain ⟨hs, rfl⟩ := hd.of_ok
    have hrevision := Table.satisfies_unchangedSince.1 hs
    unfold Pair.Expects
    rcases hx with ⟨hp, hx⟩ | ⟨hp, u, hu, hx⟩
    · have ht : t.Valid := by
        rw [hx] at hvalid
        exact hvalid _ List.mem_cons_self
      refine ⟨path, t, [], ⟨bytes, _, hw, hx, Table.commit_putIf_of_satisfies hs, rfl⟩, ?_⟩
      rw [hp]
      refine ⟨rfl, ?_⟩
      cases he : t.entries[path]? with
      | none =>
        rw [(Table.revisionOf_eq_zero_iff ht).2 he] at hrevision
        exact .inl ⟨hrevision.symm, rfl⟩
      | some e =>
        rw [Table.revisionOf_eq he] at hrevision
        exact .inr ⟨e, rfl, hrevision⟩
    · have hpairwise := hleads.pairwise (i := i) h₀
      rw [hx] at hvalid hpairwise
      obtain ⟨hread, hcommit⟩ := List.forall_mem_cons.1 hvalid
      have hbecomes : u.Becomes t :=
        (List.pairwise_cons.1 hpairwise).1 _ List.mem_cons_self
      have hsame : t.entries[path]? = u.entries[path]? :=
        hbecomes.getElem?_eq hread (hcommit _ List.mem_cons_self) (hrevision.trans hu.symm)
      refine ⟨path, t, [.read path u],
        ⟨bytes, _, hw, hx, Table.commit_putIf_of_satisfies hs, rfl⟩, ?_⟩
      rw [hp]
      exact ⟨u, rfl, hsame⟩

theorem Reaches.update_succeeds_iff {p : Pair} {bytes : Bytes}
    {result : Except StoreError Answer} (h₀ : t₀.Valid)
    (h : Reaches Table.backend (initial t₀)
      (later ++ (i, .answered (.update p) result) :: earlier) c)
    (hw : p.Writes path bytes) (hp : p.revision = some r) :
    ∃ x t between before, earlier = between ++ (i, .met (.commit x t)) :: before ∧
      earlier.exchangesOf i = [.commit x t] ∧ ∀ j, Chronicle.Told before j path r →
        ((∃ answer, result = .ok answer) ↔ ¬ Chronicle.Touched before path r) := by
  rcases Request.comesTo_update h.answered.2 with
    ⟨hnot, -⟩ | ⟨path', bytes', t, expected, hw', hd, ⟨hp', hx⟩ | ⟨hp', -⟩⟩
  · exact absurd hw (hnot path bytes)
  · cases hw.1.symm.trans hw'.1
    cases hp.symm.trans hp'
    obtain ⟨c₁, -, hreach, -⟩ := h.split
    obtain ⟨between, before, hearlier⟩ :=
      List.append_of_mem (Chronicle.mem_exchangesOf.1 (hx ▸ List.mem_cons_self))
    refine ⟨_, t, between, before, hearlier, hx, fun j htold => ?_⟩
    rw [hearlier] at hreach
    obtain ⟨c₂, -, hbefore, -⟩ := hreach.split
    have hleads : Chronicle.Leads Table.backend t₀ before t := hreach.met.1
    obtain ⟨e, hmet, rfl⟩ := hbefore.met_of_told h₀ htold
    rw [hd.succeeds_iff, Table.satisfies_unchangedSince, hleads.revisionOf_eq_iff h₀ hmet]
  · cases hp.symm.trans hp'

/-- What fails has left the table alone. -/
theorem Reaches.failure_respected {e : StoreError} (h₀ : t₀.Valid)
    (h : Reaches Table.backend (initial t₀)
      (later ++ (i, .answered request (.error e)) :: earlier) c) {x : Transaction} {t : Table}
    (hmem : (i, .met (.commit x t)) ∈ earlier) : (t.commit x).2 = t := by
  obtain ⟨c₁, -, hreach, -⟩ := h.split
  have hvalid : t.Valid := (hreach.recounts.leads.left h₀ hmem).1
  rw [← Chronicle.mem_exchangesOf] at hmem
  have hcomes := h.answered.2
  cases request with
  | create p =>
    rcases Request.comesTo_create hcomes with ⟨-, hx, -⟩ | ⟨path, bytes, u, -, hx, hd⟩
    · simp [hx] at hmem
    · simp only [hx, List.mem_singleton, Exchange.commit.injEq] at hmem
      obtain ⟨rfl, rfl⟩ := hmem
      simp [Table.commit_putIf, hd.of_error]
  | update p =>
    rcases Request.comesTo_update hcomes with
      ⟨-, hx, -⟩ | ⟨path, bytes, u, expected, -, hd, ⟨-, hx⟩ | ⟨-, v, -, hx⟩⟩
    · simp [hx] at hmem
    · simp only [hx, List.mem_singleton, Exchange.commit.injEq] at hmem
      obtain ⟨rfl, rfl⟩ := hmem
      simp [Table.commit_putIf, hd.of_error]
    · simp only [hx, List.mem_cons, reduceCtorEq, Exchange.commit.injEq, List.not_mem_nil,
        or_false, false_or] at hmem
      obtain ⟨rfl, rfl⟩ := hmem
      simp [Table.commit_putIf, hd.of_error]
  | remove key =>
    rcases Request.comesTo_remove hcomes with ⟨hx, -⟩ | ⟨path, u, -, hx, hd⟩
    · simp [hx] at hmem
    · simp only [hx, List.mem_singleton, Exchange.commit.injEq] at hmem
      obtain ⟨rfl, rfl⟩ := hmem
      have habsent : ¬ path ∈ t.entries := by
        intro hpresent
        rw [if_pos ((Table.satisfies_present_iff_mem hvalid).2 hpresent)] at hd
        cases hd
      rw [Table.commit_deleteIfPresent hvalid, if_neg habsent]
  | fetch key =>
    rcases Request.comesTo_fetch hcomes with ⟨hx, -⟩ | ⟨path, u, -, hx, -⟩
    · simp [hx] at hmem
    · simp [hx] at hmem

/-- What is overwritten has been read by the update that does it, or its revision was given. -/
theorem Reaches.overwritten_respected {x : Transaction} {t : Table} {e : Entry}
    (h₀ : t₀.Valid)
    (h : Reaches Table.backend (initial t₀) (later ++ (i, .met (.commit x t)) :: earlier) c)
    (he : t.entries[path]? = some e) (hne : (t.commit x).2.entries[path]? ≠ some e)
    (hsome : (t.commit x).2.entries[path]? ≠ none) :
    ∃ p, (i, .asked (.update p)) ∈ earlier ∧ p.key.path = .ok path ∧
      (p.revision = some e.revision ∨ p.revision = none ∧
        ∃ u : Table, (i, .met (.read path u)) ∈ earlier ∧ u.entries[path]? = some e) := by
  obtain ⟨hleads, request, hasked, rest, result, hcomes⟩ := h.met
  have hleads : Chronicle.Leads Table.backend t₀ earlier t := hleads
  obtain ⟨p, rfl, hpath, hfound⟩ := Request.overwrites (hleads.valid h₀) hcomes he hne hsome
  refine ⟨p, hasked, hpath, hfound.imp_right ?_⟩
  rintro ⟨hp, u, hx, hu⟩
  have hmem : (i, .met (.read path u)) ∈ earlier :=
    Chronicle.mem_exchangesOf.1 (hx ▸ List.mem_cons_self)
  obtain ⟨-, hvalid, hbecomes⟩ := hleads.left h₀ hmem
  have hsame : t.entries[path]? = u.entries[path]? :=
    hbecomes.getElem?_eq hvalid (hleads.valid h₀) ((Table.revisionOf_eq he).trans hu.symm)
  exact ⟨hp, u, hmem, hsame ▸ he⟩

end Clientele

/-- What callers of a table can rely on. -/
structure Chronicle.Respects (past : Chronicle Table) : Prop where
  /-- A creation that succeeds has found its path absent. -/
  create : ∀ {later earlier : Chronicle Table} {i : Nat} {p : Pair} {answer : Answer},
    past = later ++ (i, .answered (.create p) (.ok answer)) :: earlier →
    ∃ path t, earlier.Puts i p answer [] path t ∧ t.entries[path]? = none
  /-- An update that succeeds has found what it goes by. -/
  update : ∀ {later earlier : Chronicle Table} {i : Nat} {p : Pair} {answer : Answer},
    past = later ++ (i, .answered (.update p) (.ok answer)) :: earlier →
    ∃ path t looked, earlier.Puts i p answer looked path t ∧ p.Expects looked path t
  /-- Given a revision that has come of the path, an update succeeds exactly if the path has been
  left alone since. -/
  update_iff : ∀ {later earlier : Chronicle Table} {i : Nat} {p : Pair} {path : String}
    {bytes : Bytes} {r : Revision} {result : Except StoreError Answer},
    past = later ++ (i, .answered (.update p) result) :: earlier → p.Writes path bytes →
    p.revision = some r →
    ∃ x t between before, earlier = between ++ (i, .met (.commit x t)) :: before ∧
      earlier.exchangesOf i = [.commit x t] ∧ ∀ j, Chronicle.Told before j path r →
        ((∃ answer, result = .ok answer) ↔ ¬ Chronicle.Touched before path r)
  /-- What fails changes nothing. -/
  failure : ∀ {later earlier : Chronicle Table} {i : Nat} {request : Request} {e : StoreError}
    {x : Transaction} {t : Table},
    past = later ++ (i, .answered request (.error e)) :: earlier →
    (i, .met (.commit x t)) ∈ earlier → (t.commit x).2 = t
  /-- An entry is overwritten by an update that has read it or has been given its revision, and
  whoever was told the revision has seen that entry. -/
  overwritten : ∀ {later earlier : Chronicle Table} {i : Nat} {x : Transaction} {t : Table}
    {path : String} {e : Entry},
    past = later ++ (i, .met (.commit x t)) :: earlier → t.entries[path]? = some e →
    (t.commit x).2.entries[path]? ≠ some e → (t.commit x).2.entries[path]? ≠ none →
    (∀ j, past.Told j path e.revision → past.Met j path e) ∧
    ∃ p, (i, .asked (.update p)) ∈ earlier ∧ p.key.path = .ok path ∧
      (p.revision = some e.revision ∨ p.revision = none ∧
        ∃ u : Table, (i, .met (.read path u)) ∈ earlier ∧ u.entries[path]? = some e)

namespace Clientele

theorem respects_of_reaches {t₀ : Table} {past : Chronicle Table} {c : Clientele Table}
    (h₀ : t₀.Reached) (h : Reaches Table.backend (initial t₀) past c) : past.Respects := by
  have hvalid : t₀.Valid := h₀.valid
  refine ⟨?create, ?update, ?update_iff, ?failure, ?overwritten⟩
  case create =>
    intro later earlier i p answer hpast
    exact (hpast ▸ h).create_respected hvalid
  case update =>
    intro later earlier i p answer hpast
    exact (hpast ▸ h).update_respected hvalid
  case update_iff =>
    intro later earlier i p path bytes r result hpast hw hp
    exact (hpast ▸ h).update_succeeds_iff hvalid hw hp
  case failure =>
    intro later earlier i request e x t hpast hmem
    exact (hpast ▸ h).failure_respected hvalid hmem
  case overwritten =>
    intro later earlier i x t path e hpast he hne hsome
    refine ⟨fun j htold => ?_, (hpast ▸ h).overwritten_respected hvalid he hne hsome⟩
    obtain ⟨e', ⟨exchange, hmem, hshows⟩, hr⟩ := h.met_of_told hvalid htold
    have hcommit : (i, .met (.commit x t)) ∈ past := by simp [hpast]
    have heq : e' = e :=
      h.recounts.leads.entry_eq_of_shows hvalid hcommit he hmem hshows hr
    exact heq ▸ ⟨exchange, hmem, hshows⟩

/-! ## Two runs -/

namespace Example

/-- A node in words, with the revision that its update goes by. -/
def pairOf (value : Value) (revision : Option Revision) : Pair :=
  ⟨.node "n1", value, revision, none⟩

def record (name : String) : Value := .structured (.object [("name", .str name)])

/-- A caller writes a node. -/
def created : List Turn :=
  .ask (.create (pairOf (record "a") none)) :: List.replicate 3 (.go 0)

/-- Two callers update the node at once, each by what it has read. -/
def raced : Chronicle Table × Clientele Table :=
  (initial .initial).play Table.backend [] <|
    created ++ [.ask (.update (pairOf (record "b") none)),
      .ask (.update (pairOf (record "c") none)), .go 1, .go 2] ++
      List.replicate 3 (.go 1) ++ List.replicate 3 (.go 2)

/-- What calls have been answered. -/
def answers (past : Chronicle Table) : List (Nat × Bool) :=
  past.filterMap fun
    | (i, .answered _ result) => some (i, result.isOk)
    | _ => none

theorem respects_of_raced :
    answers raced.1 = [(2, false), (1, true), (0, true)] ∧ raced.1.Respects :=
  ⟨by decide +kernel, respects_of_reaches .initial (Reaches.start.play _)⟩

/-- A caller updates the node by its revision, with a value that is none of a node. -/
def refused : Chronicle Table × Clientele Table :=
  (initial .initial).play Table.backend [] <|
    created ++ .ask (.update (pairOf (.flag true) (some 1))) :: List.replicate 2 (.go 1)

theorem unencodable_update_fails :
    ∃ past c p path r e, Reaches Table.backend (initial .initial) past c ∧
      past.head? = some (1, .answered (.update p) (.error e)) ∧ p.key.path = .ok path ∧
      p.revision = some r ∧ past.Told 0 path r ∧ ¬ past.Touched path r := by
  have hreach : Reaches Table.backend (initial .initial) refused.1 refused.2 := Reaches.start.play _
  have hread : (refused.2.store.entries["/nimbess/host/n1"]?.map Entry.revision) = some 1 := by
    decide +kernel
  obtain ⟨e, he, hr⟩ := Option.map_eq_some_iff.1 hread
  have hnot := hreach.recounts.leads.not_touched Table.valid_initial he
  rw [hr] at hnot
  refine ⟨refused.1, refused.2, _, "/nimbess/host/n1", 1, _, hreach, rfl, rfl, rfl, ?_, hnot⟩
  refine ⟨.create (pairOf (record "a") none), .written 1, ?_, rfl, rfl⟩
  exact .tail _ (.tail _ (.head _))

end Example

end Clientele
end ClusterSync
