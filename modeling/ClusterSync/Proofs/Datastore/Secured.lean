import ClusterSync.Proofs.Datastore.Table

/-!
# What a dialogue brings about on its path

A dialogue takes turns with others. If nobody else touches its path, then between two of its calls
the table may change in any way but on that path. `Dialogue.Secures` says that under this
circumstance a dialogue touches nothing but its path and ends as it should.

**Theorem (`Secures.step`).** A step of such a dialogue on a table leaves the other paths alone,
and what remains of the dialogue still secures its goal, from what the path holds after the step.

The conditional writes come to an end in which their condition has been decided by what the path
holds at the start. That is immediate for one transaction; `Pair.update` looks at the path first,
and its transaction finds the path as it was seen.
-/

namespace ClusterSync

open Text

namespace Dialogue

variable {α β : Type} {path : String}

/-- Played over tables on which nobody else touches the path, the dialogue leaves all other paths
alone and ends with a result and an entry of the path that meet the goal. The last argument is the
entry of the path now. -/
def Secures (path : String) (goal : α → Option Entry → Prop) :
    Dialogue α → Option Entry → Prop
  | .done a, found => goal a found
  | .commit x next, found => ∀ t : Table, t.Valid → t.entries[path]? = found →
      (∀ other, other ≠ path → (t.commit x).2.entries[other]? = t.entries[other]?) ∧
      (next (.ok (t.commit x).1)).Secures path goal (t.commit x).2.entries[path]?
  | .read asked next, found => ∀ t : Table, t.Valid → t.entries[path]? = found →
      (next (.ok (t.get? asked))).Secures path goal found
  | .log _ next, found => next.Secures path goal found
  | .count _ next, found => next.Secures path goal found

theorem Secures.mono {goal goal' : α → Option Entry → Prop} {p : Dialogue α}
    {found : Option Entry} (h : p.Secures path goal found) (hg : ∀ a e, goal a e → goal' a e) :
    p.Secures path goal' found := by
  induction p generalizing found with
  | done a => exact hg a found h
  | commit x next ih => exact fun t ht hf => ⟨(h t ht hf).1, ih _ (h t ht hf).2⟩
  | read asked next ih => exact fun t ht hf => ih _ (h t ht hf)
  | log event next ih => exact ih h
  | count sample next ih => exact ih h

/-- One dialogue after another: the first has to end where the second starts. -/
theorem Secures.bind {goal : β → Option Entry → Prop} {p : Dialogue α} {f : α → Dialogue β}
    {found : Option Entry} (h : p.Secures path (fun a e => (f a).Secures path goal e) found) :
    (p.bind f).Secures path goal found := by
  induction p generalizing found with
  | done a => exact h
  | commit x next ih => exact fun t ht hf => ⟨(h t ht hf).1, ih _ (h t ht hf).2⟩
  | read asked next ih => exact fun t ht hf => ih _ (h t ht hf)
  | log event next ih => exact ih h
  | count sample next ih => exact ih h

theorem Secures.step {goal : α → Option Entry → Prop} {p : Dialogue α} {t : Table}
    (h : p.Secures path goal t.entries[path]?) (ht : t.Valid) (journal : Journal) :
    (p.step Table.backend journal t).1.Secures path goal
        (p.step Table.backend journal t).2.2.entries[path]? ∧
      (p.step Table.backend journal t).2.2.Valid ∧
      ∀ other, other ≠ path →
        (p.step Table.backend journal t).2.2.entries[other]? = t.entries[other]? := by
  cases p with
  | done a => exact ⟨h, ht, fun _ _ => rfl⟩
  | commit x next => exact ⟨(h t ht rfl).2, ht.commit x, (h t ht rfl).1⟩
  | read asked next => exact ⟨h t ht rfl, ht, fun _ _ => rfl⟩
  | log event next => exact ⟨h, ht, fun _ _ => rfl⟩
  | count sample next => exact ⟨h, ht, fun _ _ => rfl⟩

end Dialogue

/-! ## Conditional writes -/

variable {path : String} {bytes : Bytes} {p : Pair} {key : Key}

theorem Pair.encoded_eq (hp : p.key.path = .ok path) (hv : p.value.encode p.key = .ok bytes) :
    p.encoded = .done (.ok (path, bytes)) := by
  unfold Pair.encoded
  rw [hp]
  dsimp only
  rw [hv]

/-- A creation writes a path that does not exist and leaves one that exists alone. -/
theorem Pair.secures_create (hp : p.key.path = .ok path)
    (hv : p.value.encode p.key = .ok bytes) (found : Option Entry) :
    p.create.Secures path (fun result e => match found with
      | none => (∃ revision, result = .ok revision) ∧
          ∃ e', e = some e' ∧ e'.value = bytes ∧ e'.ttl = p.ttl
      | some _ => result = .error (.alreadyExists path) ∧ e = found) found := by
  rw [Pair.create, Pair.encoded_eq hp hv]
  intro t ht hfound
  refine ⟨fun other hother => Table.getElem?_commit_putIf_of_ne hother.symm, ?_⟩
  rw [Table.commit_putIf]
  have habsent : t.satisfies (.absent path) = true ↔ t.entries[path]? = none :=
    Table.satisfies_absent_iff ht
  rw [hfound] at habsent
  cases found with
  | none =>
    rw [if_pos (habsent.2 rfl)]
    exact ⟨⟨_, rfl⟩, _, Table.getElem?_put_self, rfl, rfl⟩
  | some e =>
    rw [if_neg fun hs => nomatch habsent.1 hs]
    exact ⟨rfl, hfound⟩

/-- An overwriting of what the path holds writes the path. -/
theorem Pair.secures_overwrite {ttl : Option Duration} (found : Option Entry) :
    (Pair.overwrite path bytes ttl (found.elim 0 Entry.revision)).Secures path
      (fun result e => (∃ revision, result = .ok revision) ∧
        ∃ e', e = some e' ∧ e'.value = bytes ∧ e'.ttl = ttl) found := by
  intro t ht hfound
  refine ⟨fun other hother => Table.getElem?_commit_putIf_of_ne hother.symm, ?_⟩
  rw [Table.commit_putIf, if_pos (Table.satisfies_unchangedSince_found ht hfound)]
  exact ⟨⟨_, rfl⟩, _, Table.getElem?_put_self, rfl, rfl⟩

/-- An update of a pair without a revision writes its path. -/
theorem Pair.secures_update (hp : p.key.path = .ok path) (hv : p.value.encode p.key = .ok bytes)
    (hr : p.revision = none) (found : Option Entry) :
    p.update.Secures path
      (fun result e => (∃ revision, result = .ok revision) ∧
        ∃ e', e = some e' ∧ e'.value = bytes ∧ e'.ttl = p.ttl) found := by
  rw [Pair.update, Pair.encoded_eq hp hv, hr]
  intro t ht hfound
  rw [Table.get?, hfound]
  cases found with
  | none => exact Pair.secures_overwrite none
  | some e => exact Pair.secures_overwrite (some e)

/-- A removal leaves nothing on the path. -/
theorem Key.secures_remove (hp : key.path = .ok path) (found : Option Entry) :
    key.remove.Secures path (fun result e => e = none ∧ match found with
      | none => result = .error (.notFound path)
      | some _ => result = .ok ()) found := by
  rw [Key.remove, Key.deletePath, hp]
  intro t ht hfound
  refine ⟨fun other hother => Table.getElem?_commit_deleteIfPresent_of_ne hother.symm, ?_⟩
  have hmem : path ∈ t.entries ↔ found.isSome := by
    rw [Std.ExtTreeMap.mem_iff_isSome_getElem?, hfound]
  rw [Table.commit_deleteIfPresent ht]
  cases found with
  | none =>
    rw [if_neg fun hm => nomatch hmem.1 hm]
    exact ⟨hfound, rfl⟩
  | some e =>
    rw [if_pos (hmem.2 rfl)]
    exact ⟨Table.getElem?_drop_self, rfl⟩

end ClusterSync
