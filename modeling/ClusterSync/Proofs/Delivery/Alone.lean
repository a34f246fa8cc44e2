import ClusterSync.Proofs.Delivery.Rounds

/-!
# Requests that are carried out alone

What is done for an object depends on its kind through a translator only, which gives the key of a
name and the pair of an object, or says why there is no pair. `Translator.handle` carries requests
out for any translator. For the two kinds that there are it does what the handlers do.

**Theorem (`Translator.one_write`).** A request that nobody interferes with fails exactly if there
is no pair, no path or no encoding, and then leaves the table as it was. If it succeeds, its path
holds what follows from the request and from what was there, every other entry is the same down to
its revision, and the table has been written at most once. Made again at once, it succeeds again and
leaves the same content everywhere.

Each dialogue is described by the table that it leaves, and the theorem is read off these tables.
-/

namespace ClusterSync

open Text

/-! ## Dialogues that are played alone -/

namespace Dialogue

variable {α β σ : Type} {p : Dialogue α} {a : α} {b : β} {t u v : Table}

theorem run_bind (backend : Backend σ) (p : Dialogue α) (f : α → Dialogue β) (store : σ)
    (journal : Journal) :
    (p.bind f).run backend store journal =
      (f (p.run backend store journal).1).run backend (p.run backend store journal).2.1
        (p.run backend store journal).2.2 := by
  induction p generalizing store journal with
  | done a => rfl
  | commit x next ih => exact ih _ _ _
  | read path next ih => exact ih _ _ _
  | log event next ih => exact ih _ _
  | count sample next ih => exact ih _ _

/-- Played alone on a table, the dialogue comes to a result and leaves a table. -/
def Brings (p : Dialogue α) (t : Table) (a : α) (u : Table) : Prop :=
  ∀ journal, ∃ journal', p.run Table.backend t journal = (a, u, journal')

theorem brings_done : (done a).Brings t a t := fun journal => ⟨journal, rfl⟩

theorem brings_commit {x : Transaction} {next : Except StoreError Outcome → Dialogue α}
    (h : (next (.ok (t.commit x).1)).Brings (t.commit x).2 a u) : (commit x next).Brings t a u := h

theorem brings_read {path : String} {next : Except StoreError (Option Stored) → Dialogue α}
    (h : (next (.ok (t.get? path))).Brings t a u) : (read path next).Brings t a u := h

theorem brings_finish {operation : String} {result : Except StoreError α} :
    (finish operation result).Brings t result t := fun _ => ⟨_, rfl⟩

theorem Brings.bind {f : α → Dialogue β} (h : p.Brings t a u) (hf : (f a).Brings u b v) :
    (p.bind f).Brings t b v := by
  intro journal
  obtain ⟨journal', hrun⟩ := h journal
  rw [run_bind, hrun]
  exact hf journal'

theorem Says.brings (h : p.Says a) : p.Brings t a t := by
  intro journal
  induction p generalizing journal with
  | done a' => cases h; exact ⟨journal, rfl⟩
  | log _ _ ih | count _ _ ih => exact ih h _
  | commit | read => exact h.elim

end Dialogue

/-! ## Conditional writes -/

variable {t u : Table} {path other : String} {bytes : Bytes}

namespace Table

theorem satisfies_absent_iff_not_mem (h : t.Valid) :
    t.satisfies (.absent path) = true ↔ path ∉ t.entries := by
  rw [satisfies_absent_iff h, Std.ExtTreeMap.mem_iff_isSome_getElem?,
    Option.not_isSome_iff_eq_none]

/-- What a table becomes by at most one write, which is on a path. -/
inductive WrittenOnce (t : Table) (path : String) : Table → Prop
  | same : t.WrittenOnce path t
  | put (bytes : Bytes) (ttl : Option Duration) : t.WrittenOnce path (t.put path bytes ttl)
  | drop (h : path ∈ t.entries) : t.WrittenOnce path (t.drop path)

namespace WrittenOnce

theorem valid (h : t.WrittenOnce path u) (ht : t.Valid) : u.Valid := by
  cases h with
  | same => exact ht
  | put bytes ttl => exact ht.put path bytes ttl
  | drop hm => exact ht.drop hm

theorem getElem?_of_ne (h : t.WrittenOnce path u) (hne : other ≠ path) :
    u.entries[other]? = t.entries[other]? := by
  cases h with
  | same => rfl
  | put bytes ttl => simp [Table.put, Std.ExtTreeMap.getElem?_insert, hne.symm]
  | drop hm => simp [Table.drop, Std.ExtTreeMap.getElem?_erase, hne.symm]

theorem revision (h : t.WrittenOnce path u) : u = t ∨ u.revision = t.revision + 1 := by
  cases h with
  | same => exact .inl rfl
  | put bytes ttl => exact .inr rfl
  | drop hm => exact .inr rfl

end WrittenOnce

end Table

namespace Pair

variable {p : Pair} {e : StoreError}

/-- The path and bytes of a pair, or what is at fault with it. -/
def encoding (p : Pair) : Except StoreError (String × Bytes) :=
  match p.key.path with
  | .error e => .error (.ofKeyError e)
  | .ok path =>
    match p.value.encode p.key with
    | .error e => .error (.ofKeyError e)
    | .ok bytes => .ok (path, bytes)

theorem says_encoding (p : Pair) : p.encoded.Says p.encoding := by
  unfold encoded encoding
  cases p.key.path with
  | error e => rfl
  | ok path => cases p.value.encode p.key <;> rfl

/-- A fault of a pair is one of its key or its value. -/
theorem exists_keyError (h : p.encoding = .error e) : ∃ fault, e = .ofKeyError fault := by
  unfold encoding at h
  split at h
  · rename_i fault _
    exact ⟨fault, (Except.error.inj h).symm⟩
  · split at h
    · rename_i fault _
      exact ⟨fault, (Except.error.inj h).symm⟩
    · cases h

theorem brings_encoded (h : p.encoding = .ok (path, bytes)) :
    p.encoded.Brings t (.ok (path, bytes)) t := (h ▸ p.says_encoding).brings

theorem brings_create (ht : t.Valid) (h : p.encoding = .ok (path, bytes)) (hm : path ∉ t.entries) :
    p.create.Brings t (.ok (t.revision + 1)) (t.put path bytes p.ttl) := by
  refine (brings_encoded h).bind (Dialogue.brings_commit ?_)
  rw [Table.commit_putIf, if_pos ((Table.satisfies_absent_iff_not_mem ht).2 hm)]
  exact Dialogue.brings_finish

theorem brings_create_of_mem (ht : t.Valid) (h : p.encoding = .ok (path, bytes))
    (hm : path ∈ t.entries) : p.create.Brings t (.error (.alreadyExists path)) t := by
  refine (brings_encoded h).bind (Dialogue.brings_commit ?_)
  rw [Table.commit_putIf, if_neg fun hs => (Table.satisfies_absent_iff_not_mem ht).1 hs hm]
  exact Dialogue.brings_finish

theorem brings_overwrite {ttl : Option Duration} {found : Option Entry} (ht : t.Valid)
    (hfound : t.entries[path]? = found) :
    (overwrite path bytes ttl (found.elim 0 Entry.revision)).Brings t (.ok (t.revision + 1))
      (t.put path bytes ttl) := by
  refine Dialogue.brings_commit ?_
  rw [Table.commit_putIf, if_pos (Table.satisfies_unchangedSince_found ht hfound)]
  exact Dialogue.brings_finish

/-- Nobody comes between an update's look at its path and its transaction. -/
theorem brings_update (ht : t.Valid) (h : p.encoding = .ok (path, bytes)) (hr : p.revision = none) :
    p.update.Brings t (.ok (t.revision + 1)) (t.put path bytes p.ttl) := by
  refine (brings_encoded h).bind ?_
  rw [hr]
  refine Dialogue.brings_read ?_
  obtain ⟨found, hfound⟩ : ∃ found, t.entries[path]? = found := ⟨_, rfl⟩
  rw [Table.get?, hfound]
  cases found with
  | none => exact brings_overwrite ht hfound
  | some e => exact brings_overwrite ht hfound

end Pair

theorem Key.brings_remove {key : Key} (ht : t.Valid) (h : key.deletePath = .ok path) :
    key.remove.Brings t (if path ∈ t.entries then .ok () else .error (.notFound path))
      (if path ∈ t.entries then t.drop path else t) := by
  rw [Key.remove, h]
  refine Dialogue.brings_commit ?_
  rw [Table.commit_deleteIfPresent ht]
  split <;> exact Dialogue.brings_finish

/-! ## Translators -/

/-- How objects become pairs. A translator knows nothing of the datastore, so its pairs carry no
revision. -/
structure Translator (Resource : Type) where
  keyFor : ObjectName → Key
  translate : Resource → Except DeliveryError Pair
  revision_eq : ∀ o p, translate o = .ok p → p.revision = none

/-- Something to be done for an object that appeared, changed or went away. -/
inductive Translator.Request (Resource : Type)
  | create (o : Resource)
  | update (o : Resource)
  | delete (name : ObjectName)

namespace Translator

variable {R : Type} (T : Translator R)

/-- Carries out a request. -/
def handle : Request R → Dialogue (Except DeliveryError Unit)
  | .create o =>
    match T.translate o with
    | .error e => .done (.error e)
    | .ok p => p.create.bind fun
      | .ok _ | .error (.alreadyExists _) => .done (.ok ())
      | .error e => .done (.error (.store e))
  | .update o =>
    match T.translate o with
    | .error e => .done (.error e)
    | .ok p => p.update.bind fun
      | .ok _ => .done (.ok ())
      | .error e => .done (.error (.store e))
  | .delete name => (T.keyFor name).remove.bind fun
    | .ok _ | .error (.notFound _) => .done (.ok ())
    | .error e => .done (.error (.store e))

/-- Where an object belongs and what is to be there, or what is at fault with it. -/
def placed (o : R) : Except DeliveryError (String × Bytes × Option Duration) :=
  match T.translate o with
  | .error e => .error e
  | .ok p =>
    match p.encoding with
    | .error e => .error (.store e)
    | .ok (path, bytes) => .ok (path, bytes, p.ttl)

/-- The path that a request is about, or what is at fault with the request. -/
def target : Request R → Except DeliveryError String
  | .create o | .update o => (T.placed o).map Prod.fst
  | .delete name => (T.keyFor name).deletePath.mapError fun e => .store (.ofKeyError e)

/-- What a request leaves on its path, from what it finds there. -/
def Leaves (path : String) (found e : Option Entry) : Request R → Prop
  | .create o => ∃ content, T.placed o = .ok (path, content) ∧
    match found with
    | none => e.map Entry.content = some content
    | some _ => e = found
  | .update o => ∃ content, T.placed o = .ok (path, content) ∧ e.map Entry.content = some content
  | .delete _ => e = none

variable {T} {request : Request R} {o : R} {e : DeliveryError}

theorem placed_eq_error (h : (T.placed o).map Prod.fst = .error e) : T.placed o = .error e := by
  cases hplaced : T.placed o with
  | error fault =>
    rw [hplaced] at h
    exact congrArg Except.error (Except.error.inj h)
  | ok place =>
    rw [hplaced] at h
    cases h

theorem exists_placed (h : (T.placed o).map Prod.fst = .ok path) :
    ∃ content, T.placed o = .ok (path, content) := by
  cases hplaced : T.placed o with
  | error fault =>
    rw [hplaced] at h
    cases h
  | ok place =>
    rw [hplaced] at h
    cases h
    exact ⟨place.2, rfl⟩

theorem exists_pair_of_placed {content : Bytes × Option Duration}
    (h : T.placed o = .ok (path, content)) :
    ∃ p, T.translate o = .ok p ∧ p.encoding = .ok (path, content.1) ∧ p.ttl = content.2 := by
  unfold placed at h
  split at h
  · cases h
  · rename_i p hp
    split at h
    · cases h
    · rename_i hencoding
      cases h
      exact ⟨p, hp, hencoding, rfl⟩

/-- An object has no place because there is no pair or because the pair is at fault. -/
theorem says_placed (h : T.placed o = .error e) :
    T.translate o = .error e ∨ ∃ p fault, T.translate o = .ok p ∧
      p.encoded.Says (.error (.ofKeyError fault)) ∧ e = .store (.ofKeyError fault) := by
  unfold placed at h
  split at h
  · rename_i htranslate
    cases h
    exact .inl htranslate
  · rename_i p htranslate
    split at h
    · rename_i hencoding
      cases h
      obtain ⟨fault, rfl⟩ := Pair.exists_keyError hencoding
      exact .inr ⟨p, fault, htranslate, hencoding ▸ p.says_encoding, rfl⟩
    · cases h

/-- A request that has no target makes no call. -/
theorem says_handle (h : T.target request = .error e) : (T.handle request).Says (.error e) := by
  cases request with
  | create o =>
    rcases says_placed (placed_eq_error h) with htranslate | ⟨p, fault, htranslate, hencoded, rfl⟩
    · simp only [handle, htranslate, Dialogue.Says]
    · simp only [handle, htranslate]
      exact (hencoded.bind rfl : p.create.Says (.error (.ofKeyError fault))).bind
        (by cases fault <;> rfl)
  | update o =>
    rcases says_placed (placed_eq_error h) with htranslate | ⟨p, fault, htranslate, hencoded, rfl⟩
    · simp only [handle, htranslate, Dialogue.Says]
    · simp only [handle, htranslate]
      exact (hencoded.bind rfl : p.update.Says (.error (.ofKeyError fault))).bind rfl
  | delete name =>
    simp only [target] at h
    cases hpath : (T.keyFor name).deletePath with
    | ok path => rw [hpath] at h; cases h
    | error fault =>
      rw [hpath] at h
      cases h
      have hremove : (T.keyFor name).remove.Says (.error (.ofKeyError fault)) := by
        rw [Key.remove, hpath]
        rfl
      exact hremove.bind (by cases fault <;> rfl)

theorem brings_handle (ht : t.Valid) (h : T.target request = .ok path) :
    ∃ u, (T.handle request).Brings t (.ok ()) u ∧ t.WrittenOnce path u ∧
      T.Leaves path t.entries[path]? u.entries[path]? request := by
  cases request with
  | create o =>
    obtain ⟨content, hplaced⟩ := exists_placed h
    obtain ⟨p, htranslate, hencoding, httl⟩ := exists_pair_of_placed hplaced
    simp only [handle, htranslate]
    -- A path that exists makes the write fail and the request succeed.
    by_cases hm : path ∈ t.entries
    · refine ⟨t, (Pair.brings_create_of_mem ht hencoding hm).bind Dialogue.brings_done, .same,
        content, hplaced, ?_⟩
      rw [Std.ExtTreeMap.getElem?_eq_some_getElem hm]
    · refine ⟨_, (Pair.brings_create ht hencoding hm).bind Dialogue.brings_done, .put _ _,
        content, hplaced, ?_⟩
      rw [Std.ExtTreeMap.getElem?_eq_none hm, Table.getElem?_put_self, httl]
      rfl
  | update o =>
    obtain ⟨content, hplaced⟩ := exists_placed h
    obtain ⟨p, htranslate, hencoding, httl⟩ := exists_pair_of_placed hplaced
    simp only [handle, htranslate]
    refine ⟨_, (Pair.brings_update ht hencoding (T.revision_eq o p htranslate)).bind
      Dialogue.brings_done, .put _ _, content, hplaced, ?_⟩
    rw [Table.getElem?_put_self, httl]
    rfl
  | delete name =>
    have hpath : (T.keyFor name).deletePath = .ok path := by
      simp only [target] at h
      cases hpath : (T.keyFor name).deletePath with
      | ok path' => rw [hpath] at h; cases h; rfl
      | error fault => rw [hpath] at h; cases h
    have hremove := Key.brings_remove ht hpath
    by_cases hm : path ∈ t.entries
    · rw [if_pos hm, if_pos hm] at hremove
      exact ⟨_, hremove.bind Dialogue.brings_done, .drop hm, Table.getElem?_drop_self⟩
    · rw [if_neg hm, if_neg hm] at hremove
      exact ⟨t, hremove.bind Dialogue.brings_done, .same, Std.ExtTreeMap.getElem?_eq_none hm⟩

/-- What a request leaves, it leaves again: the second time it finds what it left itself. -/
theorem Leaves.content_eq {found e e' : Option Entry} (h : T.Leaves path found e request)
    (h' : T.Leaves path e e' request) : e'.map Entry.content = e.map Entry.content := by
  cases request with
  | create o =>
    obtain ⟨content, -, hcreated⟩ := h
    obtain ⟨_, -, hkept⟩ := h'
    cases e with
    | some entry => rw [show e' = some entry from hkept]
    | none => cases found <;> cases hcreated
  | update o =>
    obtain ⟨content, hplaced, hwritten⟩ := h
    obtain ⟨content', hplaced', hwritten'⟩ := h'
    rw [hplaced] at hplaced'
    cases hplaced'
    rw [hwritten, hwritten']
  | delete name => rw [show e = none from h, show e' = none from h']

end Translator

/-! ## The requests of the two kinds -/

/-- How the objects of a kind become pairs. There always is a pair. -/
def Translator.watched (kind : Kind) : Translator WatchedObject where
  keyFor := kind.keyFor
  translate o := .ok o.pair
  revision_eq := by
    rintro o p ⟨⟩
    rfl

/-- What a task asks for. -/
def Task.request : Task → Translator.Request WatchedObject
  | .create o => .create o
  | .update o => .update o
  | .delete _ name => .delete name

theorem Translator.handle_watched (task : Task) :
    (watched task.kind).handle task.request = task.dialogue := by
  cases task <;> rfl

/-- A request that is carried out alone, on any table that there can be, fails exactly if it has no
target, and then leaves the table. Otherwise one write at most changes its path and nothing else,
and the request can be made again, which changes no content. The handlers carry out such requests. -/
theorem Translator.one_write :
    (∀ task : Task, (watched task.kind).handle task.request = task.dialogue) ∧
    ∀ {R : Type} (T : Translator R) (request : Request R) (t : Table) (journal journal' : Journal),
      t.Reached →
      let first := (T.handle request).run Table.backend t journal
      let again := (T.handle request).run Table.backend first.2.1 journal'
      first.1 = (T.target request).map (fun _ => ()) ∧
      (∀ e, first.1 = .error e → first.2.1 = t) ∧
      (first.1 = .ok () → ∃ path, T.target request = .ok path ∧
        T.Leaves path t.entries[path]? first.2.1.entries[path]? request ∧
        (∀ other, other ≠ path → first.2.1.entries[other]? = t.entries[other]?) ∧
        (first.2.1 = t ∨ first.2.1.revision = t.revision + 1) ∧
        again.1 = .ok () ∧ ∀ other, again.2.1.content? other = first.2.1.content? other) := by
  refine ⟨handle_watched, fun {R} T request t journal journal' hreached => ?_⟩
  cases htarget : T.target request with
  | error fault =>
    obtain ⟨journal₁, hrun⟩ := (says_handle htarget).brings (t := t) journal
    simp only [hrun]
    exact ⟨rfl, fun _ _ => trivial, nofun⟩
  | ok path =>
    have ht := hreached.valid
    obtain ⟨u, hbrings, hwritten, hleaves⟩ := brings_handle ht htarget
    obtain ⟨v, hbrings', hwritten', hleaves'⟩ := brings_handle (hwritten.valid ht) htarget
    obtain ⟨journal₁, hrun⟩ := hbrings journal
    obtain ⟨journal₂, hrun'⟩ := hbrings' journal'
    simp only [hrun, hrun']
    refine ⟨rfl, nofun, fun _ => ⟨path, rfl, hleaves, fun other => hwritten.getElem?_of_ne,
      hwritten.revision, trivial, fun other => ?_⟩⟩
    by_cases hother : other = path
    · subst hother
      exact hleaves.content_eq hleaves'
    · rw [Table.content?, Table.content?, hwritten'.getElem?_of_ne hother]

namespace Translator

section Example

/-- A node that somebody has put into the datastore in a form of his own. -/
def occupied : Table :=
  (Table.initial.commit <|
    Pair.putIf (.absent "/nimbess/host/n1") "/nimbess/host/n1" "x".toUTF8 none).2

def node : WatchedObject := .node { metadata := { name := some "n1", uid := some "b" } }

/-- A translator whose values have the form of the ready flag. -/
def misfit : Translator Bool where
  keyFor name := .node name.name
  translate b := .ok { key := .node "n1", value := .flag b }
  revision_eq := by
    rintro b p ⟨⟩
    rfl

theorem one_write_of_occupied :
    occupied.Reached ∧
    (let first := ((watched .node).handle (.update node)).run Table.backend occupied {}
     let again := ((watched .node).handle (.update node)).run Table.backend first.2.1 {}
     first.1 = .ok () ∧ first.2.1.content? "/nimbess/host/n1" = some (node.bytes, none) ∧
       again.1 = .ok () ∧ ∀ other, again.2.1.content? other = first.2.1.content? other) ∧
    (let refused := (misfit.handle (.update true)).run Table.backend occupied {}
     refused.1 ≠ .ok () ∧ refused.2.1 = occupied) := by
  have hreached : occupied.Reached := .commit _ .initial
  have hplaced : (watched .node).placed node = .ok ("/nimbess/host/n1", node.bytes, none) := rfl
  refine ⟨hreached, ?_, ?_⟩
  · obtain ⟨hfirst, -, hok⟩ :=
      one_write.2 (watched .node) (.update node) occupied {} {} hreached
    simp only [target, hplaced] at hfirst
    obtain ⟨path, hpath, ⟨content, hcontent, hleft⟩, -, -, hagain⟩ := hok hfirst
    cases hplaced.symm.trans hcontent
    exact ⟨hfirst, hleft, hagain⟩
  · obtain ⟨hfirst, hleft, -⟩ := one_write.2 misfit (.update true) occupied {} {} hreached
    have hrefused : ∀ e, Except.error e ≠ (.ok () : Except DeliveryError Unit) := nofun
    exact ⟨hfirst ▸ hrefused _, hleft _ hfirst⟩

end Example

end Translator

end ClusterSync
