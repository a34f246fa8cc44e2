import ClusterSync.Proofs.Datastore.Clientele

/-!
# Datastores that differ in their revisions

Two datastores may hold the same under revisions of their own: what one calls 5 the other calls 17.
A `Renaming` says which revision of the first stands for which of the second. All that conditional
writes ask of a revision is whether it is the same as another, and whether it is 0, so a procedure
that is played on both datastores takes the same course on both.

**Theorem (`Alike.step`).** Let two datastores answer alike whatever is asked of both of them. Two
dialogues that are alike up to a renaming are alike after a step of each, up to a renaming that may
know more revisions than before.

**Theorem (`Request.alike_dialogue`).** What is done about two requests that are alike is alike.
-/

namespace ClusterSync

open Text

/-! ## Renamings -/

/-- Which revision of one datastore stands for which revision of another. The 0 of what does not
exist is the same everywhere. -/
structure Renaming where
  Stands : Revision → Revision → Prop
  zero : Stands 0 0
  unique : ∀ {r s r' s' : Revision}, Stands r s → Stands r' s' → (r = r' ↔ s = s')

namespace Renaming

variable {ρ ρ₁ ρ₂ : Renaming} {r s r' s' : Revision}

/-- The second knows all that the first knows. -/
instance : LE Renaming := ⟨fun ρ₁ ρ₂ => ∀ {r s : Revision}, ρ₁.Stands r s → ρ₂.Stands r s⟩

theorem le_refl (ρ : Renaming) : ρ ≤ ρ := id

theorem le_trans {ρ₃ : Renaming} (h₁ : ρ₁ ≤ ρ₂) (h₂ : ρ₂ ≤ ρ₃) : ρ₁ ≤ ρ₃ := fun h => h₂ (h₁ h)

theorem eq_zero_iff (h : ρ.Stands r s) : r = 0 ↔ s = 0 := ρ.unique h ρ.zero

/-- A comparison comes out as its renaming does. -/
theorem holds_eq {path : String} {relation : Comparison.Relation} (h : ρ.Stands r s)
    (h' : ρ.Stands r' s') :
    (Comparison.mk path relation r).holds r' = (Comparison.mk path relation s).holds s' := by
  have hiff := ρ.unique h' h
  cases relation <;> simp [Comparison.holds, hiff]

end Renaming

/-! ## What is alike -/

/-- Of two things that are alike, if they are there, both are there or neither is. -/
theorem none_or_some_of_rel {α β : Type} {R : α → β → Prop} {a? : Option α} {b? : Option β}
    (h : Option.Rel R a? b?) :
    a? = none ∧ b? = none ∨ ∃ a b, a? = some a ∧ b? = some b ∧ R a b := by
  cases h with
  | none => exact .inl ⟨rfl, rfl⟩
  | some h => exact .inr ⟨_, _, rfl, rfl, h⟩

section Alike

variable (ρ : Renaming)

/-- The same bytes, written at revisions that stand for each other. -/
structure Stored.Alike (x y : Stored) : Prop where
  value : y.value = x.value
  revision : ρ.Stands x.revision y.revision

/-- The same error, with the revisions that it speaks of renamed. -/
inductive StoreError.Alike : StoreError → StoreError → Prop
  | revisionMismatch {path : String} {r s : Revision} (h : ρ.Stands r s) :
      Alike (.revisionMismatch path r) (.revisionMismatch path s)
  | same {e : StoreError} (h : ∀ path r, e ≠ .revisionMismatch path r) : Alike e e

/-- Results of which both are errors or neither is. -/
inductive ResultsAlike {α β : Type} (goal : α → β → Prop) :
    Except StoreError α → Except StoreError β → Prop
  | ok {a : α} {b : β} (h : goal a b) : ResultsAlike goal (.ok a) (.ok b)
  | error {e e' : StoreError} (h : e.Alike ρ e') : ResultsAlike goal (.error e) (.error e')

/-- Transactions that went the same way; the revisions count only if something was written. -/
structure Outcome.Alike (o o' : Outcome) : Prop where
  succeeded : o'.succeeded = o.succeeded
  revision : o.succeeded = true → ρ.Stands o.revision o'.revision

/-- The transactions of conditional writes, about paths and with times to live that are allowed. -/
inductive Transaction.Alike (allowed : String → Option Duration → Prop) :
    Transaction → Transaction → Prop
  | puts {path : String} {relation : Comparison.Relation} {r s : Revision} {bytes : Bytes}
      {ttl : Option Duration} (ha : allowed path ttl) (h : ρ.Stands r s) :
      Alike allowed (Pair.putIf ⟨path, relation, r⟩ path bytes ttl)
        (Pair.putIf ⟨path, relation, s⟩ path bytes ttl)
  | deletes {path : String} (ha : allowed path none) :
      Alike allowed (Key.deleteIfPresent path) (Key.deleteIfPresent path)

structure Pair.Alike (p q : Pair) : Prop where
  key : q.key = p.key
  value : q.value = p.value
  revision : Option.Rel ρ.Stands p.revision q.revision
  ttl : q.ttl = p.ttl

inductive Answer.Alike : Answer → Answer → Prop
  | written {r s : Revision} (h : ρ.Stands r s) : Alike (.written r) (.written s)
  | removed : Alike .removed .removed
  | fetched {p? q? : Option Pair} (h : Option.Rel (Pair.Alike ρ) p? q?) :
      Alike (.fetched p?) (.fetched q?)

inductive Request.Alike : Request → Request → Prop
  | create {p q : Pair} (h : p.Alike ρ q) : Alike (.create p) (.create q)
  | update {p q : Pair} (h : p.Alike ρ q) : Alike (.update p) (.update q)
  | remove (key : Key) : Alike (.remove key) (.remove key)
  | fetch (key : Key) : Alike (.fetch key) (.fetch key)

end Alike

section Growth

variable {ρ ρ' : Renaming}

theorem StoreError.Alike.mono {e e' : StoreError} (h : e.Alike ρ e') (hle : ρ ≤ ρ') :
    e.Alike ρ' e' := by
  cases h with
  | revisionMismatch h => exact .revisionMismatch (hle h)
  | same h => exact .same h

theorem Transaction.Alike.mono {allowed : String → Option Duration → Prop} {x y : Transaction}
    (h : x.Alike ρ allowed y) (hle : ρ ≤ ρ') : x.Alike ρ' allowed y := by
  cases h with
  | puts ha h => exact .puts ha (hle h)
  | deletes ha => exact .deletes ha

theorem StoreError.Alike.label_eq {e e' : StoreError} (h : e.Alike ρ e') : e'.label = e.label := by
  cases h <;> rfl

theorem ResultsAlike.outcomeLabel_eq {α β : Type} {goal : α → β → Prop}
    {a : Except StoreError α} {b : Except StoreError β} (h : ResultsAlike ρ goal a b) :
    StoreError.outcomeLabel b = StoreError.outcomeLabel a := by
  cases h with
  | ok h => rfl
  | error h => exact h.label_eq

theorem ResultsAlike.map {α β α' β' : Type} {goal : α → β → Prop} {goal' : α' → β' → Prop}
    {f : α → α'} {g : β → β'} {a : Except StoreError α} {b : Except StoreError β}
    (h : ResultsAlike ρ goal a b) (hfg : ∀ {a b}, goal a b → goal' (f a) (g b)) :
    ResultsAlike ρ goal' (a.map f) (b.map g) := by
  cases h with
  | ok h => exact .ok (hfg h)
  | error h => exact .error h

end Growth

/-! ## Dialogues -/

namespace Dialogue

variable {α β σ τ : Type} {allowed : String → Option Duration → Prop}

/-- Two dialogues take the same course and end alike, if they are answered alike. Between two of
their calls the renaming may come to know more revisions. -/
inductive Alike (allowed : String → Option Duration → Prop) (goal : Renaming → α → α → Prop) :
    Renaming → Dialogue α → Dialogue α → Prop
  | done {ρ : Renaming} {a b : α} (h : goal ρ a b) : Alike allowed goal ρ (.done a) (.done b)
  | commit {ρ : Renaming} {x y : Transaction} {next next' : Except StoreError Outcome → Dialogue α}
      (h : x.Alike ρ allowed y)
      (hnext : ∀ (ρ' : Renaming) (o o' : Outcome), ρ ≤ ρ' → o.Alike ρ' o' →
        Alike allowed goal ρ' (next (.ok o)) (next' (.ok o'))) :
      Alike allowed goal ρ (.commit x next) (.commit y next')
  | read {ρ : Renaming} {path : String}
      {next next' : Except StoreError (Option Stored) → Dialogue α} (ha : allowed path none)
      (hnext : ∀ (ρ' : Renaming) (found found' : Option Stored), ρ ≤ ρ' →
        Option.Rel (Stored.Alike ρ') found found' →
        Alike allowed goal ρ' (next (.ok found)) (next' (.ok found'))) :
      Alike allowed goal ρ (.read path next) (.read path next')
  | log {ρ : Renaming} {event : LogEvent} {next next' : Dialogue α}
      (h : Alike allowed goal ρ next next') :
      Alike allowed goal ρ (.log event next) (.log event next')
  | count {ρ : Renaming} {sample : Sample} {next next' : Dialogue α}
      (h : Alike allowed goal ρ next next') :
      Alike allowed goal ρ (.count sample next) (.count sample next')

variable {goal : Renaming → α → α → Prop} {ρ ρ' : Renaming} {p q : Dialogue α}

theorem Alike.mono (h : p.Alike allowed goal ρ q) (hle : ρ ≤ ρ')
    (hgoal : ∀ {ρ₁ ρ₂ a b}, ρ₁ ≤ ρ₂ → goal ρ₁ a b → goal ρ₂ a b) : p.Alike allowed goal ρ' q := by
  induction h generalizing ρ' with
  | done h => exact .done (hgoal hle h)
  | commit h hnext =>
    exact .commit (h.mono hle) fun ρ'' o o' hle' => hnext ρ'' o o' (Renaming.le_trans hle hle')
  | read ha hnext =>
    exact .read ha fun ρ'' found found' hle' => hnext ρ'' found found' (Renaming.le_trans hle hle')
  | log _ ih => exact .log (ih hle)
  | count _ ih => exact .count (ih hle)

theorem Alike.bind {goal' : Renaming → β → β → Prop} {f g : α → Dialogue β}
    (h : p.Alike allowed goal ρ q)
    (hfg : ∀ {ρ' a b}, ρ ≤ ρ' → goal ρ' a b → (f a).Alike allowed goal' ρ' (g b)) :
    (p.bind f).Alike allowed goal' ρ (q.bind g) := by
  induction h with
  | done h => exact hfg (Renaming.le_refl _) h
  | commit h _ ih =>
    exact .commit h fun ρ' o o' hle ho =>
      ih ρ' o o' hle ho fun hle' hg => hfg (Renaming.le_trans hle hle') hg
  | read ha _ ih =>
    exact .read ha fun ρ' found found' hle hf =>
      ih ρ' found found' hle hf fun hle' hg => hfg (Renaming.le_trans hle hle') hg
  | log _ ih => exact .log (ih hfg)
  | count _ ih => exact .count (ih hfg)

/-- Two datastores that correspond answer alike what is asked of both, and correspond again. -/
structure Matching (backend : Backend σ) (backend' : Backend τ)
    (allowed : String → Option Duration → Prop) (Correspond : Renaming → σ → τ → Prop) :
    Prop where
  commit : ∀ {ρ store store' x y}, Correspond ρ store store' → x.Alike ρ allowed y →
    ∃ ρ' o o', ρ ≤ ρ' ∧ (backend.commit x store).1 = .ok o ∧ (backend'.commit y store').1 = .ok o' ∧
      o.Alike ρ' o' ∧ Correspond ρ' (backend.commit x store).2 (backend'.commit y store').2
  read : ∀ {ρ store store' path}, Correspond ρ store store' → allowed path none →
    ∃ found found', (backend.read path store).1 = .ok found ∧
      (backend'.read path store').1 = .ok found' ∧ Option.Rel (Stored.Alike ρ) found found' ∧
      Correspond ρ (backend.read path store).2 (backend'.read path store').2

theorem Alike.step {backend : Backend σ} {backend' : Backend τ}
    {Correspond : Renaming → σ → τ → Prop} {store : σ} {store' : τ}
    (hm : Matching backend backend' allowed Correspond) (h : p.Alike allowed goal ρ q)
    (hs : Correspond ρ store store') (journal journal' : Journal) :
    ∃ ρ', ρ ≤ ρ' ∧
      (p.step backend journal store).1.Alike allowed goal ρ'
        (q.step backend' journal' store').1 ∧
      (journal = journal' →
        (p.step backend journal store).2.1 = (q.step backend' journal' store').2.1) ∧
      Correspond ρ' (p.step backend journal store).2.2 (q.step backend' journal' store').2.2 := by
  cases h with
  | done h => exact ⟨ρ, Renaming.le_refl ρ, .done h, id, hs⟩
  | commit hx hnext =>
    obtain ⟨ρ', o, o', hle, ho, ho', halike, hs'⟩ := hm.commit hs hx
    refine ⟨ρ', hle, ?_, id, hs'⟩
    dsimp only [Dialogue.step]
    rw [ho, ho']
    exact hnext ρ' o o' hle halike
  | read ha hnext =>
    obtain ⟨found, found', hf, hf', halike, hs'⟩ := hm.read hs ha
    refine ⟨ρ, Renaming.le_refl ρ, ?_, id, hs'⟩
    dsimp only [Dialogue.step]
    rw [hf, hf']
    exact hnext ρ found found' (Renaming.le_refl ρ) halike
  | log h => exact ⟨ρ, Renaming.le_refl ρ, h, fun heq => heq ▸ rfl, hs⟩
  | count h => exact ⟨ρ, Renaming.le_refl ρ, h, fun heq => heq ▸ rfl, hs⟩

theorem alike_finish {goal : Renaming → α → α → Prop} (operation : String)
    {a b : Except StoreError α} (h : ResultsAlike ρ (goal ρ) a b) :
    (finish operation a).Alike allowed (fun ρ => ResultsAlike ρ (goal ρ)) ρ
      (finish operation b) := by
  unfold finish
  rw [h.outcomeLabel_eq]
  exact .count (.done h)

end Dialogue

/-! ## Conditional writes -/

section Writes

variable {ρ : Renaming} {allowed : String → Option Duration → Prop} {p q : Pair} {key : Key}
  {path : String} {bytes : Bytes} {ttl : Option Duration} {r s : Revision}

theorem Pair.unchangedSince_eq : Pair.unchangedSince path r = ⟨path, .equal, r⟩ := by
  unfold unchangedSince
  split
  · subst r
    rfl
  · rfl

/-- Pairs that are alike are encoded alike, or there is the same fault with both. -/
theorem Pair.Alike.encoded {α : Type} {goal : Renaming → α → α → Prop}
    {f g : Except StoreError (String × Bytes) → Dialogue α} (h : p.Alike ρ q)
    (herror : ∀ e : KeyError, (f (.error (.ofKeyError e))).Alike allowed goal ρ
      (g (.error (.ofKeyError e))))
    (hok : ∀ path bytes, p.key.path = .ok path →
      (f (.ok (path, bytes))).Alike allowed goal ρ (g (.ok (path, bytes)))) :
    (p.encoded.bind f).Alike allowed goal ρ (q.encoded.bind g) := by
  unfold Pair.encoded
  rw [h.key, h.value]
  cases hpath : p.key.path with
  | error e => exact .log (herror e)
  | ok path =>
    dsimp only
    cases p.value.encode p.key with
    | error e => exact .log (herror e)
    | ok bytes => exact hok path bytes hpath

theorem StoreError.Alike.ofKeyError (e : KeyError) :
    (StoreError.ofKeyError e).Alike ρ (.ofKeyError e) :=
  .same fun path r => by cases e <;> simp [StoreError.ofKeyError]

theorem Pair.alike_create (h : p.Alike ρ q)
    (ha : ∀ path, p.key.path = .ok path → allowed path p.ttl) :
    p.create.Alike allowed (fun ρ => ResultsAlike ρ ρ.Stands) ρ q.create := by
  refine h.encoded (fun e => .done (.error (.ofKeyError e))) fun path bytes hpath => ?_
  dsimp only
  rw [h.ttl]
  refine .commit (.puts (ha path hpath) ρ.zero) fun ρ' o o' hle ho => Dialogue.alike_finish _ ?_
  simp only [Except.bind, ho.succeeded]
  split
  · rename_i hs
    exact .ok (ho.revision hs)
  · exact .error (.same (by simp))

theorem Pair.alike_overwrite (h : ρ.Stands r s) (ha : allowed path ttl) :
    (Pair.overwrite path bytes ttl r).Alike allowed (fun ρ => ResultsAlike ρ ρ.Stands) ρ
      (Pair.overwrite path bytes ttl s) := by
  unfold Pair.overwrite
  rw [Pair.unchangedSince_eq, Pair.unchangedSince_eq]
  refine .commit (.puts ha h) fun ρ' o o' hle ho => Dialogue.alike_finish _ ?_
  simp only [Except.bind, ho.succeeded, ← Renaming.eq_zero_iff h]
  split
  · rename_i hs
    exact .ok (ho.revision hs)
  · split
    · exact .error (.same (by simp))
    · exact .error (.revisionMismatch (hle h))

theorem Pair.alike_update (h : p.Alike ρ q)
    (ha : ∀ path, p.key.path = .ok path → allowed path p.ttl ∧ allowed path none) :
    p.update.Alike allowed (fun ρ => ResultsAlike ρ ρ.Stands) ρ q.update := by
  refine h.encoded (fun e => .done (.error (.ofKeyError e))) fun path bytes hpath => ?_
  obtain ⟨httl, hnone⟩ := ha path hpath
  have hrevision := h.revision
  dsimp only
  rw [h.ttl]
  generalize p.revision = r? at hrevision
  generalize q.revision = s? at hrevision
  cases hrevision with
  | some hr => exact Pair.alike_overwrite hr httl
  | none =>
    refine .read hnone fun ρ' found found' hle hf => ?_
    cases hf with
    | none => exact Pair.alike_overwrite ρ'.zero httl
    | some hf => exact Pair.alike_overwrite hf.revision httl

theorem Key.alike_remove (ha : ∀ path, key.path = .ok path → allowed path none) :
    key.remove.Alike allowed (fun ρ => ResultsAlike ρ fun _ _ => True) ρ key.remove := by
  unfold Key.remove Key.deletePath
  cases hpath : key.path with
  | error e => exact .done (.error (.ofKeyError e))
  | ok path =>
    refine .commit (.deletes (ha path hpath)) fun ρ' o o' hle ho => Dialogue.alike_finish _ ?_
    simp only [Except.bind, ho.succeeded]
    split
    · exact .ok trivial
    · exact .error (.same (by simp))

theorem Key.alike_fetch (ha : ∀ path, key.path = .ok path → allowed path none) :
    key.fetch.Alike allowed (fun ρ => ResultsAlike ρ (Option.Rel (Pair.Alike ρ))) ρ key.fetch := by
  unfold Key.fetch
  cases hpath : key.path with
  | error e => exact .done (.error (.ofKeyError e))
  | ok path =>
    refine .read (ha path hpath) fun ρ' found found' hle hf => .done ?_
    cases hf with
    | none => exact .ok .none
    | @some x y hf =>
      simp only [Except.bind, hf.value]
      split
      · exact .error (.ofKeyError _)
      · exact .ok (.some ⟨rfl, rfl, .some hf.revision, rfl⟩)

end Writes

/-! ## Requests -/

namespace Request

variable {ρ : Renaming} {allowed : String → Option Duration → Prop} {request request' : Request}

/-- The time to live that a request asks for. -/
def ttl : Request → Option Duration
  | .create pair | .update pair => pair.ttl
  | .remove _ | .fetch _ => none

/-- A request is about a path and with a time to live that are allowed. -/
def Within (allowed : String → Option Duration → Prop) (request : Request) : Prop :=
  ∀ path, request.key.path = .ok path → allowed path request.ttl ∧ allowed path none

theorem alike_dialogue (h : request.Alike ρ request') (ha : request.Within allowed) :
    request.dialogue.Alike allowed (fun ρ => ResultsAlike ρ (Answer.Alike ρ)) ρ
      request'.dialogue := by
  cases h with
  | create h =>
    exact (Pair.alike_create h fun path hpath => (ha path hpath).1).bind
      fun hle hr => .done (hr.map .written)
  | update h => exact (Pair.alike_update h ha).bind fun hle hr => .done (hr.map .written)
  | remove key =>
    exact (Key.alike_remove fun path hpath => (ha path hpath).2).bind
      fun hle hr => .done (hr.map fun _ => .removed)
  | fetch key =>
    exact (Key.alike_fetch fun path hpath => (ha path hpath).2).bind
      fun hle hr => .done (hr.map .fetched)

end Request

end ClusterSync
