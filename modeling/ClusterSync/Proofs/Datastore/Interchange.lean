import ClusterSync.Datastore.Etcd
import ClusterSync.Proofs.Datastore.Renaming
import ClusterSync.Proofs.Datastore.Table
import Mathlib.Data.List.Forall2

/-!
# The table and the server are interchangeable

A server that does what the protocol promises, with nothing in it at first but with a revision to
start from, and a table that starts out empty. The same requests are made of both, in the same
order and with the same interleaving of what is done about them; a request that goes by a revision
goes, on the server, by the one that stands for it.

**Theorem (`Clientele.interchangeable`).** As long as nothing is written for a limited time, the same
happens on both: every exchange finds the same values, every call is answered with the same result
or error, and the revisions of the server are ahead of those of the table by what the server started
from, but for the 0 of what does not exist.

`Mirrors` relates a table and a server, and a transaction of a conditional write keeps it. The rest
is `Dialogue.Alike.step`: whoever sees only answers that are alike cannot tell which of the two is
behind them.
-/

namespace ClusterSync

open Text

/-- All revisions but 0 are ahead. -/
def Renaming.ahead (c : Nat) : Renaming where
  Stands r s := 0 ≤ r ∧ s = if r = 0 then 0 else r + c
  zero := ⟨Int.le_refl 0, rfl⟩
  unique := by
    rintro r s r' s' ⟨hr, rfl⟩ ⟨hr', rfl⟩
    unfold Revision at *
    split <;> split <;> omega

/-! ## The server -/

namespace Etcd

namespace Server

variable {s : Server} {path other : String} {bytes : Bytes}

/-- The server after a put. -/
def put (s : Server) (path : String) (bytes : Bytes) : Server :=
  { s with revision := s.revision + 1, entries := s.entries.insert path ⟨bytes, s.revision + 1⟩ }

/-- The server after the deletion of a path that exists. -/
def drop (s : Server) (path : String) : Server :=
  { s with revision := s.revision + 1, entries := s.entries.erase path }

theorem commit_put (s : Server) (c : Comparison) (path : String) (bytes : Bytes) (lease : Int) :
    s.commit c [.put path bytes lease] [] =
      if c.holds (s.revisionOf c.path) then
        (⟨true, some (s.revision + 1), [.put]⟩, s.put path bytes)
      else (⟨false, some s.revision, []⟩, s) := by
  unfold commit
  cases c.holds (s.revisionOf c.path) <;> rfl

theorem commit_delete (s : Server) (c : Comparison) (path : String)
    (h : c.holds (s.revisionOf c.path) = true ↔ path ∈ s.entries) :
    s.commit c [.delete path] [.get path] =
      if path ∈ s.entries then (⟨true, some (s.revision + 1), [.delete]⟩, s.drop path)
      else (⟨false, some s.revision, [.get s.entries[path]?.toList]⟩, s) := by
  unfold commit
  by_cases hm : path ∈ s.entries
  · simp [h.2 hm, hm, acts, act, drop]
  · have hfalse : c.holds (s.revisionOf c.path) = false :=
      Bool.eq_false_iff.2 fun hholds => hm (h.1 hholds)
    simp [hfalse, hm, acts, act]

end Server

/-- A service that answers as the server does that can be seen in it. -/
structure Service.Serves {σ : Type} (service : Service σ) (view : σ → Server) : Prop where
  range : ∀ (path : String) (s : σ),
    (service.range path s).1 = .ok (view s).entries[path]?.toList ∧
      view (service.range path s).2 = view s
  txn : ∀ (c : Comparison) (success failure : List Operation) (s : σ),
    (service.txn c success failure s).1 = .ok ((view s).commit c success failure).1 ∧
      view (service.txn c success failure s).2 = ((view s).commit c success failure).2

theorem Server.serves_service : Server.service.Serves id :=
  ⟨fun _ _ => ⟨rfl, rfl⟩, fun _ _ _ _ => ⟨rfl, rfl⟩⟩

variable {σ : Type} {service : Service σ} {view : σ → Server} {s : σ}

theorem Service.Serves.commit (hs : service.Serves view) {x : Transaction}
    {success failure : List Operation} (hsuccess : prepare service x.success s = (.ok success, s))
    (hfailure : prepare service x.failure s = (.ok failure, s)) {reply : TxnReply} {after : Server}
    (hcommit : (view s).commit x.comparison success failure = (reply, after)) :
    ((backend service).commit x s).1 =
        .ok ⟨reply.succeeded, reply.revision?.getD 0, readsOf reply.responses⟩ ∧
      view ((backend service).commit x s).2 = after := by
  obtain ⟨hreply, hafter⟩ := hs.txn x.comparison success failure s
  rw [hcommit] at hreply hafter
  change (Etcd.commit service x s).1 = _ ∧ view (Etcd.commit service x s).2 = _
  unfold Etcd.commit
  simp only [hsuccess, hfailure]
  generalize service.txn x.comparison success failure s = answer at hreply hafter
  obtain ⟨reply', s'⟩ := answer
  cases hreply
  exact ⟨rfl, hafter⟩

theorem Service.Serves.read (hs : service.Serves view) (path : String) :
    ((backend service).read path s).1 = .ok (view s).entries[path]? ∧
      view ((backend service).read path s).2 = view s := by
  obtain ⟨hfound, hafter⟩ := hs.range path s
  change (Etcd.read service path s).1 = _ ∧ view (Etcd.read service path s).2 = _
  unfold Etcd.read
  generalize service.range path s = answer at hfound hafter
  obtain ⟨found, s'⟩ := answer
  cases hfound
  refine ⟨?_, hafter⟩
  cases (view s).entries[path]? <;> rfl

/-! ## The table and the server -/

/-- A table and a server that hold the same, the server with its revisions ahead. -/
structure Mirrors (c : Nat) (t : Table) (s : Server) : Prop where
  valid : t.Valid
  revision : s.revision = t.revision + c
  entries : ∀ path : String,
    Option.Rel (Stored.Alike (.ahead c)) (t.get? path) s.entries[path]?

namespace Mirrors

variable {c : Nat} {t : Table} {s : Server} {path : String} {bytes : Bytes}

theorem initial (c : Nat) : Mirrors c .initial (.empty c) where
  valid := Table.valid_initial
  revision := (Int.zero_add _).symm
  entries path := by
    rw [Table.get?, show Table.initial.entries[path]? = none from Std.ExtTreeMap.getElem?_empty,
      show (Server.empty c).entries[path]? = none from Std.ExtTreeMap.getElem?_empty]
    exact .none

theorem revisionOf (h : Mirrors c t s) (path : String) :
    (Renaming.ahead c).Stands (t.revisionOf path) (s.revisionOf path) := by
  have hentry := h.entries path
  unfold Table.get? at hentry
  unfold Table.revisionOf Server.revisionOf
  cases ht : t.entries[path]? with
  | none =>
    rw [ht] at hentry
    cases hs : s.entries[path]? with
    | none => exact (Renaming.ahead c).zero
    | some stored => rw [hs] at hentry; cases hentry
  | some e =>
    rw [ht] at hentry
    cases hs : s.entries[path]? with
    | none => rw [hs] at hentry; cases hentry
    | some stored =>
      rw [hs] at hentry
      cases hentry with
      | some halike => exact halike.revision

theorem mem_iff (h : Mirrors c t s) : path ∈ s.entries ↔ path ∈ t.entries := by
  have hentry := h.entries path
  rw [Std.ExtTreeMap.mem_iff_isSome_getElem?, Std.ExtTreeMap.mem_iff_isSome_getElem?]
  unfold Table.get? at hentry
  generalize t.entries[path]? = found at hentry
  generalize s.entries[path]? = found' at hentry
  cases found <;> cases hentry <;> simp

theorem succ (h : Mirrors c t s) : s.revision + 1 = t.revision + 1 + c := by
  rw [h.revision, Int.add_right_comm]

/-- The next revisions stand for each other. -/
theorem next (h : Mirrors c t s) :
    (Renaming.ahead c).Stands (t.revision + 1) (s.revision + 1) := by
  have hpos : 0 < t.revision + 1 := Int.lt_add_one_of_le h.valid.nonneg
  exact ⟨Int.le_of_lt hpos, by rw [if_neg (Int.ne_of_gt hpos), h.succ]⟩

theorem put (h : Mirrors c t s) : Mirrors c (t.put path bytes none) (s.put path bytes) where
  valid := h.valid.put path bytes none
  revision := h.succ
  entries other := by
    have hentry := h.entries other
    simp only [Table.get?, Server.put, Table.put, Std.ExtTreeMap.getElem?_insert] at hentry ⊢
    split
    · exact .some ⟨rfl, h.next⟩
    · exact hentry

theorem drop (h : Mirrors c t s) (hm : path ∈ t.entries) :
    Mirrors c (t.drop path) (s.drop path) where
  valid := h.valid.drop hm
  revision := h.succ
  entries other := by
    have hentry := h.entries other
    simp only [Table.get?, Server.drop, Table.drop, Std.ExtTreeMap.getElem?_erase] at hentry ⊢
    split
    · exact .none
    · exact hentry

end Mirrors

/-- Nothing is written for a limited time. -/
def Lasting (_path : String) (ttl : Option Duration) : Prop := ttl = none

variable {c : Nat}

/-- The table and the server after a transaction that went the same way on both. -/
theorem Mirrors.exchange {t t' : Table} {after : Server} {x y : Transaction} {o o' : Outcome}
    (htable : t.commit x = (o, t'))
    (hserver : ((backend service).commit y s).1 = .ok o' ∧
      view ((backend service).commit y s).2 = after)
    (ho : o.Alike (.ahead c) o') (hm : Mirrors c t' after) :
    ∃ ρ' o o', Renaming.ahead c ≤ ρ' ∧ (Table.backend.commit x t).1 = .ok o ∧
      ((backend service).commit y s).1 = .ok o' ∧ o.Alike ρ' o' ∧ ρ' = .ahead c ∧
      Mirrors c (Table.backend.commit x t).2 (view ((backend service).commit y s).2) := by
  refine ⟨_, o, o', Renaming.le_refl _, ?_, hserver.1, ho, rfl, ?_⟩
  · show Except.ok (t.commit x).1 = .ok o
    rw [htable]
  · show Mirrors c (t.commit x).2 _
    rw [htable, hserver.2]
    exact hm

theorem matching (hs : service.Serves view) :
    Dialogue.Matching Table.backend (backend service) Lasting
      fun ρ t s => ρ = .ahead c ∧ Mirrors c t (view s) where
  commit := by
    rintro _ t s x y ⟨rfl, hm⟩ hx
    cases hx with
    | @puts path relation r r' bytes ttl ha hr =>
      cases ha
      have hsame : t.satisfies ⟨path, relation, r⟩ =
          Comparison.holds ⟨path, relation, r'⟩ ((view s).revisionOf path) :=
        Renaming.holds_eq hr (hm.revisionOf path)
      have hput := Server.commit_put (view s) ⟨path, relation, r'⟩ path bytes 0
      cases hholds : t.satisfies ⟨path, relation, r⟩ with
      | true =>
        exact Mirrors.exchange (Table.commit_putIf.trans (if_pos hholds))
          (hs.commit rfl rfl (hput.trans (if_pos (hsame ▸ hholds))))
          ⟨rfl, fun _ => hm.next⟩ hm.put
      | false =>
        have hnot : ¬ t.satisfies ⟨path, relation, r⟩ = true := by simp [hholds]
        exact Mirrors.exchange (Table.commit_putIf.trans (if_neg hnot))
          (hs.commit rfl rfl (hput.trans (if_neg (hsame ▸ hnot))))
          ⟨rfl, nofun⟩ hm
    | @deletes path ha =>
      have hpresent : Comparison.holds (.present path) ((view s).revisionOf path) = true ↔
          path ∈ (view s).entries := by
        rw [hm.mem_iff, ← Table.satisfies_present_iff_mem hm.valid]
        exact Bool.eq_iff_iff.1
          (Renaming.holds_eq (Renaming.ahead c).zero (hm.revisionOf path)).symm
      have hdelete := Server.commit_delete (view s) _ path hpresent
      by_cases hmem : path ∈ t.entries
      · exact Mirrors.exchange ((Table.commit_deleteIfPresent hm.valid).trans (if_pos hmem))
          (hs.commit rfl rfl (hdelete.trans (if_pos (hm.mem_iff.2 hmem))))
          ⟨rfl, fun _ => hm.next⟩ (hm.drop hmem)
      · exact Mirrors.exchange ((Table.commit_deleteIfPresent hm.valid).trans (if_neg hmem))
          (hs.commit rfl rfl (hdelete.trans (if_neg (mt hm.mem_iff.1 hmem))))
          ⟨rfl, nofun⟩ hm
  read := by
    rintro _ t s path ⟨rfl, hm⟩ -
    obtain ⟨hfound, hafter⟩ := hs.read (s := s) path
    refine ⟨_, _, rfl, hfound, hm.entries path, rfl, ?_⟩
    rw [hafter]
    exact hm

end Etcd

/-! ## Callers -/

section Callers

variable {σ : Type} (c : Nat) (view : σ → Etcd.Server)

/-- Calls about requests that are alike, and as far. -/
inductive CallsAlike : Call → Call → Prop
  | going {request request' : Request} {rest rest' : Dialogue (Except StoreError Answer)}
      (hr : request.Alike (.ahead c) request')
      (h : rest.Alike Etcd.Lasting (fun ρ => ResultsAlike ρ (Answer.Alike ρ)) (.ahead c) rest') :
      CallsAlike (.going request rest) (.going request' rest')
  | ended : CallsAlike .ended .ended

/-- The same is asked of a table and a server that hold the same. -/
inductive ExchangesAlike : Exchange Table → Exchange σ → Prop
  | read (path : String) {t : Table} {s : σ} (h : Etcd.Mirrors c t (view s)) :
      ExchangesAlike (.read path t) (.read path s)
  | commit {x y : Transaction} {t : Table} {s : σ} (hx : x.Alike (.ahead c) Etcd.Lasting y)
      (h : Etcd.Mirrors c t (view s)) : ExchangesAlike (.commit x t) (.commit y s)

/-- The same happens to a call. -/
inductive EventsAlike : Nat × CallEvent Table → Nat × CallEvent σ → Prop
  | asked (i : Nat) {request request' : Request} (h : request.Alike (.ahead c) request') :
      EventsAlike (i, .asked request) (i, .asked request')
  | met (i : Nat) {exchange : Exchange Table} {exchange' : Exchange σ}
      (h : ExchangesAlike c view exchange exchange') :
      EventsAlike (i, .met exchange) (i, .met exchange')
  | answered (i : Nat) {request request' : Request} {result result' : Except StoreError Answer}
      (hr : request.Alike (.ahead c) request')
      (h : ResultsAlike (.ahead c) (Answer.Alike (.ahead c)) result result') :
      EventsAlike (i, .answered request result) (i, .answered request' result')

/-- The same turn is taken. -/
inductive TurnsAlike : Clientele.Turn → Clientele.Turn → Prop
  | ask {request request' : Request} (h : request.Alike (.ahead c) request') :
      TurnsAlike (.ask request) (.ask request')
  | go (i : Nat) : TurnsAlike (.go i) (.go i)

/-- The callers of a table and those of a server are equally far. -/
structure Abreast (onTable : Clientele Table) (onServer : Clientele σ) : Prop where
  store : Etcd.Mirrors c onTable.store (view onServer.store)
  calls : List.Forall₂ (CallsAlike c) onTable.calls onServer.calls
  journal : onTable.journal = onServer.journal

end Callers

section Lists

variable {α β : Type} {R : α → β → Prop} {l : List α} {l' : List β} {a : α} {b : β}

theorem forall₂_getElem? (h : List.Forall₂ R l l') (i : Nat) : Option.Rel R l[i]? l'[i]? := by
  induction h generalizing i with
  | nil => exact .none
  | cons h _ ih =>
    cases i with
    | zero => exact .some h
    | succ i => exact ih i

theorem forall₂_set (h : List.Forall₂ R l l') (i : Nat) (hab : R a b) :
    List.Forall₂ R (l.set i a) (l'.set i b) := by
  induction h generalizing i with
  | nil => exact .nil
  | cons h hrest ih =>
    cases i with
    | zero => exact .cons hab hrest
    | succ i => exact .cons h (ih i)

end Lists

variable {σ : Type} {service : Etcd.Service σ} {view : σ → Etcd.Server} {c : Nat}
  {onTable : Clientele Table} {onServer : Clientele σ}

/-- Nothing is asked for a limited time. -/
def Clientele.Turn.IsLasting : Clientele.Turn → Prop
  | .ask request => request.ttl = none
  | .go _ => True

theorem Request.within_lasting {request : Request} (h : request.ttl = none) :
    request.Within Etcd.Lasting := fun _ _ => ⟨h, rfl⟩

/-- A turn can be taken on both or on neither, and the same happens at it. -/
theorem Abreast.turn? (hs : service.Serves view) (h : Abreast c view onTable onServer)
    {turn turn' : Clientele.Turn} (ht : TurnsAlike c turn turn') (hl : turn.IsLasting) :
    Option.Rel (Abreast c view) (onTable.turn? Table.backend turn)
        (onServer.turn? (Etcd.backend service) turn') ∧
      Option.Rel (EventsAlike c view) (onTable.event? turn) (onServer.event? turn') := by
  cases ht with
  | ask hr =>
    have hcall := CallsAlike.going hr (Request.alike_dialogue hr (Request.within_lasting hl))
    refine ⟨.some ⟨h.store, List.rel_append h.calls (.cons hcall .nil), h.journal⟩, ?_⟩
    rw [Clientele.event?, Clientele.event?, h.calls.length_eq]
    exact .some (.asked _ hr)
  | go i =>
    have hcall := forall₂_getElem? h.calls i
    unfold Clientele.turn? Clientele.event?
    dsimp only
    generalize onTable.calls[i]? = call? at hcall
    generalize onServer.calls[i]? = call?' at hcall
    cases hcall with
    | none => exact ⟨.none, .none⟩
    | some hcall =>
      cases hcall with
      | ended => exact ⟨.none, .none⟩
      | going hr hrest =>
        obtain ⟨_, -, hnext, hjournal, rfl, hstore⟩ :=
          hrest.step (Etcd.matching hs) ⟨rfl, h.store⟩ onTable.journal onServer.journal
        have hgoes := forall₂_set h.calls i (CallsAlike.going hr hnext)
        cases hrest with
        | done hresult =>
          exact ⟨.some ⟨h.store, forall₂_set h.calls i .ended, h.journal⟩,
            .some (.answered i hr hresult)⟩
        | commit hx =>
          exact ⟨.some ⟨hstore, hgoes, hjournal h.journal⟩, .some (.met i (.commit hx h.store))⟩
        | read =>
          exact ⟨.some ⟨hstore, hgoes, hjournal h.journal⟩, .some (.met i (.read _ h.store))⟩
        | log => exact ⟨.some ⟨hstore, hgoes, hjournal h.journal⟩, .none⟩
        | count => exact ⟨.some ⟨hstore, hgoes, hjournal h.journal⟩, .none⟩

theorem Abreast.play (hs : service.Serves view) (h : Abreast c view onTable onServer)
    {past : Chronicle Table} {past' : Chronicle σ}
    (hp : List.Forall₂ (EventsAlike c view) past past') {turns turns' : List Clientele.Turn}
    (ht : List.Forall₂ (TurnsAlike c) turns turns')
    (hl : ∀ turn ∈ turns, turn.IsLasting) :
    Abreast c view (onTable.play Table.backend past turns).2
        (onServer.play (Etcd.backend service) past' turns').2 ∧
      List.Forall₂ (EventsAlike c view) (onTable.play Table.backend past turns).1
        (onServer.play (Etcd.backend service) past' turns').1 := by
  induction ht generalizing onTable onServer past past' with
  | nil => exact ⟨h, hp⟩
  | cons hturn _ ih =>
    obtain ⟨hfirst, hrest⟩ := List.forall_mem_cons.1 hl
    obtain ⟨hnext, hevent⟩ := h.turn? hs hturn hfirst
    unfold Clientele.play
    generalize onTable.turn? Table.backend _ = next? at hnext
    generalize onServer.turn? (Etcd.backend service) _ = next?' at hnext
    generalize onTable.event? _ = event? at hevent
    generalize onServer.event? _ = event?' at hevent
    cases hnext with
    | none => exact ih h hp hrest
    | some hnext =>
      cases hevent with
      | none => exact ih hnext hp hrest
      | some hevent => exact ih hnext (.cons hevent hp) hrest

namespace Clientele

theorem interchangeable (hs : service.Serves view) {s : σ} (hempty : view s = .empty c)
    {turns turns' : List Turn} (ht : List.Forall₂ (TurnsAlike c) turns turns')
    (hl : ∀ turn ∈ turns, turn.IsLasting) :
    let onTable := (initial .initial).play Table.backend [] turns
    let onServer := (initial s).play (Etcd.backend service) [] turns'
    List.Forall₂ (EventsAlike c view) onTable.1 onServer.1 ∧
      Abreast c view onTable.2 onServer.2 := by
  have hstart : Abreast c view (initial .initial) (initial s) :=
    ⟨hempty ▸ Etcd.Mirrors.initial c, .nil, rfl⟩
  exact (hstart.play hs .nil ht hl).symm

section Example

/-- A node in words, with the revision that its update goes by. -/
def node (name : String) (revision : Option Revision) : Pair :=
  ⟨.node "n1", .structured (.object [("name", .str name)]), revision, none⟩

/-- Somebody writes a node. Two update it at once, one by the revision of what was written and one
by what it reads; then somebody looks. The first revision is that after `c`. -/
def rivals (c : Nat) : List Turn :=
  [.ask (.create (node "a" none)), .go 0, .go 0, .go 0,
    .ask (.update (node "b" (some (1 + c)))), .ask (.update (node "c" none)), .go 2,
    .go 1, .go 1, .go 1, .go 2, .go 2, .go 2, .ask (.fetch (.node "n1")), .go 3, .go 3]

/-- The revisions in what calls have been answered, 0 if there is none. -/
def toldRevisions {σ : Type} (past : Chronicle σ) : List (Nat × Revision) :=
  past.filterMap fun
    | (i, .answered _ (.ok answer)) => some (i, answer.revision?.getD 0)
    | (i, .answered _ (.error (.revisionMismatch _ expected))) => some (i, expected)
    | (i, .answered _ (.error _)) => some (i, 0)
    | _ => none

theorem turnsAlike_rivals (c : Nat) : List.Forall₂ (TurnsAlike c) (rivals 0) (rivals c) := by
  unfold rivals
  repeat' constructor

theorem interchangeable_of_rivals :
    let onTable := (initial .initial).play Table.backend [] (rivals 0)
    let onServer := (initial (.empty 7)).play (Etcd.backend Etcd.Server.service) [] (rivals 7)
    toldRevisions onTable.1 = [(3, 2), (2, 1), (1, 2), (0, 1)] ∧
      toldRevisions onServer.1 = [(3, 9), (2, 8), (1, 9), (0, 8)] ∧
      List.Forall₂ (EventsAlike 7 id) onTable.1 onServer.1 ∧ Abreast 7 id onTable.2 onServer.2 := by
  refine ⟨by decide +kernel, by decide +kernel, ?_⟩
  exact interchangeable Etcd.Server.serves_service rfl (turnsAlike_rivals 7)
    (by simp [rivals, Turn.IsLasting, Request.ttl, node])

end Example

end Clientele

end ClusterSync
