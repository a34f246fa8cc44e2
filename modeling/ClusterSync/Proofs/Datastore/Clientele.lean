import ClusterSync.Datastore.Pair

/-!
# Callers of one datastore

Any number of requests are under way at once, and the datastore serves one exchange of one of them
at a time. Whose turn it is is left open, and new requests may come at any moment.

A chronicle tells, the latest first, what has happened to which call: that it was made, what the
datastore was when it read or committed something, and what came of it.

**Theorem (`Reaches.answered`).** A call is answered with what its request comes to with the
exchanges of that call that the chronicle tells of, whatever others have done in between.

**Theorem (`Reaches.met`).** Each exchange is one that the call's request leads to after its earlier
ones, and finds the datastore as all exchanges before it have left it.
-/

namespace ClusterSync

variable {σ α β : Type}

/-! ## Requests -/

/-- What can be asked of a datastore about a key. -/
inductive Request
  | create (pair : Pair)
  | update (pair : Pair)
  | remove (key : Key)
  | fetch (key : Key)

/-- What comes of a request that succeeds. -/
inductive Answer
  | written (revision : Revision)
  | removed
  | fetched (pair? : Option Pair)

/-- The revision that an answer gives away. -/
def Answer.revision? : Answer → Option Revision
  | .written revision => some revision
  | .removed => none
  | .fetched pair? => pair?.bind (·.revision)

namespace Request

def key : Request → Key
  | .create pair | .update pair => pair.key
  | .remove key | .fetch key => key

/-- What is done about a request. -/
def dialogue : Request → Dialogue (Except StoreError Answer)
  | .create pair => pair.create.bind fun result => .done (result.map .written)
  | .update pair => pair.update.bind fun result => .done (result.map .written)
  | .remove key => key.remove.bind fun result => .done (result.map fun _ => .removed)
  | .fetch key => key.fetch.bind fun result => .done (result.map .fetched)

end Request

/-! ## Exchanges -/

/-- What a datastore is asked, and what the datastore is then. -/
inductive Exchange (σ : Type)
  | read (path : String) (store : σ)
  | commit (x : Transaction) (store : σ)

/-- The datastore that an exchange finds. -/
def Exchange.store : Exchange σ → σ
  | .read _ store | .commit _ store => store

namespace Dialogue

variable {backend : Backend σ} {exchanges : List (Exchange σ)}

/-- A dialogue comes to a result with exchanges, which are in their order. -/
def ComesTo (backend : Backend σ) : Dialogue α → List (Exchange σ) → α → Prop
  | .done a, exchanges, result => exchanges = [] ∧ a = result
  | .commit x next, exchanges, result => ∃ store rest, exchanges = .commit x store :: rest ∧
      (next (backend.commit x store).1).ComesTo backend rest result
  | .read path next, exchanges, result => ∃ store rest, exchanges = .read path store :: rest ∧
      (next (backend.read path store).1).ComesTo backend rest result
  | .log _ next, exchanges, result | .count _ next, exchanges, result =>
      next.ComesTo backend exchanges result

/-- Every dialogue comes to some result. -/
theorem exists_comesTo (backend : Backend σ) (store : σ) (p : Dialogue α) :
    ∃ exchanges result, p.ComesTo backend exchanges result := by
  induction p with
  | done a => exact ⟨[], a, rfl, rfl⟩
  | commit x next ih =>
    obtain ⟨rest, result, h⟩ := ih (backend.commit x store).1
    exact ⟨.commit x store :: rest, result, store, rest, rfl, h⟩
  | read path next ih =>
    obtain ⟨rest, result, h⟩ := ih (backend.read path store).1
    exact ⟨.read path store :: rest, result, store, rest, rfl, h⟩
  | log event next ih => exact ih
  | count sample next ih => exact ih

/-- One dialogue after another divides the exchanges between them. -/
theorem ComesTo.of_bind {p : Dialogue α} {f : α → Dialogue β} {result : β}
    (h : (p.bind f).ComesTo backend exchanges result) :
    ∃ first second a, exchanges = first ++ second ∧ p.ComesTo backend first a ∧
      (f a).ComesTo backend second result := by
  induction p generalizing exchanges with
  | done a => exact ⟨[], exchanges, a, rfl, ⟨rfl, rfl⟩, h⟩
  | commit x next ih =>
    obtain ⟨store, rest, rfl, h⟩ := h
    obtain ⟨first, second, a, rfl, hfirst, hsecond⟩ := ih _ h
    exact ⟨_, second, a, rfl, ⟨store, first, rfl, hfirst⟩, hsecond⟩
  | read path next ih =>
    obtain ⟨store, rest, rfl, h⟩ := h
    obtain ⟨first, second, a, rfl, hfirst, hsecond⟩ := ih _ h
    exact ⟨_, second, a, rfl, ⟨store, first, rfl, hfirst⟩, hsecond⟩
  | log event next ih => exact ih h
  | count sample next ih => exact ih h

/-- A dialogue whose result is only made something else of. -/
theorem ComesTo.of_map {p : Dialogue α} {f : α → β} {result : β}
    (h : (p.bind fun a => .done (f a)).ComesTo backend exchanges result) :
    ∃ a, p.ComesTo backend exchanges a ∧ f a = result := by
  obtain ⟨first, second, a, rfl, hfirst, rfl, rfl⟩ := h.of_bind
  exact ⟨a, by rwa [List.append_nil], rfl⟩

/-- The exchange that the next step of a dialogue is, if it is one. -/
def exchange? (store : σ) : Dialogue α → Option (Exchange σ)
  | .commit x _ => some (.commit x store)
  | .read path _ => some (.read path store)
  | .done _ | .log .. | .count .. => none

/-- What a dialogue comes to after a step, it comes to with the exchange of the step first. -/
theorem ComesTo.of_step {p : Dialogue α} {journal : Journal} {store : σ} {result : α}
    (h : (p.step backend journal store).1.ComesTo backend exchanges result) :
    p.ComesTo backend ((p.exchange? store).toList ++ exchanges) result := by
  cases p with
  | done a => exact h
  | commit x next => exact ⟨store, exchanges, rfl, h⟩
  | read path next => exact ⟨store, exchanges, rfl, h⟩
  | log event next => exact h
  | count sample next => exact h

end Dialogue

/-! ## Calls -/

/-- A call under way with what is left to be done about it, or one that has been answered. -/
inductive Call
  | going (request : Request) (rest : Dialogue (Except StoreError Answer))
  | ended

/-- What happens to a call. -/
inductive CallEvent (σ : Type)
  | asked (request : Request)
  | met (exchange : Exchange σ)
  | answered (request : Request) (result : Except StoreError Answer)

/-- What has happened to which call, the latest first. -/
abbrev Chronicle (σ : Type) := List (Nat × CallEvent σ)

/-- The exchanges of a call, in their order. -/
def Chronicle.exchangesOf (i : Nat) : Chronicle σ → List (Exchange σ)
  | [] => []
  | (j, .met exchange) :: past =>
    if j = i then exchangesOf i past ++ [exchange] else exchangesOf i past
  | (_, .asked _) :: past | (_, .answered ..) :: past => exchangesOf i past

theorem Chronicle.mem_exchangesOf {past : Chronicle σ} {i : Nat} {exchange : Exchange σ} :
    exchange ∈ past.exchangesOf i ↔ (i, .met exchange) ∈ past := by
  induction past with
  | nil => simp [exchangesOf]
  | cons event past ih =>
    obtain ⟨j, event⟩ := event
    cases event with
    | asked | answered => simp [exchangesOf, ih]
    | met other =>
      by_cases hj : j = i
      · subst hj
        simp [exchangesOf, ih, or_comm]
      · simp [exchangesOf, ih, hj, Ne.symm hj]

/-- What comes of exchanges with a datastore that starts out in some state. -/
def Chronicle.Leads (backend : Backend σ) (start : σ) : Chronicle σ → σ → Prop
  | [], store => store = start
  | (_, .met (.commit x before)) :: past, store =>
    store = (backend.commit x before).2 ∧ Leads backend start past before
  | (_, .met (.read path before)) :: past, store =>
    store = (backend.read path before).2 ∧ Leads backend start past before
  | (_, .asked _) :: past, store | (_, .answered ..) :: past, store =>
    Leads backend start past store

/-- A datastore with its callers. Calls are known by their place. -/
structure Clientele (σ : Type) where
  store : σ
  calls : List Call
  journal : Journal

namespace Clientele

variable {backend : Backend σ} {start c c' : Clientele σ} {past : Chronicle σ} {i : Nat}
  {request : Request} {rest : Dialogue (Except StoreError Answer)}

/-- Nobody has called yet. -/
def initial (store : σ) : Clientele σ := ⟨store, [], {}⟩

inductive Turn
  | ask (request : Request)
  | go (call : Nat)

/-- Takes a turn; none if the call is over or was never made. -/
def turn? (backend : Backend σ) (c : Clientele σ) : Turn → Option (Clientele σ)
  | .ask request => some { c with calls := c.calls ++ [.going request request.dialogue] }
  | .go i =>
    match c.calls[i]? with
    | none | some .ended => none
    | some (.going _ (.done _)) => some { c with calls := c.calls.set i .ended }
    | some (.going request rest) =>
      let (rest, journal, store) := rest.step backend c.journal c.store
      some ⟨store, c.calls.set i (.going request rest), journal⟩

/-- What happens at a turn. -/
def event? (c : Clientele σ) : Turn → Option (Nat × CallEvent σ)
  | .ask request => some (c.calls.length, .asked request)
  | .go i =>
    match c.calls[i]? with
    | some (.going request (.done result)) => some (i, .answered request result)
    | some (.going _ (.commit x _)) => some (i, .met (.commit x c.store))
    | some (.going _ (.read path _)) => some (i, .met (.read path c.store))
    | none | some .ended | some (.going _ (.log ..)) | some (.going _ (.count ..)) => none

/-- The turns and what happens at them, one constructor for each kind. -/
inductive Turns (backend : Backend σ) (c : Clientele σ) :
    Option (Nat × CallEvent σ) → Clientele σ → Prop
  | asks (request : Request) :
      Turns backend c (some (c.calls.length, .asked request))
        { c with calls := c.calls ++ [.going request request.dialogue] }
  | commits {i : Nat} {request : Request} {x : Transaction}
      {next : Except StoreError Outcome → Dialogue (Except StoreError Answer)}
      (hi : c.calls[i]? = some (.going request (.commit x next))) :
      Turns backend c (some (i, .met (.commit x c.store)))
        ⟨(backend.commit x c.store).2,
          c.calls.set i (.going request (next (backend.commit x c.store).1)), c.journal⟩
  | reads {i : Nat} {request : Request} {path : String}
      {next : Except StoreError (Option Stored) → Dialogue (Except StoreError Answer)}
      (hi : c.calls[i]? = some (.going request (.read path next))) :
      Turns backend c (some (i, .met (.read path c.store)))
        ⟨(backend.read path c.store).2,
          c.calls.set i (.going request (next (backend.read path c.store).1)), c.journal⟩
  | notes {i : Nat} {request : Request} {rest next : Dialogue (Except StoreError Answer)}
      (journal : Journal) (hi : c.calls[i]? = some (.going request rest))
      (hn : ∀ exchanges result, next.ComesTo backend exchanges result →
        rest.ComesTo backend exchanges result) :
      Turns backend c none ⟨c.store, c.calls.set i (.going request next), journal⟩
  | answers {i : Nat} {request : Request} {result : Except StoreError Answer}
      (hi : c.calls[i]? = some (.going request (.done result))) :
      Turns backend c (some (i, .answered request result)) { c with calls := c.calls.set i .ended }

theorem turns_of_turn? {turn : Turn} (h : c.turn? backend turn = some c') :
    c.Turns backend (c.event? turn) c' := by
  cases turn with
  | ask request =>
    cases h
    exact .asks request
  | go i =>
    unfold turn? at h
    unfold event?
    dsimp only at h ⊢
    cases hi : c.calls[i]? with
    | none =>
      rw [hi] at h
      cases h
    | some call =>
      rw [hi] at h
      cases call with
      | ended => cases h
      | going request rest =>
        cases rest with
        | done result => cases h; exact .answers hi
        | commit x next => cases h; exact .commits hi
        | read path next => cases h; exact .reads hi
        | log event next => cases h; exact .notes _ hi fun _ _ => id
        | count sample next => cases h; exact .notes _ hi fun _ _ => id

/-! ## Runs -/

/-- The chronicles and states that turns lead to. -/
inductive Reaches (backend : Backend σ) (start : Clientele σ) :
    Chronicle σ → Clientele σ → Prop
  | start : Reaches backend start [] start
  | turn {past : Chronicle σ} {c c' : Clientele σ} {turn : Turn}
      (h : Reaches backend start past c) (ht : c.turn? backend turn = some c') :
      Reaches backend start ((c.event? turn).toList ++ past) c'

/-- Takes turns one after the other and goes on with a chronicle; those that cannot be taken are
passed over. -/
def play (backend : Backend σ) (past : Chronicle σ) (c : Clientele σ) :
    List Turn → Chronicle σ × Clientele σ
  | [] => (past, c)
  | turn :: turns =>
    match c.turn? backend turn with
    | none => play backend past c turns
    | some c' => play backend ((c.event? turn).toList ++ past) c' turns

theorem Reaches.play (h : Reaches backend start past c) (turns : List Turn) :
    Reaches backend start (c.play backend past turns).1 (c.play backend past turns).2 := by
  induction turns generalizing past c with
  | nil => exact h
  | cons turn turns ih =>
    unfold Clientele.play
    cases ht : c.turn? backend turn with
    | none => exact ih h
    | some c' => exact ih (h.turn ht)

/-- Whatever a chronicle tells of happened at some turn, after what it tells of before. -/
theorem Reaches.split {later earlier : Chronicle σ} {event : Nat × CallEvent σ}
    (h : Reaches backend start (later ++ event :: earlier) c) :
    ∃ c₁ c₂, Reaches backend start earlier c₁ ∧ c₁.Turns backend (some event) c₂ := by
  generalize hpast : later ++ event :: earlier = past at h
  induction h generalizing later with
  | start => simp at hpast
  | @turn past c c' turn h ht ih =>
    have hturns := turns_of_turn? ht
    cases hevent : c.event? turn with
    | none =>
      rw [hevent] at hpast
      exact ih hpast
    | some last =>
      rw [hevent] at hpast hturns
      cases later with
      | nil =>
        cases hpast
        exact ⟨c, c', h, hturns⟩
      | cons o later => exact ih (List.cons.inj hpast).2

/-! ## What is left of a call -/

/-- What the calls of a clientele have to do with what has happened. -/
structure Recounts (past : Chronicle σ) (c : Clientele σ) (backend : Backend σ) (start : σ) :
    Prop where
  made : ∀ event ∈ past, event.1 < c.calls.length
  going : ∀ {i : Nat} {request : Request} {rest : Dialogue (Except StoreError Answer)},
    c.calls[i]? = some (.going request rest) → (i, .asked request) ∈ past ∧
      ∀ exchanges result, rest.ComesTo backend exchanges result →
        request.dialogue.ComesTo backend (past.exchangesOf i ++ exchanges) result
  leads : past.Leads backend start c.store

theorem recounts_initial (backend : Backend σ) (store : σ) :
    (initial store).Recounts [] backend store where
  made _ hmem := absurd hmem List.not_mem_nil
  going hi := by simp [initial] at hi
  leads := rfl

/-- Calls that have not been made have had no exchanges. -/
theorem exchangesOf_eq_nil (h : ∀ event ∈ past, event.1 < i) : past.exchangesOf i = [] := by
  induction past with
  | nil => rfl
  | cons event past ih =>
    have ih := ih fun event hmem => h event (List.mem_cons_of_mem _ hmem)
    have hne : event.1 ≠ i := Nat.ne_of_lt (h event List.mem_cons_self)
    obtain ⟨j, event⟩ := event
    cases event with
    | asked | answered => exact ih
    | met exchange => exact (if_neg hne).trans ih

/-- A call goes on: something has happened to it, and what is left continues what was left. -/
theorem Recounts.proceed {start : σ} (h : c.Recounts past backend start)
    (hi : c.calls[i]? = some (.going request rest)) (event? : Option (CallEvent σ))
    {call : Call} {store : σ} {journal : Journal}
    (hleads : Chronicle.Leads backend start ((event?.map (i, ·)).toList ++ past) store)
    (hothers : ∀ j, i ≠ j →
      Chronicle.exchangesOf j ((event?.map (i, ·)).toList ++ past) = past.exchangesOf j)
    (hcall : ∀ request' rest', call = .going request' rest' → request' = request ∧
      ∀ exchanges result, rest'.ComesTo backend exchanges result →
        request.dialogue.ComesTo backend
          (Chronicle.exchangesOf i ((event?.map (i, ·)).toList ++ past) ++ exchanges) result) :
    Recounts ((event?.map (i, ·)).toList ++ past) ⟨store, c.calls.set i call, journal⟩ backend
      start where
  made event hmem := by
    rw [List.length_set]
    rcases List.mem_append.1 hmem with hmem | hmem
    · obtain ⟨o, -, rfl⟩ := Option.map_eq_some_iff.1 (Option.mem_toList.1 hmem)
      exact (List.getElem?_eq_some_iff.1 hi).1
    · exact h.made event hmem
  going {j request' rest'} hj := by
    rw [List.getElem?_set] at hj
    by_cases hij : i = j
    · subst hij
      rw [if_pos rfl, if_pos (List.getElem?_eq_some_iff.1 hi).1] at hj
      obtain ⟨rfl, hrest⟩ := hcall request' rest' (Option.some.inj hj)
      exact ⟨List.mem_append_right _ (h.going hi).1, hrest⟩
    · rw [if_neg hij] at hj
      obtain ⟨hasked, hrest⟩ := h.going hj
      rw [hothers j hij]
      exact ⟨List.mem_append_right _ hasked, hrest⟩
  leads := hleads

theorem Recounts.turns {start : σ} {event? : Option (Nat × CallEvent σ)}
    (h : c.Recounts past backend start) (ht : c.Turns backend event? c') :
    c'.Recounts (event?.toList ++ past) backend start := by
  cases ht with
  | asks request =>
    refine ⟨fun event hmem => ?_, fun {j request' rest'} hj => ?_, h.leads⟩
    · rw [List.length_append]
      rcases List.mem_cons.1 hmem with rfl | hmem
      · exact Nat.lt_succ_self _
      · exact Nat.lt_succ_of_lt (h.made event hmem)
    · by_cases hlt : j < c.calls.length
      · obtain ⟨hasked, hrest⟩ := h.going ((List.getElem?_append_left hlt).symm.trans hj)
        exact ⟨List.mem_cons_of_mem _ hasked, hrest⟩
      · obtain ⟨hj, hcall⟩ := List.getElem?_eq_some_iff.1 hj
        have hj : j = c.calls.length := by
          simp only [List.length_append, List.length_singleton] at hj
          omega
        subst hj
        rw [List.getElem_concat_length rfl] at hcall
        cases hcall
        refine ⟨List.mem_cons_self, fun exchanges result hr => ?_⟩
        have hnone : past.exchangesOf c.calls.length = [] := exchangesOf_eq_nil h.made
        change request.dialogue.ComesTo backend
          (past.exchangesOf c.calls.length ++ exchanges) result
        rwa [hnone]
  | @commits i request x next hi =>
    refine h.proceed hi (some (.met (.commit x c.store))) ⟨rfl, h.leads⟩
      (fun j hij => if_neg hij) fun request' rest' heq => ?_
    cases heq
    refine ⟨rfl, fun exchanges result hr => ?_⟩
    have hown : Chronicle.exchangesOf i ((i, .met (.commit x c.store)) :: past) =
        past.exchangesOf i ++ [.commit x c.store] := if_pos rfl
    have := (h.going hi).2 (.commit x c.store :: exchanges) result ⟨_, _, rfl, hr⟩
    simpa [hown] using this
  | @reads i request path next hi =>
    refine h.proceed hi (some (.met (.read path c.store))) ⟨rfl, h.leads⟩
      (fun j hij => if_neg hij) fun request' rest' heq => ?_
    cases heq
    refine ⟨rfl, fun exchanges result hr => ?_⟩
    have hown : Chronicle.exchangesOf i ((i, .met (.read path c.store)) :: past) =
        past.exchangesOf i ++ [.read path c.store] := if_pos rfl
    have := (h.going hi).2 (.read path c.store :: exchanges) result ⟨_, _, rfl, hr⟩
    simpa [hown] using this
  | @notes i request rest next journal hi hn =>
    refine h.proceed hi none h.leads (fun _ _ => rfl) fun request' rest' heq => ?_
    cases heq
    exact ⟨rfl, fun exchanges result hr => (h.going hi).2 exchanges result (hn _ _ hr)⟩
  | @answers i request result hi =>
    exact h.proceed hi (some (.answered request result)) h.leads (fun _ _ => rfl) nofun

theorem Reaches.recounts {store : σ} (h : Reaches backend (initial store) past c) :
    c.Recounts past backend store := by
  induction h with
  | start => exact recounts_initial backend store
  | turn _ ht ih => exact ih.turns (turns_of_turn? ht)

theorem Reaches.answered {store : σ} {later earlier : Chronicle σ}
    {result : Except StoreError Answer}
    (h : Reaches backend (initial store) (later ++ (i, .answered request result) :: earlier) c) :
    (i, .asked request) ∈ earlier ∧
      request.dialogue.ComesTo backend (earlier.exchangesOf i) result := by
  obtain ⟨c₁, c₂, hreach, hturn⟩ := h.split
  cases hturn with
  | answers hi =>
    obtain ⟨hasked, hrest⟩ := hreach.recounts.going hi
    have hcomes := hrest [] result ⟨rfl, rfl⟩
    rw [List.append_nil] at hcomes
    exact ⟨hasked, hcomes⟩

theorem Reaches.met {store : σ} {later earlier : Chronicle σ} {exchange : Exchange σ}
    (h : Reaches backend (initial store) (later ++ (i, .met exchange) :: earlier) c) :
    earlier.Leads backend store exchange.store ∧
      ∃ request, (i, .asked request) ∈ earlier ∧ ∃ rest result,
        request.dialogue.ComesTo backend (earlier.exchangesOf i ++ exchange :: rest) result := by
  obtain ⟨c₁, c₂, hreach, hturn⟩ := h.split
  cases hturn with
  | @commits _ request x next hi =>
    obtain ⟨hasked, hrest⟩ := hreach.recounts.going hi
    obtain ⟨rest, result, hr⟩ := (next (backend.commit x c₁.store).1).exists_comesTo backend store
    exact ⟨hreach.recounts.leads, request, hasked, rest, result, hrest _ _ ⟨_, _, rfl, hr⟩⟩
  | @reads _ request path next hi =>
    obtain ⟨hasked, hrest⟩ := hreach.recounts.going hi
    obtain ⟨rest, result, hr⟩ := (next (backend.read path c₁.store).1).exists_comesTo backend store
    exact ⟨hreach.recounts.leads, request, hasked, rest, result, hrest _ _ ⟨_, _, rfl, hr⟩⟩

end Clientele

end ClusterSync
