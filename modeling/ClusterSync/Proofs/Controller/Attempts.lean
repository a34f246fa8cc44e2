import ClusterSync.Proofs.Controller.Standing

/-!
# Accounts of deliveries

What the record of a shift tells of one name: how many deliveries have begun and how they have
ended, how many were judged worth another, and how often others have added the name. As long as the
backlog is open these accounts balance with how the name stands.

**Theorem (`Lives.balanced`).** The count of failures is the number of deliveries that were judged
worth another since the name was last forgotten, less the one that is about to be counted. It never
reaches the number of deliveries that are allowed. What others have added is still under way or has
been settled, and nothing that goes back is lost.

**Theorem (`Lives.course`).** What is added once has only failed for reasons that may pass, or it
has come to an end: it has succeeded, it has failed for good, or it has used up its deliveries.
-/

namespace ClusterSync

variable {σ : Type}

/-! ## What a record tells of a name -/

/-- How a delivery has ended. -/
inductive Ending
  | success
  | failure (e : DeliveryError) (verdict : Verdict)

namespace Ending

/-- Whether a delivery was judged worth another. -/
def isRequeued : Ending → Bool
  | .success => false
  | .failure _ verdict => verdict = .requeue

/-- Whether a delivery has failed for a reason that may pass. -/
def isMendable : Ending → Bool
  | .success => false
  | .failure e _ => e.retryable

/-- How many deliveries have ended in success or with the item given up. -/
def settled : List Ending → Nat
  | [] => 0
  | ending :: endings => if ending.isRequeued then settled endings else settled endings + 1

/-- How many deliveries were judged worth another since one was not, the latest first. -/
def unsettled : List Ending → Nat
  | [] => 0
  | ending :: endings => if ending.isRequeued then unsettled endings + 1 else 0

end Ending

/-- Accounts of a name. -/
structure Tally where
  /-- How often others have added the name. -/
  offers : Nat
  /-- How many deliveries have begun. -/
  begun : Nat
  /-- How many deliveries were judged worth another since the name was last forgotten. -/
  requeued : Nat
  /-- How deliveries have ended, the latest first. -/
  endings : List Ending

namespace Tally

def empty : Tally := ⟨0, 0, 0, []⟩

/-- The accounts after an incident that concerns the name. -/
def note (t : Tally) : Incident → Tally
  | .added _ again => if again then t else { t with offers := t.offers + 1 }
  | .handedOut _ => { t with begun := t.begun + 1 }
  | .succeeded _ => { t with requeued := 0, endings := .success :: t.endings }
  | .failed _ e verdict =>
    { t with
      requeued := if verdict = .requeue then t.requeued + 1 else t.requeued
      endings := .failure e verdict :: t.endings }
  | .forgot _ => { t with requeued := 0 }
  | .closed | .putOff _ | .released _ => t

end Tally

instance (n : ObjectName) : (i : Incident) → Decidable (i.Concerns n)
  | .closed => isTrue trivial
  | .added .. | .handedOut _ | .succeeded _ | .failed .. | .putOff _ | .forgot _ | .released _ =>
    inferInstanceAs (Decidable (_ = n))

/-- The accounts of a name. -/
def Record.tally (n : ObjectName) : Record → Tally
  | [] => .empty
  | i :: past => if i.Concerns n then (tally n past).note i else tally n past

theorem Record.tally_of_not_concerns {n : ObjectName} {past : Record} {o : Option Incident}
    (ho : ∀ i ∈ o, ¬ i.Concerns n) : tally n (o.toList ++ past) = tally n past := by
  cases o with
  | none => rfl
  | some i => exact if_neg (ho i rfl)

theorem Record.tally_cons {n : ObjectName} {past : Record} {i : Incident} (h : i.Concerns n) :
    tally n (i :: past) = (tally n past).note i :=
  if_pos h

theorem Record.offers_le {n : ObjectName} {past : Record} (o : Option Incident) :
    (past.tally n).offers ≤ (tally n (o.toList ++ past)).offers := by
  cases o with
  | none => exact Nat.le_refl _
  | some i =>
    by_cases hi : i.Concerns n
    · rw [Option.toList_some, List.singleton_append, tally_cons hi]
      cases i with
      | added item again => cases again <;> simp [Tally.note]
      | handedOut | succeeded | failed | forgot | closed | putOff | released => exact Nat.le_refl _
    · exact Nat.le_of_eq (congrArg Tally.offers (if_neg hi).symm)

/-! ## Verdicts -/

namespace RetryPolicy

variable {e : DeliveryError} {attempts most : Nat}

theorem decide_eq_requeue_iff :
    decide e attempts most = .requeue ↔ e.retryable = true ∧ attempts < most := by
  unfold decide
  split
  · simp_all
  · split <;> simp_all

theorem decide_eq_dropHopeless_iff :
    decide e attempts most = .dropHopeless ↔ e.retryable = false := by
  unfold decide
  split
  · simp_all
  · split <;> simp_all

theorem decide_eq_dropExhausted_iff :
    decide e attempts most = .dropExhausted ↔ e.retryable = true ∧ most ≤ attempts := by
  unfold decide
  split
  · simp_all
  · split <;> simp_all

/-- The count is bounded, but not before the deliveries are used up. -/
theorem lt_of_decide_eq_requeue (hm : most ≤ Backoff.maxCount)
    (h : decide e (min attempts Backoff.maxCount) most = .requeue) : attempts < most := by
  have hmin := (decide_eq_requeue_iff.1 h).2
  rcases Nat.le_total attempts Backoff.maxCount with hcount | hcount
  · rwa [Nat.min_eq_left hcount] at hmin
  · rw [Nat.min_eq_right hcount] at hmin
    exact absurd hm (Nat.not_le.2 hmin)

end RetryPolicy

/-! ## Balances -/

namespace Standing

/-- How many workers are at the delivery. -/
def working (st : Standing) : Nat :=
  match st.hold with
  | some (_, .working) => 1
  | some (_, .counting) | some (_, .returning _) | some (_, .forgetting) | some (_, .releasing)
  | none => 0

/-- How many failures are judged and not counted. -/
def counting (st : Standing) : Nat :=
  match st.hold with
  | some (_, .counting) => 1
  | some (_, .working) | some (_, .returning _) | some (_, .forgetting) | some (_, .releasing)
  | none => 0

/-- How many workers may still put the item back. -/
def undecided (st : Standing) : Nat :=
  match st.hold with
  | some (_, .working) | some (_, .counting) | some (_, .returning _) => 1
  | some (_, .forgetting) | some (_, .releasing) | none => 0

/-- How many workers are about to forget the failures of an item that is given up. -/
def forgetting (st : Standing) : Nat :=
  match st.hold with
  | some (_, .forgetting) => 1
  | some (_, .working) | some (_, .counting) | some (_, .returning _) | some (_, .releasing)
  | none => 0

/-- In how many places there is something of the name that is still to be delivered. -/
def left (st : Standing) : Nat := st.waiting.isSome.toNat + st.delayed.length + st.undecided

variable {n : ObjectName} {most : Nat} {past : Record} {st st' : Standing} {o : Option Incident}
  {t : Tally}

theorem Goes.open (h : st.Goes n most o st') (hc : st'.closed = false) : st.closed = false := by
  cases h with
  | closes => cases hc
  | adds | fires | readds =>
    unfold Standing.add at hc
    split at hc <;> exact hc
  | stays | takes | succeeds | judges | counts | desists | delays | forgets | releases => exact hc

/-- How the accounts of a name balance as long as the backlog is open. -/
structure Balanced (most : Nat) (t : Tally) (st : Standing) : Prop where
  begun : t.begun = t.endings.length + st.working
  requeued : t.requeued = st.putOffs + st.counting
  bound : t.requeued < max most 1
  unsettled : Ending.unsettled t.endings ≤ t.requeued
  forgetting : 0 < st.forgetting → Ending.unsettled t.endings = 0 ∧ 0 < Ending.settled t.endings
  /-- Before anything is settled nothing is forgotten. -/
  fresh : Ending.settled t.endings = 0 → t.requeued = t.endings.length
  /-- What was judged worth another delivery is under way to it. -/
  kept : 0 < t.requeued → 0 < st.left + st.forgetting
  left_le : st.left + Ending.settled t.endings ≤ t.offers
  left_pos : 0 < t.offers → 0 < st.left + Ending.settled t.endings

theorem balanced_fresh : Balanced most .empty fresh where
  begun := rfl
  requeued := rfl
  bound := Nat.lt_of_lt_of_le Nat.zero_lt_one (Nat.le_max_right _ _)
  unsettled := Nat.le_refl 0
  forgetting h := absurd h (Nat.lt_irrefl 0)
  fresh _ := rfl
  kept h := absurd h (Nat.lt_irrefl 0)
  left_le := Nat.le_refl 0
  left_pos h := absurd h (Nat.lt_irrefl 0)

/-! ### What the steps keep in balance

Every side of a balance is a number, and a step changes few of them. -/

section Steps

variable {c : Change} {waiting : Option Change} {hold : Option (Change × Hold)}
  {delayed before after : List Change} {putOffs : Nat} {closed : Bool} {delay : Duration}
  {e : DeliveryError} {verdict : Verdict}

theorem Balanced.adds (h : Balanced most t st) :
    Balanced most (t.note (.added ⟨n, c⟩ false)) { st with waiting := some c } := by
  have hfew : st.waiting.isSome.toNat ≤ 1 := Bool.toNat_le _
  have hleft : st.left = st.waiting.isSome.toNat + st.delayed.length + st.undecided := rfl
  have hleft' : ({ st with waiting := some c } : Standing).left =
    1 + st.delayed.length + st.undecided := rfl
  have hle := h.left_le
  refine { h with kept := fun _ => ?_, left_le := ?_, left_pos := fun _ => ?_ }
  · omega
  · change _ + Ending.settled t.endings ≤ t.offers + 1
    omega
  · omega

/-- An item that goes back may take the place of another, but never of itself. -/
theorem Balanced.again (h : Balanced most t st) {st' : Standing}
    (hworking : st'.working = st.working) (hcounting : st'.counting = st.counting)
    (hforgetting : st'.forgetting = st.forgetting)
    (hputOffs : st'.putOffs = st.putOffs) (hle : st'.left ≤ st.left) (hpos : 0 < st'.left) :
    Balanced most (t.note (.added ⟨n, c⟩ true)) st' where
  begun := hworking ▸ h.begun
  requeued := hcounting ▸ hputOffs ▸ h.requeued
  bound := h.bound
  unsettled := h.unsettled
  forgetting := hforgetting ▸ h.forgetting
  fresh := h.fresh
  kept _ := Nat.add_pos_left hpos _
  left_le := Nat.le_trans (Nat.add_le_add_right hle _) h.left_le
  left_pos _ := Nat.add_pos_left hpos _

theorem Balanced.fires
    (h : Balanced most t ⟨waiting, hold, before ++ c :: after, putOffs, closed⟩) :
    Balanced most (t.note (.added ⟨n, c⟩ true))
      ⟨some c, hold, before ++ after, putOffs, closed⟩ := by
  have hlength : (before ++ c :: after).length = (before ++ after).length + 1 := by
    simp only [List.length_append, List.length_cons, Nat.add_assoc]
  refine h.again rfl rfl rfl rfl ?_ ?_
  · refine Nat.add_le_add_right ?_ _
    change 1 + (before ++ after).length ≤ waiting.isSome.toNat + (before ++ c :: after).length
    omega
  · exact Nat.add_pos_left (Nat.add_pos_left Nat.zero_lt_one _) _

theorem Balanced.readds
    (h : Balanced most t ⟨waiting, some (c, .returning delay), delayed, putOffs, closed⟩) :
    Balanced most (t.note (.added ⟨n, c⟩ true))
      ⟨some c, some (c, .releasing), delayed, putOffs, closed⟩ := by
  refine h.again rfl rfl rfl rfl ?_ ?_
  · change 1 + delayed.length + 0 ≤ waiting.isSome.toNat + delayed.length + 1
    omega
  · exact Nat.add_pos_left (Nat.add_pos_left Nat.zero_lt_one _) _

theorem Balanced.takes (h : Balanced most t ⟨some c, none, delayed, putOffs, closed⟩) :
    Balanced most (t.note (.handedOut ⟨n, c⟩))
      ⟨none, some (c, .working), delayed, putOffs, closed⟩ := by
  have hleft : left ⟨none, some (c, .working), delayed, putOffs, closed⟩ =
      left ⟨some c, none, delayed, putOffs, closed⟩ := by
    change 0 + delayed.length + 1 = 1 + delayed.length + 0
    omega
  exact {
    h with
    begun := congrArg (· + 1) h.begun
    kept := hleft ▸ h.kept
    left_le := hleft ▸ h.left_le
    left_pos := hleft ▸ h.left_pos }

theorem Balanced.succeeds
    (h : Balanced most t ⟨waiting, some (c, .working), delayed, putOffs, closed⟩) :
    Balanced most (t.note (.succeeded ⟨n, c⟩))
      ⟨waiting, some (c, .releasing), delayed, 0, closed⟩ where
  begun := h.begun
  requeued := rfl
  bound := Nat.lt_of_lt_of_le Nat.zero_lt_one (Nat.le_max_right _ _)
  unsettled := Nat.le_refl 0
  forgetting h := absurd h (Nat.lt_irrefl 0)
  fresh h := absurd h (Nat.succ_ne_zero _)
  kept h := absurd h (Nat.lt_irrefl 0)
  left_le := by
    have hle : waiting.isSome.toNat + delayed.length + 1 + Ending.settled t.endings ≤ t.offers :=
      h.left_le
    change waiting.isSome.toNat + delayed.length + 0 + (Ending.settled t.endings + 1) ≤ t.offers
    omega
  left_pos _ := Nat.succ_pos _

/-- The failure is judged worth another delivery, and it is about to be counted. -/
theorem Balanced.requeues (hless : putOffs + 1 < most)
    (h : Balanced most t ⟨waiting, some (c, .working), delayed, putOffs, closed⟩) :
    Balanced most (t.note (.failed ⟨n, c⟩ e .requeue))
      ⟨waiting, some (c, .counting), delayed, putOffs, closed⟩ where
  begun := h.begun
  requeued := congrArg (· + 1) h.requeued
  bound := by
    have hrequeued : t.requeued = putOffs := h.requeued
    have hmost : most ≤ max most 1 := Nat.le_max_left _ _
    change t.requeued + 1 < max most 1
    omega
  unsettled := Nat.succ_le_succ h.unsettled
  forgetting h := absurd h (Nat.lt_irrefl 0)
  fresh hnone := congrArg (· + 1) (h.fresh hnone)
  kept _ := Nat.succ_pos _
  left_le := h.left_le
  left_pos := h.left_pos

/-- The item is given up, and its failures are about to be forgotten. -/
theorem Balanced.drops (hverdict : verdict ≠ .requeue)
    (h : Balanced most t ⟨waiting, some (c, .working), delayed, putOffs, closed⟩) :
    Balanced most (t.note (.failed ⟨n, c⟩ e verdict))
      ⟨waiting, some (c, .forgetting), delayed, putOffs, closed⟩ := by
  have hrequeued : (t.note (.failed ⟨n, c⟩ e verdict)).requeued = t.requeued := if_neg hverdict
  have hdropped : (Ending.failure e verdict).isRequeued = false := by
    simpa [Ending.isRequeued] using hverdict
  have hunsettled : Ending.unsettled (t.note (.failed ⟨n, c⟩ e verdict)).endings = 0 := by
    simp [Tally.note, Ending.unsettled, hdropped]
  have hsettled : Ending.settled (t.note (.failed ⟨n, c⟩ e verdict)).endings =
      Ending.settled t.endings + 1 := by
    simp [Tally.note, Ending.settled, hdropped]
  refine
    { begun := h.begun
      requeued := hrequeued.trans h.requeued
      bound := hrequeued ▸ h.bound
      unsettled := hunsettled ▸ Nat.zero_le _
      forgetting := fun _ => ⟨hunsettled, hsettled ▸ Nat.succ_pos _⟩
      fresh := fun hnone => absurd (hsettled.symm.trans hnone) (Nat.succ_ne_zero _)
      kept := fun _ => Nat.succ_pos _
      left_le := ?_
      left_pos := fun _ => hsettled ▸ Nat.succ_pos _ }
  have hle : waiting.isSome.toNat + delayed.length + 1 + Ending.settled t.endings ≤ t.offers :=
    h.left_le
  rw [hsettled]
  change waiting.isSome.toNat + delayed.length + 0 + (Ending.settled t.endings + 1) ≤ t.offers
  omega

theorem Balanced.judges (hm : most ≤ Backoff.maxCount)
    (hv : RetryPolicy.decide e (min (putOffs + 1) Backoff.maxCount) most = verdict)
    (h : Balanced most t ⟨waiting, some (c, .working), delayed, putOffs, closed⟩) :
    Balanced most (t.note (.failed ⟨n, c⟩ e verdict))
      ⟨waiting, some (c, if verdict = .requeue then .counting else .forgetting), delayed, putOffs,
        closed⟩ := by
  by_cases hr : verdict = .requeue
  · subst hr
    exact h.requeues (RetryPolicy.lt_of_decide_eq_requeue hm hv)
  · rw [if_neg hr]
    exact h.drops hr

/-- The count has not come to its bound yet. -/
theorem Balanced.counts (hm : most ≤ Backoff.maxCount)
    (h : Balanced most t ⟨waiting, some (c, .counting), delayed, putOffs, closed⟩) :
    Balanced most (t.note (.putOff ⟨n, c⟩))
      ⟨waiting, some (c, .returning delay), delayed, min (putOffs + 1) Backoff.maxCount,
        closed⟩ := by
  have hrequeued : t.requeued = putOffs + 1 := h.requeued
  have hle : max most 1 ≤ Backoff.maxCount := Nat.max_le.2 ⟨hm, by decide⟩
  have hlt : putOffs + 1 < max most 1 := hrequeued ▸ h.bound
  rw [Nat.min_eq_left (Nat.le_of_lt (Nat.lt_of_lt_of_le hlt hle))]
  exact { h with }

theorem Balanced.delays
    (h : Balanced most t ⟨waiting, some (c, .returning delay), delayed, putOffs, closed⟩) :
    Balanced most t ⟨waiting, some (c, .releasing), delayed ++ [c], putOffs, closed⟩ := by
  have hleft : left ⟨waiting, some (c, .releasing), delayed ++ [c], putOffs, closed⟩ =
      left ⟨waiting, some (c, .returning delay), delayed, putOffs, closed⟩ := by
    change _ + (delayed ++ [c]).length + 0 = _ + delayed.length + 1
    rw [List.length_append, List.length_singleton]
    rfl
  exact {
    h with
    kept := hleft ▸ h.kept
    left_le := hleft ▸ h.left_le
    left_pos := hleft ▸ h.left_pos }

theorem Balanced.forgets
    (h : Balanced most t ⟨waiting, some (c, .forgetting), delayed, putOffs, closed⟩) :
    Balanced most (t.note (.forgot ⟨n, c⟩))
      ⟨waiting, some (c, .releasing), delayed, 0, closed⟩ := by
  obtain ⟨hnone, hsome⟩ := h.forgetting Nat.zero_lt_one
  exact {
    h with
    requeued := rfl
    bound := Nat.lt_of_lt_of_le Nat.zero_lt_one (Nat.le_max_right _ _)
    unsettled := Nat.le_of_eq hnone
    forgetting := fun h => absurd h (Nat.lt_irrefl 0)
    fresh := fun h => absurd h (Nat.ne_of_gt hsome)
    kept := fun h => absurd h (Nat.lt_irrefl 0) }

theorem Balanced.releases
    (h : Balanced most t ⟨waiting, some (c, .releasing), delayed, putOffs, closed⟩) :
    Balanced most (t.note (.released ⟨n, c⟩)) ⟨waiting, none, delayed, putOffs, closed⟩ :=
  { h with }

end Steps

theorem Balanced.goes (hm : most ≤ Backoff.maxCount) (h : Balanced most (past.tally n) st)
    (hg : st.Goes n most o st') (hc : st'.closed = false) :
    Balanced most (Record.tally n (o.toList ++ past)) st' := by
  have hopen := hg.open hc
  have hnote : ∀ i : Incident, i.Concerns n →
      Record.tally n ((some i).toList ++ past) = (past.tally n).note i :=
    fun i hi => Record.tally_cons hi
  obtain ⟨waiting, hold, delayed, putOffs, closed⟩ := st
  cases hopen
  cases hg with
  | stays ho =>
    rw [Record.tally_of_not_concerns ho]
    exact h
  | closes => cases hc
  | desists _ hc' => cases hc'
  | delays hh =>
    cases hh
    exact h.delays
  | adds c =>
    rw [hnote (.added ⟨n, c⟩ false) rfl]
    exact h.adds
  | @fires before after c hd =>
    cases hd
    rw [hnote (.added ⟨n, c⟩ true) rfl]
    exact h.fires
  | @readds c delay hh =>
    cases hh
    rw [hnote (.added ⟨n, c⟩ true) rfl]
    exact h.readds
  | @takes c hw hh =>
    cases hw
    cases hh
    rw [hnote (.handedOut ⟨n, c⟩) rfl]
    exact h.takes
  | @succeeds c hh =>
    cases hh
    rw [hnote (.succeeded ⟨n, c⟩) rfl]
    exact h.succeeds
  | @judges c e verdict hh hv =>
    cases hh
    rw [hnote (.failed ⟨n, c⟩ e verdict) rfl]
    exact h.judges hm hv
  | @counts c delay hh =>
    cases hh
    rw [hnote (.putOff ⟨n, c⟩) rfl]
    exact h.counts hm
  | @forgets c hh =>
    cases hh
    rw [hnote (.forgot ⟨n, c⟩) rfl]
    exact h.forgets
  | @releases c hh =>
    cases hh
    rw [hnote (.released ⟨n, c⟩) rfl]
    exact h.releases

theorem Lives.balanced (hm : most ≤ Backoff.maxCount) (h : Lives n most past st)
    (hc : st.closed = false) : Balanced most (past.tally n) st := by
  induction h with
  | start => exact balanced_fresh
  | goes _ hg ih => exact (ih (hg.open hc)).goes hm hg hc

/-! ## Deliveries in a row -/

theorem length_le_unsettled {l endings : List Ending} (hl : l <+: endings)
    (hall : ∀ x ∈ l, x.isRequeued = true) : l.length ≤ Ending.unsettled endings := by
  induction l generalizing endings with
  | nil => exact Nat.zero_le _
  | cons x l ih =>
    obtain ⟨rest, rfl⟩ := hl
    have hx := hall x List.mem_cons_self
    have hrest := ih (List.prefix_append l rest) fun y hy => hall y (List.mem_cons_of_mem _ hy)
    simp only [List.cons_append, Ending.unsettled, hx, if_true, List.length_cons]
    exact Nat.succ_le_succ hrest

/-- Either nothing is told of how a delivery ended, or it was one that a worker was at. -/
theorem Goes.endings (h : st.Goes n most o st') :
    (Record.tally n (o.toList ++ past)).endings = (past.tally n).endings ∨
    ∃ x c, st.hold = some (c, .working) ∧
      (Record.tally n (o.toList ++ past)).endings = x :: (past.tally n).endings ∧
      (x = .success ∨ ∃ e verdict, x = .failure e verdict ∧
        RetryPolicy.decide e (min (st.putOffs + 1) Backoff.maxCount) most = verdict) := by
  have hnote : ∀ i : Incident, i.Concerns n →
      (Record.tally n ((some i).toList ++ past)).endings = ((past.tally n).note i).endings :=
    fun i hi => congrArg Tally.endings (Record.tally_cons hi)
  cases h with
  | stays ho => exact .inl (by rw [Record.tally_of_not_concerns ho])
  | desists | delays => exact .inl rfl
  | closes => exact .inl (hnote .closed trivial)
  | adds | fires | readds | takes | counts | forgets | releases =>
    refine .inl (hnote _ ?_)
    exact rfl
  | succeeds hh =>
    refine .inr ⟨_, _, hh, hnote _ ?_, .inl rfl⟩
    exact rfl
  | judges hh hv =>
    refine .inr ⟨_, _, hh, hnote _ ?_, .inr ⟨_, _, rfl, hv⟩⟩
    exact rfl

theorem Lives.length_lt (hm : most ≤ Backoff.maxCount) (h : Lives n most past st)
    (hc : st.closed = false) {l : List Ending} (hl : l <:+: (past.tally n).endings)
    (hall : ∀ x ∈ l, x.isRequeued = true) : l.length < max most 1 := by
  have hlast : ∀ {past : Record} {st : Standing}, Lives n most past st → st.closed = false →
      l <+: (past.tally n).endings → l.length < max most 1 := fun h hc hl => by
    have hb := h.balanced hm hc
    have hle := Nat.le_trans (length_le_unsettled hl hall) hb.unsettled
    exact Nat.lt_of_le_of_lt hle hb.bound
  induction h with
  | start => exact hlast .start hc (List.infix_nil.1 hl ▸ List.nil_prefix)
  | goes hlives hg ih =>
    rcases hg.endings with heq | ⟨x, c, -, heq, -⟩
    · exact ih (hg.open hc) (heq ▸ hl)
    · rw [heq, List.infix_cons_iff] at hl
      rcases hl with hl | hl
      · exact hlast (hlives.goes hg) hc (heq ▸ hl)
      · exact ih (hg.open hc) hl

/-! ## What is added once -/

/-- All deliveries have failed for reasons that may pass, and another is allowed. -/
def GoesOn (most : Nat) (endings : List Ending) : Prop :=
  (∀ x ∈ endings, x.isMendable = true) ∧ endings.length < most

/-- The deliveries have come to an end: all but the last have failed for reasons that may pass, and
so has the last only if no more are allowed. -/
def IsOver (most : Nat) (endings : List Ending) : Prop :=
  ∃ last earlier, endings = last :: earlier ∧ (∀ x ∈ earlier, x.isMendable = true) ∧
    endings.length ≤ most ∧ (last.isMendable = true → endings.length = most)

/-- One delivery more goes on or is the last one. -/
theorem GoesOn.cons {endings : List Ending} {x : Ending} (hm : most ≤ Backoff.maxCount)
    (h : GoesOn (max most 1) endings)
    (hx : x = .success ∨ ∃ e verdict, x = .failure e verdict ∧
      RetryPolicy.decide e (min (endings.length + 1) Backoff.maxCount) most = verdict) :
    x.isRequeued = true ∧ GoesOn (max most 1) (x :: endings) ∨
    x.isRequeued = false ∧ IsOver (max most 1) (x :: endings) := by
  obtain ⟨hall, hlength⟩ := h
  rcases hx with rfl | ⟨e, verdict, rfl, hv⟩
  · exact .inr ⟨rfl, _, _, rfl, hall, hlength, nofun⟩
  · cases verdict with
    | requeue =>
      have hmend := (RetryPolicy.decide_eq_requeue_iff.1 hv).1
      have hless := RetryPolicy.lt_of_decide_eq_requeue hm hv
      refine .inl ⟨rfl, List.forall_mem_cons.2 ⟨hmend, hall⟩, ?_⟩
      exact Nat.lt_of_lt_of_le hless (Nat.le_max_left _ _)
    | dropHopeless =>
      have hhopeless := RetryPolicy.decide_eq_dropHopeless_iff.1 hv
      refine .inr ⟨rfl, _, _, rfl, hall, hlength, fun hmend => ?_⟩
      cases hhopeless.symm.trans hmend
    | dropExhausted =>
      obtain ⟨-, hexhausted⟩ := RetryPolicy.decide_eq_dropExhausted_iff.1 hv
      have hmost : most ≤ endings.length + 1 := Nat.le_trans hexhausted (Nat.min_le_left _ _)
      refine .inr ⟨rfl, _, _, rfl, hall, hlength, fun _ => ?_⟩
      exact Nat.le_antisymm hlength (Nat.max_le.2 ⟨hmost, Nat.le_add_left _ _⟩)

theorem Lives.course (hm : most ≤ Backoff.maxCount) (h : Lives n most past st)
    (hc : st.closed = false) (hone : (past.tally n).offers ≤ 1) :
    Ending.settled (past.tally n).endings = 0 ∧ GoesOn (max most 1) (past.tally n).endings ∨
    Ending.settled (past.tally n).endings = 1 ∧ IsOver (max most 1) (past.tally n).endings := by
  induction h with
  | start => exact .inl ⟨rfl, nofun, Nat.lt_of_lt_of_le Nat.zero_lt_one (Nat.le_max_right _ _)⟩
  | @goes past o st st' hlives hg ih =>
    have hopen := hg.open hc
    have ih := ih hopen (Nat.le_trans (Record.offers_le o) hone)
    rcases hg.endings with heq | ⟨x, c, hhold, heq, hx⟩
    · rw [heq]
      exact ih
    -- A worker was at the delivery, so nothing had been settled before.
    · have hb := hlives.balanced hm hopen
      have hworking : st.left = st.waiting.isSome.toNat + st.delayed.length + 1 := by
        simp [left, undecided, hhold]
      have hnone : Ending.settled (past.tally n).endings = 0 := by
        have hle := Nat.le_trans hb.left_le (Nat.le_trans (Record.offers_le o) hone)
        omega
      obtain ⟨-, hgoesOn⟩ := ih.resolve_right fun h => by simp [hnone] at h
      have hends : st.putOffs = (past.tally n).endings.length := by
        have hcounting : st.counting = 0 := by simp [counting, hhold]
        rw [← hb.fresh hnone, hb.requeued, hcounting, Nat.add_zero]
      rw [hends] at hx
      rw [heq]
      rcases hgoesOn.cons hm hx with ⟨hrequeued, hgoesOn⟩ | ⟨hrequeued, hover⟩
      · exact .inl ⟨by simp [Ending.settled, hrequeued, hnone], hgoesOn⟩
      · exact .inr ⟨by simp [Ending.settled, hrequeued, hnone], hover⟩

end Standing
end ClusterSync
