import ClusterSync.Proofs.Backlog.Sound
import Mathlib.Algebra.Group.Nat.Defs
import Mathlib.Data.List.Induction

/-!
# Delays

The delay of a name doubles with every failure since the name was last forgotten, up to a cap: the
maximum, or the base if that is greater. A factor has room for a limited number of doublings only.
After more of them the delay is the cap, whatever the base.

**Theorem (`Backoff.doubles_per_failure`).** A name that has failed `n` times since it was last
forgotten waits `base * 2 ^ n`, at most the cap, as long as `n` doublings fit the factor, and the
cap afterwards. The count that is kept stops at a greatest value, and products leave the bounds of a
duration, but neither shows. So the doubling is exact for every history exactly if the factor's room
suffices to take the base to the cap.

A name's delay depends on the calls about that name alone.
-/

namespace ClusterSync

/-! ## Histories -/

/-- What a backoff is asked for: the delay of a name that has failed once more, or to start over. -/
inductive BackoffCall
  | next (name : ObjectName)
  | forget (name : ObjectName)
  deriving DecidableEq

namespace BackoffCall

variable {n m : ObjectName} {calls : List BackoffCall}

def name : BackoffCall → ObjectName
  | .next n | .forget n => n

/-- How often a name has failed since it was last forgotten, or ever. -/
def failuresOf (n : ObjectName) (calls : List BackoffCall) : Nat :=
  (calls.reverse.takeWhile (· ≠ .forget n)).count (.next n)

@[simp] theorem failuresOf_nil : failuresOf n [] = 0 := rfl

theorem failuresOf_append_next :
    failuresOf n (calls ++ [.next m]) =
      if m = n then failuresOf n calls + 1 else failuresOf n calls := by
  simp only [failuresOf, List.reverse_append, List.reverse_singleton, List.singleton_append]
  rw [List.takeWhile_cons_of_pos (by simp)]
  by_cases h : m = n
  · rw [if_pos h, h, List.count_cons_self]
  · rw [if_neg h, List.count_cons_of_ne (by simpa using h)]

theorem failuresOf_append_forget :
    failuresOf n (calls ++ [.forget m]) = if m = n then 0 else failuresOf n calls := by
  simp only [failuresOf, List.reverse_append, List.reverse_singleton, List.singleton_append]
  by_cases h : m = n
  · rw [if_pos h, List.takeWhile_cons_of_neg (by simp [h]), List.count_nil]
  · rw [if_neg h, List.takeWhile_cons_of_pos (by simp [h]), List.count_cons_of_ne (by simp)]

/-- Calls about other names do not matter. -/
theorem failuresOf_filter (n : ObjectName) (calls : List BackoffCall) :
    failuresOf n (calls.filter (·.name = n)) = failuresOf n calls := by
  induction calls using List.reverseRecOn with
  | nil => rfl
  | append_singleton calls c ih =>
    rw [List.filter_append]
    cases c with
    | next m =>
      by_cases h : m = n
      · rw [List.filter_cons_of_pos (by simp [name, h]), List.filter_nil, failuresOf_append_next,
          failuresOf_append_next, ih]
      · rw [List.filter_cons_of_neg (by simp [name, h]), List.filter_nil, List.append_nil,
          failuresOf_append_next, if_neg h, ih]
    | forget m =>
      by_cases h : m = n
      · rw [List.filter_cons_of_pos (by simp [name, h]), List.filter_nil, failuresOf_append_forget,
          failuresOf_append_forget, if_pos h, if_pos h]
      · rw [List.filter_cons_of_neg (by simp [name, h]), List.filter_nil, List.append_nil,
          failuresOf_append_forget, if_neg h, ih]

theorem failuresOf_replicate (n : ObjectName) (k : Nat) :
    failuresOf n (List.replicate k (.next n)) = k := by
  induction k with
  | zero => rfl
  | succ k ih => rw [List.replicate_succ', failuresOf_append_next, if_pos rfl, ih]

end BackoffCall

namespace Backoff

open BackoffCall

variable {base most : Duration}

/-- Carries out a call. -/
def take (b : Backoff) : BackoffCall → Backoff
  | .next n => (b.next n).2
  | .forget n => b.forget n

/-- The backoff after calls. -/
def after (b : Backoff) (calls : List BackoffCall) : Backoff := calls.foldl take b

/-- The delay that a name is given next, after calls. -/
def delayOf (b : Backoff) (calls : List BackoffCall) (n : ObjectName) : Duration :=
  ((b.after calls).next n).1

/-- A base doubled so often, but at most the greater one of base and maximum. -/
def doubled (base most : Duration) (k : Nat) : Duration :=
  min ⟨base.nanos * 2 ^ k⟩ (Max.max base most)

/-! ## What calls change -/

theorem base_after (b : Backoff) (calls : List BackoffCall) : (b.after calls).base = b.base := by
  induction calls generalizing b with
  | nil => rfl
  | cons c calls ih => cases c <;> exact ih _

theorem max_after (b : Backoff) (calls : List BackoffCall) : (b.after calls).max = b.max := by
  induction calls generalizing b with
  | nil => rfl
  | cons c calls ih => cases c <;> exact ih _

/-- The count of a name is the number of its failures, as far as it is kept. -/
theorem count_after (base most : Duration) (calls : List BackoffCall) (n : ObjectName) :
    ((initial base most).after calls).count n = min (failuresOf n calls) maxCount := by
  induction calls using List.reverseRecOn with
  | nil => exact Std.ExtTreeMap.getD_empty
  | append_singleton calls c ih =>
    rw [after, List.foldl_append, List.foldl_cons, List.foldl_nil, ← after]
    cases c with
    | next m =>
      rw [take, count_next, failuresOf_append_next, ih]
      split <;> omega
    | forget m =>
      rw [take, count_forget, failuresOf_append_forget, ih]
      split <;> rfl

/-! ## Delays -/

/-- A product that leaves the bounds of a duration is above the maximum anyway. -/
theorem delayAfter_eq (b : Backoff) (h : b.max.nanos ≤ nanosBound) (k : Nat) :
    b.delayAfter k = if k < factorBits then min ⟨b.base.nanos * 2 ^ k⟩ b.max else b.max := by
  unfold delayAfter
  split
  · dsimp only
    split
    · rfl
    · rename_i hbound
      have hproduct : b.max.nanos ≤ b.base.nanos * 2 ^ k := Nat.le_trans h (Nat.le_of_not_lt hbound)
      exact congrArg Duration.mk (Nat.min_eq_right hproduct).symm
  · rfl

theorem delayOf_eq (hbase : base.nanos < nanosBound) (hmost : most.nanos < nanosBound)
    (calls : List BackoffCall) (n : ObjectName) :
    (initial base most).delayOf calls n =
      if failuresOf n calls < factorBits then doubled base most (failuresOf n calls)
      else Max.max base most := by
  have hcap : (initial base most).max = Max.max base most :=
    congrArg Duration.mk (Nat.max_comm _ _)
  have hbound : (Max.max base most).nanos ≤ nanosBound :=
    Nat.max_le.2 ⟨Nat.le_of_lt hbase, Nat.le_of_lt hmost⟩
  have hroom : factorBits ≤ maxCount := by decide
  rw [delayOf, next, delayAfter_eq _ (by rwa [max_after, hcap]), base_after, max_after,
    count_after, hcap]
  -- A count that is not kept any more has left the room of the factor long before.
  by_cases hn : failuresOf n calls < factorBits
  · rw [Nat.min_eq_left (by omega), if_pos hn, if_pos hn]
    rfl
  · rw [if_neg (by omega), if_neg hn]

theorem doubled_eq_max_iff {k : Nat} :
    Max.max base most = doubled base most k ↔ (Max.max base most).nanos ≤ base.nanos * 2 ^ k := by
  constructor
  · intro h
    have hnanos := congrArg Duration.nanos h
    exact Nat.le_trans (Nat.le_of_eq hnanos) (Nat.min_le_left _ _)
  · intro h
    exact congrArg Duration.mk (Nat.min_eq_right h).symm

/-- What the delays of all histories are, when they are exact doublings, and that names do not
matter to each other. -/
theorem doubles_per_failure (hbase : base.nanos < nanosBound) (hmost : most.nanos < nanosBound) :
    (∀ calls n, (initial base most).delayOf calls n =
      if failuresOf n calls < factorBits then doubled base most (failuresOf n calls)
      else Max.max base most) ∧
    (∀ calls n, (initial base most).delayOf calls n = doubled base most (failuresOf n calls) ↔
      failuresOf n calls < factorBits ∨
        (Max.max base most).nanos ≤ base.nanos * 2 ^ failuresOf n calls) ∧
    ((∀ calls n, (initial base most).delayOf calls n = doubled base most (failuresOf n calls)) ↔
      (Max.max base most).nanos ≤ base.nanos * 2 ^ factorBits) ∧
    (∀ calls n, (initial base most).delayOf calls n =
      (initial base most).delayOf (calls.filter (·.name = n)) n) := by
  have hdelay := delayOf_eq hbase hmost
  have hexact : ∀ calls n,
      (initial base most).delayOf calls n = doubled base most (failuresOf n calls) ↔
      failuresOf n calls < factorBits ∨
        (Max.max base most).nanos ≤ base.nanos * 2 ^ failuresOf n calls := by
    intro calls n
    rw [hdelay]
    split
    · rename_i hn
      exact iff_of_true rfl (.inl hn)
    · rename_i hn
      rw [doubled_eq_max_iff, or_iff_right hn]
  refine ⟨hdelay, hexact, ⟨fun h => ?_, fun h calls n => ?_⟩, fun calls n => ?_⟩
  · have hfull := (hexact (List.replicate factorBits (.next (.cluster ""))) (.cluster "")).1 (h _ _)
    rw [failuresOf_replicate] at hfull
    exact hfull.resolve_left (Nat.lt_irrefl _)
  · refine (hexact calls n).2 ((Nat.lt_or_ge _ _).imp id fun hn => Nat.le_trans h ?_)
    exact Nat.mul_le_mul_left _ (Nat.pow_le_pow_right (by decide) hn)
  · rw [hdelay, hdelay, failuresOf_filter]

section Example

/-- A name that has failed twice since it was forgotten, among the failures of another. -/
def forgotten : List BackoffCall :=
  [.next (.cluster "n1"), .next (.namespaced "ns" "p"), .forget (.cluster "n1"),
    .next (.cluster "n1"), .forget (.namespaced "ns" "p"), .next (.cluster "n1")]

theorem doubles_per_failure_of_forgotten :
    (Duration.ofMillis 5).nanos < nanosBound ∧ (Duration.ofSecs 1000).nanos < nanosBound ∧
    (initial (.ofMillis 5) (.ofSecs 1000)).delayOf forgotten (.cluster "n1") = .ofMillis 20 ∧
    (initial (.ofMillis 5) (.ofSecs 1000)).delayOf forgotten (.cluster "n1") =
      (initial (.ofMillis 5) (.ofSecs 1000)).delayOf
        [.next (.cluster "n1"), .forget (.cluster "n1"), .next (.cluster "n1"),
          .next (.cluster "n1")] (.cluster "n1") ∧
    ∀ calls n, (initial (.ofMillis 5) (.ofSecs 1000)).delayOf calls n =
      doubled (.ofMillis 5) (.ofSecs 1000) (failuresOf n calls) := by
  have hbase : (Duration.ofMillis 5).nanos < nanosBound := by decide
  have hmost : (Duration.ofSecs 1000).nanos < nanosBound := by decide
  obtain ⟨hdelay, -, hexact, hothers⟩ := doubles_per_failure hbase hmost
  exact ⟨hbase, hmost, (hdelay _ _).trans (by decide), hothers forgotten _, hexact.2 (by decide)⟩

/-- A delay that has doubled from one millisecond to fifty days is a hundred days next. -/
theorem delay_leaps_to_max :
    failuresOf (.cluster "n1") (List.replicate 32 (.next (.cluster "n1"))) = 32 ∧
    (initial (.ofMillis 1) (.ofMillis 8640000000)).delayOf
      (List.replicate 32 (.next (.cluster "n1"))) (.cluster "n1") ≠
      doubled (.ofMillis 1) (.ofMillis 8640000000) 32 := by
  refine ⟨failuresOf_replicate _ _, ?_⟩
  rw [delayOf_eq (by decide) (by decide), failuresOf_replicate]
  decide

end Example

end Backoff

end ClusterSync
