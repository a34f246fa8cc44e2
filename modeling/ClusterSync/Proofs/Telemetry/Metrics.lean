import ClusterSync.Telemetry.Event

/-!
# The values of metrics

Each change of the metrics concerns one sample, so a sample keeps its value as long as only others
are changed.

**Theorem (`value_add`).** Adding to a sample raises its value by as much and leaves all other
values as they were.

**Theorem (`total_add`).** Adding to a sample raises the total of all samples of a sort by as much,
if it is of that sort, and leaves the total as it was otherwise.
-/

namespace ClusterSync

namespace Metrics

variable {sample other : Sample} {n : Int}

theorem lookup_update (change : Int → Int) (samples : List (Sample × Int)) :
    (update sample change samples).lookup other =
      if other = sample then some (change ((samples.lookup sample).getD 0))
      else samples.lookup other := by
  induction samples with
  | nil =>
    by_cases h : other = sample
    · simp [update, h]
    · have hne : (other == sample) = false := by simpa using h
      simp [update, h, List.lookup_cons, hne]
  | cons entry rest ih =>
    obtain ⟨s, m⟩ := entry
    unfold update
    by_cases hs : s = sample
    · subst hs
      by_cases ho : other = s
      · simp [ho]
      · have hne : (other == s) = false := by simpa using ho
        simp [List.lookup_cons, ho, hne]
    · have hne : (sample == s) = false := by simpa using Ne.symm hs
      rw [if_neg hs]
      by_cases ho : other = s
      · subst ho
        simp [hs]
      · have hother : (other == s) = false := by simpa using ho
        simpa [List.lookup_cons, hother, hne] using ih

theorem value_add (m : Metrics) :
    (m.add sample n).value other = m.value other + if other = sample then n else 0 := by
  unfold value add
  rw [lookup_update]
  by_cases h : other = sample
  · simp [h]
  · simp [h]

/-- The sum of the values of all samples of a sort. -/
def total (m : Metrics) (sort : Sample → Bool) : Int :=
  m.samples.foldr (fun (s, value) rest => (if sort s then value else 0) + rest) 0

theorem foldr_update (sort : Sample → Bool) (samples : List (Sample × Int)) :
    (update sample (· + n) samples).foldr
        (fun (s, value) rest => (if sort s then value else 0) + rest) 0 =
      samples.foldr (fun (s, value) rest => (if sort s then value else 0) + rest) 0 +
        if sort sample then n else 0 := by
  induction samples with
  | nil => cases h : sort sample <;> simp [update, h]
  | cons entry rest ih =>
    obtain ⟨s, m⟩ := entry
    unfold update
    by_cases hs : s = sample
    · subst hs
      cases h : sort s
      · simp [h]
      · simp only [if_pos, List.foldr_cons, h]
        omega
    · rw [if_neg hs]
      simp only [List.foldr_cons, ih]
      omega

theorem total_add (m : Metrics) (sort : Sample → Bool) :
    (m.add sample n).total sort = m.total sort + if sort sample then n else 0 :=
  foldr_update sort m.samples

/-- A number that is read off metrics and goes up by what is added to samples of a sort. -/
structure Sums (read : Metrics → Int) (sort : Sample → Bool) : Prop where
  initial : read {} = 0
  add : ∀ (m : Metrics) (sample : Sample) (n : Int),
    read (m.add sample n) = read m + if sort sample then n else 0

theorem sums_value (sample : Sample) : Sums (·.value sample) (sample = ·) where
  initial := rfl
  add m _ _ := (value_add m).trans (by simp only [decide_eq_true_eq])

theorem sums_total (sort : Sample → Bool) : Sums (·.total sort) sort where
  initial := rfl
  add m _ _ := m.total_add sort

theorem Sums.add_of_not {read : Metrics → Int} {sort : Sample → Bool} (h : Sums read sort)
    (hs : sort sample = false) (m : Metrics) : read (m.add sample n) = read m := by
  rw [h.add, hs]
  exact Int.add_zero _

/-- Counting samples raises such a number by how many are of the sort. -/
theorem Sums.increments {read : Metrics → Int} {sort : Sample → Bool} (h : Sums read sort)
    (m : Metrics) (samples : List Sample) :
    read (samples.foldl increment m) = read m + samples.countP sort := by
  induction samples generalizing m with
  | nil => exact (Int.add_zero _).symm
  | cons s samples ih =>
    rw [List.foldl_cons, ih, increment, h.add, List.countP_cons]
    split <;> omega

end Metrics

namespace Journal

variable {j : Journal} {sample other : Sample}

theorem value_adjust {n : Int} :
    (j.adjust sample n).metrics.value other =
      j.metrics.value other + if other = sample then n else 0 :=
  Metrics.value_add j.metrics

theorem value_count :
    (j.count sample).metrics.value other =
      j.metrics.value other + if other = sample then 1 else 0 :=
  Metrics.value_add j.metrics

theorem value_count_of_ne (h : other ≠ sample) :
    (j.count sample).metrics.value other = j.metrics.value other := by
  rw [value_count, if_neg h, Int.add_zero]

end Journal

end ClusterSync
