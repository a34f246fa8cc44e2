import ClusterSync.Backlog.Basic

/-!
# What every backlog keeps

A backlog keeps three collections: the names to be handed out, the changes that wait, and the names
that workers hold. `Backlog.Sound` says how they belong together: no name is to be handed out twice
or while it is held, and a change waits exactly for the names to be handed out and for some of
those that are held.

Each operation is described by what it does to the three collections, and keeps them sound.
Releasing a name does so only if the name is held.
-/

namespace ClusterSync.Backoff

/-! ## Counts of failures -/

theorem count_next (b : Backoff) (name n : ObjectName) :
    (b.next name).2.count n =
      if name = n then min (b.count n + 1) maxCount else b.count n := by
  unfold next count
  simp only [Std.ExtTreeMap.getD_insert, Std.LawfulEqCmp.compare_eq_iff_eq]
  split
  · rename_i heq
    rw [heq]
  · rfl

theorem count_forget (b : Backoff) (name n : ObjectName) :
    (b.forget name).count n = if name = n then 0 else b.count n := by
  unfold forget count
  simp only [Std.ExtTreeMap.getD_erase, Std.LawfulEqCmp.compare_eq_iff_eq]

end ClusterSync.Backoff

namespace ClusterSync.Backlog

variable {b : Backlog} {item : WorkItem} {n : ObjectName}

/-- How the collections of a backlog belong together. -/
structure Sound (b : Backlog) : Prop where
  nodup : b.ready.Nodup
  pending_of_ready : ∀ n ∈ b.ready, n ∈ b.pending
  not_held_of_ready : ∀ n ∈ b.ready, n ∉ b.held
  ready_or_held : ∀ n ∈ b.pending, n ∈ b.ready ∨ n ∈ b.held

theorem sound_initial (backoff : Backoff) : (initial backoff).Sound where
  nodup := List.nodup_nil
  pending_of_ready _ h := absurd h List.not_mem_nil
  not_held_of_ready _ h := absurd h List.not_mem_nil
  ready_or_held _ h := absurd h Std.ExtTreeMap.not_mem_empty

/-! ## Adding -/

/-- What an addition does to the order and to the changes that wait. -/
theorem add_eq (b : Backlog) (item : WorkItem) :
    b.add item = { b with
      ready := if b.closed ∨ item.name ∈ b.pending ∨ item.name ∈ b.held then b.ready
        else b.ready ++ [item.name]
      pending := if b.closed then b.pending else b.pending.insert item.name item.change } := by
  unfold add
  by_cases hc : b.closed = true
  · rw [if_pos hc, if_pos (.inl hc), if_pos hc]
  · by_cases hp : item.name ∈ b.pending
    · simp [hc, hp]
    · by_cases hh : item.name ∈ b.held <;> simp [hc, hp, hh]

theorem add_of_closed (h : b.closed = true) : b.add item = b := by simp [add, h]

@[simp] theorem held_add : (b.add item).held = b.held := by rw [add_eq]

@[simp] theorem closed_add : (b.add item).closed = b.closed := by rw [add_eq]

@[simp] theorem delayed_add : (b.add item).delayed = b.delayed := by rw [add_eq]

theorem pending_add (h : b.closed = false) :
    (b.add item).pending = b.pending.insert item.name item.change := by
  rw [add_eq]
  simp [h]

theorem getElem?_pending_add (h : b.closed = false) :
    (b.add item).pending[n]? = if item.name = n then some item.change else b.pending[n]? := by
  rw [pending_add h, Std.ExtTreeMap.getElem?_insert]
  simp only [Std.LawfulEqCmp.compare_eq_iff_eq]

theorem mem_pending_add (h : b.closed = false) :
    n ∈ (b.add item).pending ↔ item.name = n ∨ n ∈ b.pending := by
  rw [pending_add h, Std.ExtTreeMap.mem_insert, Std.LawfulEqCmp.compare_eq_iff_eq]

theorem ready_add_of_waiting (h : item.name ∈ b.pending ∨ item.name ∈ b.held) :
    (b.add item).ready = b.ready := by
  rw [add_eq]
  exact if_pos (.inr h)

theorem ready_add_of_new (h : b.closed = false) (hp : item.name ∉ b.pending)
    (hh : item.name ∉ b.held) : (b.add item).ready = b.ready ++ [item.name] := by
  rw [add_eq]
  exact if_neg (by simp [h, hp, hh])

theorem ready_add (b : Backlog) (item : WorkItem) :
    ∃ names, (b.add item).ready = b.ready ++ names := by
  rw [add_eq]
  dsimp only
  split
  · exact ⟨[], (List.append_nil _).symm⟩
  · exact ⟨_, rfl⟩

theorem Sound.add (h : b.Sound) (item : WorkItem) : (b.add item).Sound := by
  by_cases hc : b.closed = true
  · rwa [add_of_closed hc]
  have hopen : b.closed = false := by simpa using hc
  by_cases hw : item.name ∈ b.pending ∨ item.name ∈ b.held
  · -- The name waits already, so the order stays as it is.
    have hready := ready_add_of_waiting (b := b) hw
    refine ⟨hready ▸ h.nodup, fun n hn => ?_, fun n hn => ?_, fun n hn => ?_⟩
    · exact (mem_pending_add hopen).2 (.inr (h.pending_of_ready n (hready ▸ hn)))
    · rw [held_add]
      exact h.not_held_of_ready n (hready ▸ hn)
    · rw [hready, held_add]
      rcases (mem_pending_add hopen).1 hn with rfl | hn
      · exact hw.elim (h.ready_or_held _) .inr
      · exact h.ready_or_held n hn
  · obtain ⟨hp, hh⟩ := not_or.1 hw
    have hready := ready_add_of_new hopen hp hh
    have hnew : item.name ∉ b.ready := fun hn => hp (h.pending_of_ready _ hn)
    refine ⟨?_, fun n hn => ?_, fun n hn => ?_, fun n hn => ?_⟩
    · rw [hready, List.nodup_append]
      refine ⟨h.nodup, by simp, fun a ha c hc hac => hnew ?_⟩
      rwa [← List.mem_singleton.1 hc, ← hac]
    · rw [hready, List.mem_append, List.mem_singleton] at hn
      exact (mem_pending_add hopen).2 (hn.elim (.inr ∘ h.pending_of_ready n) (.inl ∘ Eq.symm))
    · rw [hready, List.mem_append, List.mem_singleton] at hn
      rw [held_add]
      rcases hn with hn | rfl
      · exact h.not_held_of_ready n hn
      · exact hh
    · rw [hready, held_add, List.mem_append, List.mem_singleton]
      rcases (mem_pending_add hopen).1 hn with rfl | hn
      · exact .inl (.inr rfl)
      · exact (h.ready_or_held n hn).imp_left .inl

/-! ## Handing out -/

/-- What is handed out is the first name, with the change that waits for it. -/
theorem take?_eq_some (h : b.Sound) {b' : Backlog} (ht : b.take? = some (item, b')) :
    ∃ rest, b.ready = item.name :: rest ∧ b.pending[item.name]? = some item.change ∧
      item.name ∉ b.held ∧
      b' = { b with
        ready := rest
        pending := b.pending.erase item.name
        held := b.held.insert item.name } := by
  unfold take? at ht
  split at ht
  · cases ht
  · rename_i name rest hready
    simp only [Option.some.injEq, Prod.mk.injEq] at ht
    obtain ⟨rfl, rfl⟩ := ht
    have hmem : name ∈ b.ready := by rw [hready]; exact List.mem_cons_self
    have hp := Std.ExtTreeMap.mem_iff_isSome_getElem?.1 (h.pending_of_ready name hmem)
    obtain ⟨change, hchange⟩ := Option.isSome_iff_exists.1 hp
    refine ⟨rest, hready, ?_, h.not_held_of_ready name hmem, rfl⟩
    rw [hchange, Std.ExtTreeMap.getD_eq_getD_getElem?, hchange, Option.getD_some]

theorem getElem?_pending_take (h : b.Sound) {b' : Backlog} (ht : b.take? = some (item, b')) :
    b'.pending[n]? = if item.name = n then none else b.pending[n]? := by
  obtain ⟨rest, -, -, -, rfl⟩ := take?_eq_some h ht
  simp only [Std.ExtTreeMap.getElem?_erase, Std.LawfulEqCmp.compare_eq_iff_eq]

theorem mem_held_take (h : b.Sound) {b' : Backlog} (ht : b.take? = some (item, b')) :
    n ∈ b'.held ↔ item.name = n ∨ n ∈ b.held := by
  obtain ⟨rest, -, -, -, rfl⟩ := take?_eq_some h ht
  rw [Std.ExtTreeSet.mem_insert, Std.LawfulEqCmp.compare_eq_iff_eq]

/-- Nothing else changes. -/
theorem take?_keeps {b' : Backlog} (ht : b.take? = some (item, b')) :
    b'.closed = b.closed ∧ b'.backoff = b.backoff ∧ b'.delayed = b.delayed := by
  unfold take? at ht
  split at ht
  · cases ht
  · cases ht
    exact ⟨rfl, rfl, rfl⟩

theorem ready_take {b' : Backlog} (ht : b.take? = some (item, b')) :
    b.ready = item.name :: b'.ready := by
  unfold take? at ht
  split at ht
  · cases ht
  · rename_i hready
    cases ht
    exact hready

theorem take?_eq_none_iff : b.take? = none ↔ b.ready = [] := by
  unfold take?
  split <;> simp_all

theorem Sound.take (h : b.Sound) {b' : Backlog} (ht : b.take? = some (item, b')) : b'.Sound := by
  obtain ⟨rest, hready, hp, hh, rfl⟩ := take?_eq_some h ht
  have hnodup := h.nodup
  rw [hready, List.nodup_cons] at hnodup
  have hmem : ∀ n, n ∈ rest → n ∈ b.ready := fun n hn => by
    rw [hready]; exact List.mem_cons_of_mem _ hn
  have hne : ∀ n, n ∈ rest → item.name ≠ n := fun n hn heq => hnodup.1 (heq ▸ hn)
  refine ⟨hnodup.2, fun n hn => ?_, fun n hn => ?_, fun n hn => ?_⟩
  · rw [Std.ExtTreeMap.mem_erase]
    exact ⟨by simpa using hne n hn, h.pending_of_ready n (hmem n hn)⟩
  · rw [Std.ExtTreeSet.mem_insert, Std.LawfulEqCmp.compare_eq_iff_eq, not_or]
    exact ⟨hne n hn, h.not_held_of_ready n (hmem n hn)⟩
  · rw [Std.ExtTreeMap.mem_erase] at hn
    rw [Std.ExtTreeSet.mem_insert]
    have hready' := h.ready_or_held n hn.2
    rw [hready, List.mem_cons] at hready'
    rcases hready' with (rfl | hr) | hr
    · exact absurd Std.ReflCmp.compare_self hn.1
    · exact .inl hr
    · exact .inr (.inr hr)

/-! ## Releasing -/

@[simp] theorem held_release : (b.release n).held = b.held.erase n := by
  unfold release; dsimp only; split <;> rfl

theorem mem_held_release {m : ObjectName} :
    m ∈ (b.release n).held ↔ n ≠ m ∧ m ∈ b.held := by
  rw [held_release, Std.ExtTreeSet.mem_erase, ne_eq, ne_eq, Std.LawfulEqCmp.compare_eq_iff_eq]

@[simp] theorem pending_release : (b.release n).pending = b.pending := by
  unfold release; dsimp only; split <;> rfl

@[simp] theorem closed_release : (b.release n).closed = b.closed := by
  unfold release; dsimp only; split <;> rfl

@[simp] theorem delayed_release : (b.release n).delayed = b.delayed := by
  unfold release; dsimp only; split <;> rfl

theorem ready_release :
    (b.release n).ready = if n ∈ b.pending then b.ready ++ [n] else b.ready := by
  unfold release; dsimp only; split <;> rfl

theorem Sound.release (h : b.Sound) (hn : n ∈ b.held) : (b.release n).Sound := by
  have hnew : n ∉ b.ready := fun hr => h.not_held_of_ready n hr hn
  have hready : ∀ m, m ∈ (b.release n).ready ↔ m ∈ b.ready ∨ (m = n ∧ n ∈ b.pending) := fun m => by
    rw [ready_release]
    split <;> simp_all
  refine ⟨?_, fun m hm => ?_, fun m hm => ?_, fun m hm => ?_⟩
  · rw [ready_release]
    split
    · rw [List.nodup_append]
      refine ⟨h.nodup, by simp, fun a ha c hc hac => hnew ?_⟩
      rwa [← List.mem_singleton.1 hc, ← hac]
    · exact h.nodup
  · rw [pending_release]
    rcases (hready m).1 hm with hm | ⟨rfl, hp⟩
    · exact h.pending_of_ready m hm
    · exact hp
  · rw [mem_held_release]
    rcases (hready m).1 hm with hm | ⟨rfl, -⟩
    · exact fun hh => h.not_held_of_ready m hm hh.2
    · exact fun hh => hh.1 rfl
  · rw [pending_release] at hm
    rw [hready m, mem_held_release]
    by_cases hmn : m = n
    · exact .inl (.inr ⟨hmn, hmn ▸ hm⟩)
    · exact (h.ready_or_held m hm).imp .inl fun hh => ⟨Ne.symm hmn, hh⟩

/-! ## Delays, forgetting and closing -/

/-- `Sound` is about the three collections only. -/
theorem Sound.congr {b' : Backlog} (h : b.Sound) (hr : b'.ready = b.ready)
    (hp : b'.pending = b.pending) (hh : b'.held = b.held) : b'.Sound where
  nodup := hr ▸ h.nodup
  pending_of_ready n hn := hp ▸ h.pending_of_ready n (hr ▸ hn)
  not_held_of_ready n hn := hh ▸ h.not_held_of_ready n (hr ▸ hn)
  ready_or_held n hn := by rw [hr, hh]; exact h.ready_or_held n (hp ▸ hn)

/-- Putting an item off adds it at once if there is no delay to wait for. Apart from that it only
counts a failure and notes the item among the delayed work. -/
theorem addLater_eq (b : Backlog) (now : Nat) (item : WorkItem) :
    ∃ backoff delayed, (∀ d ∈ delayed, d ∈ b.delayed ∨ d.item = item) ∧
      b.addLater now item =
        { if b.closed = false ∧ (b.backoff.next item.name).1.nanos = 0 then b.add item else b with
          backoff, delayed } := by
  have hkeep : ∀ d ∈ b.delayed, d ∈ b.delayed ∨ d.item = item := fun d hd => .inl hd
  unfold addLater
  by_cases hc : b.closed = true
  · rw [if_pos hc, if_neg (by simp [hc])]
    exact ⟨b.backoff, b.delayed, hkeep, rfl⟩
  rw [if_neg hc]
  unfold addAfter
  dsimp only
  by_cases hd : (b.backoff.next item.name).1.nanos = 0
  · rw [if_pos hd, if_pos ⟨by simpa using hc, hd⟩]
    refine ⟨(b.backoff.next item.name).2, b.delayed, hkeep, ?_⟩
    rw [add_eq, add_eq]
  · rw [if_neg hd, if_neg fun h => hd h.2]
    refine ⟨_, _, fun d hmem => ?_, rfl⟩
    rcases List.mem_append.1 hmem with hmem | hmem
    · exact .inl hmem
    · exact .inr (by rw [List.mem_singleton.1 hmem])

theorem Sound.forget (h : b.Sound) (n : ObjectName) : (b.forget n).Sound := h.congr rfl rfl rfl

theorem Sound.close (h : b.Sound) : b.close.Sound := h.congr rfl rfl rfl

theorem Sound.addAfter (h : b.Sound) (now : Nat) (delay : Duration) (item : WorkItem) :
    (b.addAfter now delay item).Sound := by
  unfold Backlog.addAfter
  split
  · exact h.add item
  · exact h.congr rfl rfl rfl

theorem Sound.addLater (h : b.Sound) (now : Nat) (item : WorkItem) :
    (b.addLater now item).Sound := by
  unfold Backlog.addLater
  split
  · exact h
  · have hs : ({ b with backoff := (b.backoff.next item.name).2 } : Backlog).Sound :=
      h.congr rfl rfl rfl
    exact hs.addAfter now _ item

theorem held_fire {i : Nat} : (b.fire i).held = b.held := by
  unfold Backlog.fire
  split
  · rfl
  · exact held_add

theorem closed_fire {i : Nat} : (b.fire i).closed = b.closed := by
  unfold Backlog.fire
  split
  · rfl
  · exact closed_add

theorem Sound.fire (h : b.Sound) (i : Nat) : (b.fire i).Sound := by
  unfold Backlog.fire
  split
  · exact h
  · have hs : ({ b with delayed := b.delayed.eraseIdx i } : Backlog).Sound :=
      h.congr rfl rfl rfl
    exact hs.add _

/-! ## How often names have been put off -/

theorem putOffs_forget (b : Backlog) (name : ObjectName) :
    (b.forget name).putOffs n = if name = n then 0 else b.putOffs n :=
  b.backoff.count_forget name n

theorem putOffs_add : (b.add item).putOffs n = b.putOffs n := by rw [add_eq]; rfl

theorem putOffs_release {m : ObjectName} : (b.release m).putOffs n = b.putOffs n := by
  unfold release; dsimp only; split <;> rfl

end ClusterSync.Backlog
