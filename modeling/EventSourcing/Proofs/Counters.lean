import EventSourcing.Metrics
import Mathlib.Algebra.BigOperators.Group.List.Basic
import Mathlib.Algebra.GroupWithZero.Nat
import Mathlib.Data.List.Induction

/-!
# Counters

A counter is found by the fingerprint of its label values, but it shows the label values themselves.
As long as fingerprints tell the rows of a family apart, what a counter shows is what was measured
under its labels. Two rows that share a fingerprint share a counter, which shows the first of them
only; the fingerprint runs the values of a row together, so this can be had on purpose.

* `Metrics.shown` is what the metrics show under a row of label values, `Metrics.tally` what was
  measured under it.
* `Metrics.Apart` says that fingerprints tell the measured rows apart.
* `Metrics.shown_record` is one measurement, `Metrics.shown_foldl` any number of them.
* `Metrics.Taken` is a row whose counter another row has taken; it is never shown from then on
  (`Metrics.taken_foldl`, `Metrics.Taken.foldl`).
-/

namespace EventSourcing

namespace Measurement

/-- How much a measurement counts, before counters wrap. -/
def quantity : Measurement → Nat
  | appended _ count => count
  | _ => 1

theorem amount_eq_ofNat (m : Measurement) : m.amount = .ofNat m.quantity := by
  cases m <;> rfl

end Measurement

namespace Metrics

variable {m : Measurement} {ms : List Measurement} {f : Family} {row : List String}

/-! ## What is shown and what was measured -/

/-- What the metrics show in a family under exactly the given label values. -/
def shown (metrics : Metrics) (f : Family) (row : List String) : UInt64 :=
  match (metrics.ofFamily f).find? fun s => s.values = row with
  | some s => s.count
  | none => 0

theorem shown_empty : empty.shown f row = 0 := rfl

theorem shown_cons (s : Series) (rest : List Series) :
    shown ⟨s :: rest⟩ f row =
      if s.family = f ∧ s.values = row then s.count else shown ⟨rest⟩ f row := by
  rw [shown, shown, ofFamily, ofFamily, List.filter_cons]
  by_cases hfamily : s.family = f
  · by_cases hvalues : s.values = row <;> simp [hfamily, hvalues]
  · simp [hfamily]

/-- What was measured in a family under a row of label values, all in all. -/
def tally (ms : List Measurement) (f : Family) (row : List String) : Nat :=
  (ms.map fun m => if m.family = f ∧ m.values = row then m.quantity else 0).sum

@[simp] theorem tally_nil : tally [] f row = 0 := rfl

@[simp] theorem tally_cons (m : Measurement) (ms : List Measurement) :
    tally (m :: ms) f row =
      (if m.family = f ∧ m.values = row then m.quantity else 0) + tally ms f row := by
  simp [tally]

@[simp] theorem tally_append (xs ys : List Measurement) :
    tally (xs ++ ys) f row = tally xs f row + tally ys f row := by
  simp [tally]

theorem tally_eq_zero (h : ∀ m ∈ ms, m.family = f → m.values ≠ row) : tally ms f row = 0 := by
  refine List.sum_eq_zero fun x hx => ?_
  obtain ⟨m, hm, rfl⟩ := List.mem_map.1 hx
  exact if_neg fun hunder => h m hm hunder.1 hunder.2

/-- No row has more measured under it than all of them together. -/
theorem tally_le (ms : List Measurement) (f : Family) (row : List String) :
    tally ms f row ≤ (ms.map Measurement.quantity).sum := by
  induction ms with
  | nil => exact Nat.le_refl 0
  | cons m ms ih =>
    rw [tally_cons, List.map_cons, List.sum_cons]
    exact Nat.add_le_add (by split <;> simp) ih

/-! ## One measurement -/

theorem Series.matches_iff {s : Series} :
    s.matches m = true ↔
      s.family = m.family ∧ Text.fingerprint s.values = Text.fingerprint m.values := by
  simp [Series.matches]

/-- A measurement that shares no counter with another row is shown under its own row alone. -/
theorem shown_record {metrics : Metrics}
    (h : ∀ s ∈ metrics.series, s.matches m = true → s.values = m.values) :
    (metrics.record m).shown f row =
      metrics.shown f row + if m.family = f ∧ m.values = row then m.amount else 0 := by
  obtain ⟨series⟩ := metrics
  induction series with
  | nil =>
    show shown ⟨[⟨m.family, m.values, m.amount⟩]⟩ f row = shown ⟨[]⟩ f row + _
    rw [shown_cons]
    show (if m.family = f ∧ m.values = row then m.amount else 0) = 0 + _
    rw [UInt64.zero_add]
  | cons s rest ih =>
    have hrest := ih fun t ht => h t (List.mem_cons_of_mem s ht)
    show shown ⟨count m (s :: rest)⟩ f row = _
    rw [count]
    by_cases hmatches : s.matches m = true
    · -- the counter is that of the measurement, so both stand under the row or neither does
      have hfamily := (Series.matches_iff.1 hmatches).1
      have hvalues := h s List.mem_cons_self hmatches
      rw [if_pos hmatches, shown_cons, shown_cons, hfamily, hvalues]
      by_cases hunder : m.family = f ∧ m.values = row
      · rw [if_pos hunder, if_pos hunder, if_pos hunder]
      · rw [if_neg hunder, if_neg hunder, if_neg hunder, UInt64.add_zero]
    · rw [if_neg hmatches, shown_cons, shown_cons]
      by_cases hs : s.family = f ∧ s.values = row
      · -- were the measurement under this row too, the counter would be its own
        have hunder : ¬ (m.family = f ∧ m.values = row) := fun hunder =>
          hmatches (Series.matches_iff.2
            ⟨hs.1.trans hunder.1.symm, congrArg _ (hs.2.trans hunder.2.symm)⟩)
        rw [if_pos hs, if_pos hs, if_neg hunder, UInt64.add_zero]
      · rw [if_neg hs, if_neg hs]
        exact hrest

/-! ## Many measurements -/

/-- Fingerprints tell the measured rows of each family apart. -/
def Apart (ms : List Measurement) : Prop :=
  ∀ m ∈ ms, ∀ m' ∈ ms, m.family = m'.family →
    Text.fingerprint m.values = Text.fingerprint m'.values → m.values = m'.values

instance (ms : List Measurement) : Decidable (Apart ms) :=
  inferInstanceAs (Decidable (∀ m ∈ ms, ∀ m' ∈ ms, _ → _ → _))

/-- Counting makes no counter but that of the measurement, and only where there was none for it. -/
theorem mem_count {s : Series} {series : List Series} (h : s ∈ count m series) :
    ((∀ t ∈ series, ¬ t.matches m = true) ∧ s.family = m.family ∧ s.values = m.values) ∨
      ∃ t ∈ series, s.family = t.family ∧ s.values = t.values := by
  induction series with
  | nil =>
    rw [List.mem_singleton.1 h]
    exact Or.inl ⟨nofun, rfl, rfl⟩
  | cons t rest ih =>
    rw [count] at h
    split at h
    · rcases List.mem_cons.1 h with rfl | h
      · exact Or.inr ⟨t, List.mem_cons_self, rfl, rfl⟩
      · exact Or.inr ⟨s, List.mem_cons_of_mem t h, rfl, rfl⟩
    · next hmatches =>
      rcases List.mem_cons.1 h with rfl | h
      · exact Or.inr ⟨s, List.mem_cons_self, rfl, rfl⟩
      · obtain ⟨hnone, hnew⟩ | ⟨u, hu, heq⟩ := ih h
        · exact Or.inl ⟨List.forall_mem_cons.2 ⟨hmatches, hnone⟩, hnew⟩
        · exact Or.inr ⟨u, List.mem_cons_of_mem t hu, heq⟩

/-- Every counter is that of a measurement. -/
theorem exists_measured {s : Series} (h : s ∈ (ms.foldl record empty).series) :
    ∃ m ∈ ms, s.family = m.family ∧ s.values = m.values := by
  induction ms using List.reverseRecOn generalizing s with
  | nil => cases h
  | append_singleton ms m ih =>
    rw [List.foldl_append] at h
    obtain ⟨-, heq⟩ | ⟨t, ht, hfamily, hvalues⟩ := mem_count h
    · exact ⟨m, List.mem_append_right ms List.mem_cons_self, heq⟩
    · obtain ⟨m', hm', hfamily', hvalues'⟩ := ih ht
      exact ⟨m', List.mem_append_left _ hm', hfamily.trans hfamily', hvalues.trans hvalues'⟩

/-- If fingerprints tell the measured rows apart, then what is shown under any row is what was
measured under it. -/
theorem shown_foldl (h : Apart ms) (f : Family) (row : List String) :
    (ms.foldl record empty).shown f row = .ofNat (tally ms f row) := by
  induction ms using List.reverseRecOn with
  | nil => exact shown_empty
  | append_singleton ms m ih =>
    have hold := ih fun x hx y hy => h x (List.mem_append_left _ hx) y (List.mem_append_left _ hy)
    have hm : m ∈ ms ++ [m] := List.mem_append_right ms List.mem_cons_self
    have hlast : ((ms ++ [m]).foldl record empty).shown f row =
        (ms.foldl record empty).shown f row +
          if m.family = f ∧ m.values = row then m.amount else 0 := by
      rw [List.foldl_append]
      refine shown_record fun s hs hmatches => ?_
      obtain ⟨m', hm', hfamily, hvalues⟩ := exists_measured hs
      obtain ⟨hsame, hfingerprint⟩ := Series.matches_iff.1 hmatches
      rw [hvalues] at hfingerprint ⊢
      exact h m' (List.mem_append_left _ hm') m hm (hfamily.symm.trans hsame) hfingerprint
    rw [hlast, hold, tally_append, tally_cons, tally_nil, Nat.add_zero, UInt64.ofNat_add,
      m.amount_eq_ofNat]
    congr 1
    split <;> rfl

/-- Below the size of a counter nothing wraps. -/
theorem toNat_shown_foldl (h : Apart ms) (hsize : tally ms f row < UInt64.size) :
    ((ms.foldl record empty).shown f row).toNat = tally ms f row := by
  rw [shown_foldl h, UInt64.toNat_ofNat_of_lt' hsize]

/-! ## Rows that share a counter -/

/-- A measurement leaves every counter its labels. -/
theorem exists_mem_count {s : Series} {series : List Series} (h : s ∈ series) :
    ∃ t ∈ count m series, t.family = s.family ∧ t.values = s.values := by
  induction series with
  | nil => cases h
  | cons u rest ih =>
    rw [count]
    split
    · rcases List.mem_cons.1 h with rfl | h
      · exact ⟨_, List.mem_cons_self, rfl, rfl⟩
      · exact ⟨s, List.mem_cons_of_mem _ h, rfl, rfl⟩
    · rcases List.mem_cons.1 h with rfl | h
      · exact ⟨s, List.mem_cons_self, rfl, rfl⟩
      · obtain ⟨t, ht, heq⟩ := ih h
        exact ⟨t, List.mem_cons_of_mem u ht, heq⟩

/-- After a measurement there is a counter that it belongs to. -/
theorem exists_matches_count (m : Measurement) (series : List Series) :
    ∃ t ∈ count m series, t.matches m = true := by
  induction series with
  | nil => exact ⟨_, List.mem_cons_self, Series.matches_iff.2 ⟨rfl, rfl⟩⟩
  | cons s rest ih =>
    rw [count]
    split
    · next hmatches => exact ⟨_, List.mem_cons_self, hmatches⟩
    · obtain ⟨t, ht, hmatches⟩ := ih
      exact ⟨t, List.mem_cons_of_mem s ht, hmatches⟩

/-- Every measurement has a counter that it belongs to. -/
theorem exists_counter (hm : m ∈ ms) :
    ∃ s ∈ (ms.foldl record empty).series, s.matches m = true := by
  induction ms using List.reverseRecOn with
  | nil => cases hm
  | append_singleton ms last ih =>
    rw [List.foldl_append]
    rcases List.mem_append.1 hm with hm | hm
    · obtain ⟨s, hs, hmatches⟩ := ih hm
      obtain ⟨t, ht, hfamily, hvalues⟩ := exists_mem_count (m := last) hs
      rw [Series.matches_iff, ← hfamily, ← hvalues] at hmatches
      exact ⟨t, ht, Series.matches_iff.2 hmatches⟩
    · rw [List.mem_singleton.1 hm]
      exact exists_matches_count last _

/-- A row of label values has no counter of its own, as another row of the family with the same
fingerprint has taken its place. -/
structure Taken (metrics : Metrics) (f : Family) (row : List String) : Prop where
  shared : ∃ s ∈ metrics.series, s.family = f ∧ Text.fingerprint s.values = Text.fingerprint row
  missing : ∀ s ∈ metrics.series, s.family = f → s.values ≠ row

namespace Taken

variable {metrics : Metrics}

theorem shown_eq_zero (h : metrics.Taken f row) : metrics.shown f row = 0 := by
  have hnone : ((metrics.ofFamily f).find? fun s => s.values = row) = none := by
    refine List.find?_eq_none.2 fun s hs => ?_
    obtain ⟨hs, hfamily⟩ := List.mem_filter.1 hs
    rw [decide_eq_true_eq]
    exact h.missing s hs (of_decide_eq_true hfamily)
  rw [shown, hnone]

/-- What is measured under the row is counted under the other one. -/
theorem record (h : metrics.Taken f row) (m : Measurement) : (metrics.record m).Taken f row where
  shared := by
    obtain ⟨s, hs, hfamily, hfingerprint⟩ := h.shared
    obtain ⟨t, ht, hfamily', hvalues⟩ := exists_mem_count (m := m) hs
    exact ⟨t, ht, hfamily'.trans hfamily, hvalues ▸ hfingerprint⟩
  missing := by
    intro s hs hfamily hvalues
    obtain ⟨hnone, hmfamily, hmvalues⟩ | ⟨t, ht, htfamily, htvalues⟩ := mem_count hs
    · -- the measurement is under the row, so it belongs to the counter that has taken its place
      have hunder : m.family = f ∧ m.values = row :=
        ⟨hmfamily.symm.trans hfamily, hmvalues.symm.trans hvalues⟩
      obtain ⟨u, hu, hufamily, hfingerprint⟩ := h.shared
      rw [← hunder.1] at hufamily
      rw [← hunder.2] at hfingerprint
      exact hnone u hu (Series.matches_iff.2 ⟨hufamily, hfingerprint⟩)
    · exact h.missing t ht (htfamily.symm.trans hfamily) (htvalues.symm.trans hvalues)

theorem foldl (h : metrics.Taken f row) (later : List Measurement) :
    (later.foldl Metrics.record metrics).Taken f row := by
  induction later generalizing metrics with
  | nil => exact h
  | cons m later ih => exact ih (h.record m)

end Taken

/-- A measured row takes the place of all rows with its fingerprint that were not measured yet. -/
theorem taken_foldl (hm : m ∈ ms) (hfingerprint : Text.fingerprint m.values = Text.fingerprint row)
    (hms : ∀ m' ∈ ms, m'.family = m.family → m'.values ≠ row) :
    (ms.foldl record empty).Taken m.family row where
  shared := by
    obtain ⟨s, hs, hmatches⟩ := exists_counter hm
    obtain ⟨hfamily, hsame⟩ := Series.matches_iff.1 hmatches
    exact ⟨s, hs, hfamily, hsame.trans hfingerprint⟩
  missing := by
    intro s hs hfamily
    obtain ⟨m', hm', hfamily', hvalues⟩ := exists_measured hs
    rw [hvalues]
    exact hms m' hm' (hfamily'.symm.trans hfamily)

end Metrics

end EventSourcing
