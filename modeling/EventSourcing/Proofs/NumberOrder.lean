import EventSourcing.Binary64.Basic

/-!
# The order of the numbers

Binary64 numbers are compared by their places, and what is not a number has none. The other numbers
are ordered linearly, up to the two zeros.

* `le_iff` is the order by places; `le_refl`, `le_trans` and `lt_eq_not_le` follow from it.
* `min_le_right`, `min_le_min_left`, `le_max_right` and `clamp_between` are about the smaller number, the
  larger one and the one moved between bounds.
-/

namespace EventSourcing

namespace Binary64

variable {x x' y z lo hi : Binary64} {m n : Nat} {hm : Exact m} {hn : Exact n}

theorem isNaN_eq_false (h : x ≠ .nan) : x.isNaN = false := by
  cases x with
  | nan => exact absurd rfl h
  | infinite s => rfl
  | finite s n h => rfl

/-- Two numbers are in order if their places are. -/
theorem le_iff : x.le y = true ↔ ∃ a b, x.level? = some a ∧ y.level? = some b ∧ a ≤ b := by
  unfold le
  split
  · next a b ha hb => simp [ha, hb]
  · next hnone =>
    refine ⟨nofun, ?_⟩
    rintro ⟨a, b, ha, hb, -⟩
    exact absurd hb (hnone a b ha)

theorem ne_nan_of_le (h : x.le y = true) : x ≠ .nan ∧ y ≠ .nan := by
  obtain ⟨a, b, ha, hb, -⟩ := le_iff.1 h
  constructor
  · rintro rfl
    cases ha
  · rintro rfl
    cases hb

theorem exists_level (h : x ≠ .nan) : ∃ a, x.level? = some a := by
  cases x with
  | nan => exact absurd rfl h
  | infinite s => exact ⟨_, rfl⟩
  | finite s n h => exact ⟨_, rfl⟩

theorem le_refl (h : x ≠ .nan) : x.le x = true := by
  obtain ⟨a, ha⟩ := exists_level h
  exact le_iff.2 ⟨a, a, ha, ha, Int.le_refl a⟩

theorem le_trans (h : x.le y = true) (h' : y.le z = true) : x.le z = true := by
  obtain ⟨a, b, ha, hb, hab⟩ := le_iff.1 h
  obtain ⟨b', c, hb', hc, hbc⟩ := le_iff.1 h'
  obtain rfl : b = b' := Option.some.inj (hb.symm.trans hb')
  exact le_iff.2 ⟨a, c, ha, hc, Int.le_trans hab hbc⟩

/-- Strictly less is not greater or equal. -/
theorem lt_eq_not_le (hx : x ≠ .nan) (hy : y ≠ .nan) : x.lt y = !y.le x := by
  obtain ⟨a, ha⟩ := exists_level hx
  obtain ⟨b, hb⟩ := exists_level hy
  simp only [lt, le, ha, hb]
  rw [← decide_not]
  exact decide_eq_decide.2 Int.not_le.symm

theorem finite_le_finite :
    (Binary64.finite false m hm).le (.finite false n hn) = true ↔ m ≤ n := by
  simp [le, level?]

theorem finite_le_infinite : (Binary64.finite false m hm).le (.infinite false) = true := by
  simpa [le, level?] using Nat.le_of_lt hm.1

theorem not_infinite_le_finite :
    ¬ (Binary64.infinite false).le (.finite false n hn) = true := by
  simpa [le, level?] using hn.1

/-! ## The smaller and the larger number -/

theorem min_eq (hx : x ≠ .nan) (hy : y ≠ .nan) : x.min y = if x.le y = true then x else y := by
  rw [min, isNaN_eq_false hx, isNaN_eq_false hy, lt_eq_not_le hy hx]
  cases x.le y <;> rfl

theorem min_nan_left (y : Binary64) : Binary64.nan.min y = y := rfl

theorem min_le_right (x : Binary64) (hy : y ≠ .nan) : (x.min y).le y = true := by
  by_cases hx : x = .nan
  · rw [hx, min_nan_left]
    exact le_refl hy
  · rw [min_eq hx hy]
    split
    · assumption
    · exact le_refl hy

theorem min_le_min_left (h : x.le x' = true) (hy : y ≠ .nan) :
    (x.min y).le (x'.min y) = true := by
  obtain ⟨hx, hx'⟩ := ne_nan_of_le h
  rw [min_eq hx' hy]
  split
  · next hle =>
    rw [min_eq hx hy, if_pos (le_trans h hle)]
    exact h
  · exact min_le_right x hy

theorem le_max_right (hx : x ≠ .nan) (hy : y ≠ .nan) : y.le (x.max y) = true := by
  rw [max, isNaN_eq_false hx, isNaN_eq_false hy, lt_eq_not_le hx hy]
  cases hle : y.le x with
  | false => exact le_refl hy
  | true => exact hle

theorem max_cases (x y : Binary64) : x.max y = x ∨ x.max y = y := by
  rw [max]
  repeat' split
  all_goals simp

theorem max_eq_left (h : y.le x = true) : x.max y = x := by
  obtain ⟨hy, hx⟩ := ne_nan_of_le h
  rw [max, isNaN_eq_false hx, isNaN_eq_false hy, lt_eq_not_le hx hy, h]
  rfl

/-- What is between the bounds is left alone. -/
theorem clamp_eq_self (h : lo.le x = true) (h' : x.le hi = true) : x.clamp lo hi = x := by
  obtain ⟨hlo, hx⟩ := ne_nan_of_le h
  have hhi := (ne_nan_of_le h').2
  rw [clamp, lt_eq_not_le hx hlo, lt_eq_not_le hhi hx, h, h']
  rfl

/-- What is not between the bounds is moved to one of them. -/
theorem clamp_between (hx : x ≠ .nan) (h : lo.le hi = true) :
    lo.le (x.clamp lo hi) = true ∧ (x.clamp lo hi).le hi = true := by
  obtain ⟨hlo, hhi⟩ := ne_nan_of_le h
  rw [clamp, lt_eq_not_le hx hlo, lt_eq_not_le hhi hx]
  cases hlow : lo.le x with
  | false => exact ⟨le_refl hlo, h⟩
  | true =>
    cases hhigh : x.le hi with
    | false => exact ⟨h, le_refl hhi⟩
    | true => exact ⟨hlow, hhigh⟩

end Binary64

end EventSourcing
