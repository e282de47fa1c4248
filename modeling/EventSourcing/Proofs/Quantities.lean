import EventSourcing.Proofs.Lifecycle
import Mathlib.Algebra.Order.BigOperators.Group.List
import Mathlib.Algebra.Order.Ring.Int

/-!
# Total quantities

Quantities are 32-bit numbers of either sign, and their total is added up from the left in 64-bit
numbers, which wrap around. The integer sum of the quantities lies between multiples of the least
and of the greatest one, so that up to `2 ^ 32` items, and no further, nothing ever wraps around.

* `quantitySum_eq_ofInt` says what the total of any items is: the integer sum, wrapped around.
* `exactSum_between` keeps the integer sum between bounds that grow with the number of items.
* `addsUp_iff_length_le` is the number of items up to which no addition on the way overflows.
* `totalQuantity_exact` puts them together for the total of an order.
-/

namespace EventSourcing

namespace Order

/-! ## Sums over the integers -/

/-- The sum of the quantities of items, over the integers. -/
def exactSum (items : List Item) : Int :=
  (items.map fun item => item.quantity.toInt).sum

variable {items : List Item} {n : Nat} {quantity : Int32}

theorem exactSum_append (xs ys : List Item) :
    exactSum (xs ++ ys) = exactSum xs + exactSum ys := by
  rw [exactSum, List.map_append, List.sum_append]
  rfl

theorem exactSum_concat (items : List Item) (item : Item) :
    exactSum (items ++ [item]) = exactSum items + item.quantity.toInt := by
  rw [exactSum_append, exactSum, exactSum, List.map_singleton, List.sum_singleton]

/-- Bounds of the quantities bound their sum by as many times as there are items. -/
theorem exactSum_between {least greatest : Int}
    (h : ∀ item ∈ items, least ≤ item.quantity.toInt ∧ item.quantity.toInt ≤ greatest) :
    items.length * least ≤ exactSum items ∧ exactSum items ≤ items.length * greatest := by
  have hlow := List.card_nsmul_le_sum (items.map fun item => item.quantity.toInt) least
    (List.forall_mem_map.2 fun item hitem => (h item hitem).1)
  have hhigh := List.sum_le_card_nsmul (items.map fun item => item.quantity.toInt) greatest
    (List.forall_mem_map.2 fun item hitem => (h item hitem).2)
  rw [List.length_map, nsmul_eq_mul] at hlow hhigh
  exact ⟨hlow, hhigh⟩

/-- Items that can be ordered come to at least one each. -/
theorem exactSum_of_validate (h : validate items = .ok ()) :
    (items.length : Int) ≤ exactSum items ∧
      exactSum items ≤ items.length * Int32.maxValue.toInt := by
  have hquantities : ∀ item ∈ items,
      1 ≤ item.quantity.toInt ∧ item.quantity.toInt ≤ Int32.maxValue.toInt := by
    intro item hitem
    have hpositive := (validate_eq_ok_iff.1 h).2 item hitem
    exact ⟨Int32.lt_iff_toInt_lt.1 hpositive, item.quantity.toInt_le⟩
  have hbetween := exactSum_between hquantities
  rwa [mul_one] at hbetween

/-! ## Sums of 64-bit numbers -/

/-- The integers that are 64-bit numbers. -/
def InWord (n : Int) : Prop :=
  Int64.minValue.toInt ≤ n ∧ n ≤ Int64.maxValue.toInt

theorem quantitySum_concat (items : List Item) (item : Item) :
    quantitySum (items ++ [item]) = quantitySum items + item.quantity.toInt64 :=
  List.foldl_concat ..

/-- A total is the integer sum, wrapped around. -/
theorem quantitySum_eq_ofInt (items : List Item) :
    quantitySum items = Int64.ofInt (exactSum items) := by
  -- the sum runs from the left, so the last item is the last one added
  induction items using List.reverseRecOn with
  | nil => rfl
  | append_singleton items item ih =>
    rw [quantitySum_concat, exactSum_concat, Int64.ofInt_add, ← Int32.toInt_toInt64,
      Int64.ofInt_toInt, ih]

/-- A total is the integer sum where that is a 64-bit number, even if a sum on the way is not. -/
theorem toInt_quantitySum (h : InWord (exactSum items)) :
    (quantitySum items).toInt = exactSum items := by
  have hlow := h.1
  have hhigh := h.2
  rw [Int64.toInt_minValue] at hlow
  rw [Int64.toInt_maxValue] at hhigh
  rw [quantitySum_eq_ofInt]
  exact Int64.toInt_ofInt_of_le hlow (Int.lt_of_le_sub_one hhigh)

/-- As many quantities as there are 32-bit numbers add up to a 64-bit number. -/
theorem inWord_exactSum (h : items.length ≤ UInt32.size) : InWord (exactSum items) := by
  have hquantities : ∀ item ∈ items,
      Int32.minValue.toInt ≤ item.quantity.toInt ∧
        item.quantity.toInt ≤ Int32.maxValue.toInt :=
    fun item _ => ⟨item.quantity.minValue_le_toInt, item.quantity.toInt_le⟩
  obtain ⟨hlow, hhigh⟩ := exactSum_between hquantities
  rw [Int32.toInt_minValue] at hlow
  rw [Int32.toInt_maxValue] at hhigh
  rw [InWord, Int64.toInt_minValue, Int64.toInt_maxValue]
  simp only [UInt32.size] at h
  omega

/-! ## Sums on the way -/

/-- No addition on the way to the total overflows: the sum of the quantities before an item and the
quantity of that item always add up to a 64-bit number. -/
def AddsUp (items : List Item) : Prop :=
  ∀ before item after, items = before ++ item :: after →
    InWord ((quantitySum before).toInt + item.quantity.toInt)

theorem addsUp_of_length_le (h : items.length ≤ UInt32.size) : AddsUp items := by
  rintro before item after rfl
  rw [List.length_append, List.length_cons] at h
  have hbefore : before.length ≤ UInt32.size := by omega
  have hnext : (before ++ [item]).length ≤ UInt32.size := by
    rw [List.length_append, List.length_singleton]
    omega
  -- so far nothing has wrapped around, and one item more is still few enough
  rw [toInt_quantitySum (inWord_exactSum hbefore), ← exactSum_concat]
  exact inWord_exactSum hnext

/-- A number of items of one quantity. -/
def alike (n : Nat) (quantity : Int32) : List Item := List.replicate n ⟨Uuid.nil, quantity⟩

@[simp] theorem length_alike : (alike n quantity).length = n := List.length_replicate

@[simp] theorem exactSum_alike : exactSum (alike n quantity) = n * quantity.toInt := by
  rw [exactSum, alike, List.map_replicate, List.sum_replicate, nsmul_eq_mul]

theorem validate_alike (hn : 0 < n) (hquantity : 0 < quantity) :
    validate (alike n quantity) = .ok () := by
  refine validate_eq_ok_iff.2 ⟨List.ne_nil_of_length_pos (length_alike.symm ▸ hn), ?_⟩
  intro item hitem
  rw [List.eq_of_mem_replicate hitem]
  exact hquantity

theorem alike_add_succ (m n : Nat) (quantity : Int32) :
    alike (m + (n + 1)) quantity
      = alike m quantity ++ ⟨Uuid.nil, quantity⟩ :: alike n quantity := by
  rw [alike, List.replicate_add, List.replicate_succ]
  rfl

/-- Behind `2 ^ 32` items of the least quantity, one more goes below the 64-bit numbers. -/
theorem not_addsUp_alike (h : UInt32.size < n) : ¬ AddsUp (alike n Int32.minValue) := by
  obtain ⟨k, rfl⟩ := Nat.exists_eq_add_of_lt h
  intro hadds
  have hlow := (hadds _ _ _ (alike_add_succ UInt32.size k Int32.minValue)).1
  rw [toInt_quantitySum (inWord_exactSum length_alike.le), exactSum_alike] at hlow
  exact absurd hlow (by decide)

/-- Additions of quantities cannot overflow up to `2 ^ 32` items, and no further. -/
theorem addsUp_iff_length_le :
    (∀ items : List Item, items.length = n → AddsUp items) ↔ n ≤ UInt32.size := by
  constructor
  · intro h
    by_contra hn
    exact not_addsUp_alike (Nat.not_le.1 hn) (h _ length_alike)
  · rintro hn items rfl
    exact addsUp_of_length_le hn

/-- The total of an order of up to `2 ^ 32` items is exact. No sum on the way to it leaves the
64-bit numbers, so it is the integer sum of the quantities; it is the sum of the totals of any two
parts that the items are put together from; and if the items can be ordered, it is at least their
number and at most the greatest quantity for each of them. -/
theorem totalQuantity_exact {o : Order} (h : o.items.length ≤ UInt32.size) :
    AddsUp o.items ∧
      o.totalQuantity.toInt = exactSum o.items ∧
      (∀ first second : Order, o.items = first.items ++ second.items →
        o.totalQuantity.toInt = first.totalQuantity.toInt + second.totalQuantity.toInt) ∧
      (validate o.items = .ok () →
        (o.items.length : Int) ≤ o.totalQuantity.toInt ∧
          o.totalQuantity.toInt ≤ o.items.length * Int32.maxValue.toInt) := by
  have hexact : o.totalQuantity.toInt = exactSum o.items := toInt_quantitySum (inWord_exactSum h)
  refine ⟨addsUp_iff_length_le.2 h o.items rfl, hexact, ?_, ?_⟩
  · intro first second hitems
    have hlength := h
    rw [hitems, List.length_append] at hlength
    have hfirst : first.totalQuantity.toInt = exactSum first.items :=
      toInt_quantitySum (inWord_exactSum (by omega))
    have hsecond : second.totalQuantity.toInt = exactSum second.items :=
      toInt_quantitySum (inWord_exactSum (by omega))
    rw [hexact, hfirst, hsecond, hitems, exactSum_append]
  · intro hvalid
    rw [hexact]
    exact exactSum_of_validate hvalid

/-- The least total comes of `2 ^ 32` items of the least quantity, and one more item overflows; as
many of the greatest quantity can be ordered and come to `2 ^ 63 - 2 ^ 32`. -/
theorem totalQuantity_exact_fullest :
    let lowest := { draft with items := alike UInt32.size Int32.minValue }
    let highest := { draft with items := alike UInt32.size Int32.maxValue }
    lowest.items.length ≤ UInt32.size ∧ AddsUp lowest.items ∧
      lowest.totalQuantity = Int64.minValue ∧
      ¬ AddsUp (alike (UInt32.size + 1) Int32.minValue) ∧
      highest.items.length ≤ UInt32.size ∧ validate highest.items = .ok () ∧
      highest.totalQuantity.toInt = 9223372032559808512 := by
  intro lowest highest
  have hlow : lowest.items.length ≤ UInt32.size := length_alike.le
  have hhigh : highest.items.length ≤ UInt32.size := length_alike.le
  obtain ⟨hadds, hleast, -, -⟩ := totalQuantity_exact hlow
  obtain ⟨-, hgreatest, -, -⟩ := totalQuantity_exact hhigh
  refine ⟨hlow, hadds, ?_, not_addsUp_alike (by decide), hhigh,
    validate_alike (by decide) (by decide), ?_⟩
  · rw [← Int64.toInt_inj, hleast]
    exact exactSum_alike.trans (by decide)
  · rw [hgreatest]
    exact exactSum_alike.trans (by decide)

end Order

end EventSourcing
