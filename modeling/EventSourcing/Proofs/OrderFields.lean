import EventSourcing.Proofs.Lifecycle
import Mathlib.Logic.Relation

/-!
# The fields of an order

An order has eight fields, and each event sets some of them. What they say of one another is nowhere
checked; it follows from which commands are accepted in which status.

* `Step` is an accepted command with its events applied; `Step.exists_event` says that this is one
  event that the status admits.
* `Consistent` is the invariant of one order, `Retains` what stays from an order to every later one.
* `fields_of_run` carries both over every run.
-/

namespace EventSourcing

namespace Order

/-! ## Runs of accepted commands -/

/-- A command is accepted, and the events that it leads to are applied one after another. -/
def Step (o o' : Order) : Prop :=
  ∃ now c events, Order.decide now o c = .ok events ∧ aggregate.fold o events = o'

/-- Any number of accepted commands. -/
abbrev Run : Order → Order → Prop := Relation.ReflTransGen Step

/-- What a draft can become. -/
def Reachable (o : Order) : Prop := Run draft o

/-- An accepted command leads to one event that the status admits. -/
theorem Step.exists_event {o o' : Order} (h : Step o o') :
    ∃ e s, e.Orderable ∧ o.status.after? e = some s ∧ o' = o.change e := by
  obtain ⟨now, c, events, hdecide, rfl⟩ := h
  rw [Order.decide] at hdecide
  split at hdecide
  · next e hevent =>
    cases hdecide
    obtain ⟨hitems, s, hs⟩ := decideEvent_sound hevent
    refine ⟨e, s, hitems, hs, ?_⟩
    show (apply e o).2 = o.change e
    rw [(apply_of_after? hs).1]
  · cases hdecide

/-- The status in which each event can be recorded. -/
theorem Status.of_after? {s next : Status} {e : Event} (h : s.after? e = some next) :
    match e with
    | .created .. => s = .draft
    | .itemsUpdated .. | .confirmed _ => s = .created
    | .shipped .. => s = .confirmed
    | .delivered .. => s = .shipped
    | .cancelled .. => s = .created ∨ s = .confirmed ∨ s = .shipped := by
  cases s <;> cases e <;> simp [Status.after?] at h ⊢

/-! ## What the fields say of one another -/

/-- The fields of an order agree. -/
structure Consistent (o : Order) : Prop where
  customer : o.status = .draft ↔ o.customer = none
  createdAt : o.status = .draft ↔ o.createdAt = none
  updatedAt : o.status = .draft ↔ o.updatedAt = none
  items : o.status = .draft ↔ o.items = []
  quantities : o.status ≠ .draft → ∀ item ∈ o.items, 0 < item.quantity
  carrier : o.trackingNumber.isSome ↔ o.carrier.isSome
  shipped : o.status = .shipped ∨ o.status = .delivered →
    o.trackingNumber.isSome ∧ o.carrier.isSome
  unshipped : o.status = .draft ∨ o.status = .created ∨ o.status = .confirmed →
    o.trackingNumber = none ∧ o.carrier = none
  cancelledReason : o.cancelledReason.isSome → o.status = .cancelled

theorem consistent_draft : Consistent draft := by
  constructor <;> simp [draft]

namespace Consistent

variable {o : Order}

/-- A reason for a cancellation is there only once the order is cancelled. -/
theorem cancelledReason_eq_none (h : o.Consistent) (hstatus : o.status ≠ .cancelled) :
    o.cancelledReason = none := by
  rw [← Option.not_isSome_iff_eq_none]
  exact fun hsome => hstatus (h.cancelledReason hsome)

/-- What an order has once it is no draft. -/
theorem started (h : o.Consistent) (hstarted : o.status ≠ .draft) :
    o.customer ≠ none ∧ o.createdAt ≠ none ∧ o.updatedAt ≠ none ∧ o.items ≠ [] :=
  ⟨mt h.customer.2 hstarted, mt h.createdAt.2 hstarted, mt h.updatedAt.2 hstarted,
    mt h.items.2 hstarted⟩

/-- Each event leaves the fields in agreement in the status in which it can be recorded. -/
theorem change (h : o.Consistent) {e : Event} (hitems : e.Orderable) {s : Status}
    (hs : o.status.after? e = some s) : (o.change e).Consistent := by
  -- the status tells which fields are set before the event, the event which it sets besides
  have hstatus := Status.of_after? hs
  cases e with
  | created customer items createdAt =>
    obtain ⟨htracking, hcarrier⟩ := h.unshipped (Or.inl hstatus)
    have hreason := h.cancelledReason_eq_none (by simp [hstatus])
    constructor <;> simp [Order.change, htracking, hcarrier, hreason, hitems.1]
    exact hitems.2
  | itemsUpdated items reason =>
    exact { h with
      items := by simp [Order.change, hstatus, hitems.1]
      quantities := fun _ => hitems.2 }
  | confirmed confirmedAt =>
    have hdraft : o.status ≠ .draft := by simp [hstatus]
    obtain ⟨htracking, hcarrier⟩ := h.unshipped (Or.inr (Or.inl hstatus))
    have hreason := h.cancelledReason_eq_none (by simp [hstatus])
    constructor <;> simp [Order.change, htracking, hcarrier, hreason, h.started hdraft]
    exact h.quantities hdraft
  | shipped trackingNumber carrier shippedAt =>
    have hdraft : o.status ≠ .draft := by simp [hstatus]
    have hreason := h.cancelledReason_eq_none (by simp [hstatus])
    constructor <;> simp [Order.change, hreason, h.started hdraft]
    exact h.quantities hdraft
  | delivered deliveredAt signature =>
    have hdraft : o.status ≠ .draft := by simp [hstatus]
    have hreason := h.cancelledReason_eq_none (by simp [hstatus])
    constructor <;>
      simp [Order.change, hreason, h.shipped (Or.inl hstatus), h.started hdraft]
    exact h.quantities hdraft
  | cancelled reason cancelledBy =>
    have hdraft : o.status ≠ .draft := by rcases hstatus with hs | hs | hs <;> simp [hs]
    constructor <;> simp [Order.change, h.carrier, h.started hdraft]
    exact h.quantities hdraft

end Consistent

theorem consistent_of_step {o o' : Order} (h : o.Consistent) (hstep : Step o o') :
    o'.Consistent := by
  obtain ⟨e, s, hitems, hs, rfl⟩ := hstep.exists_event
  exact h.change hitems hs

theorem consistent_of_reachable {o : Order} (h : Reachable o) : o.Consistent := by
  induction h with
  | refl => exact consistent_draft
  | tail _ hstep ih => exact consistent_of_step ih hstep

/-! ## What stays -/

/-- An order whose items can still be replaced. -/
def Open (o : Order) : Prop := o.status = .draft ∨ o.status = .created

/-- What stays from an order to a later one: whatever is set of customer, creation, tracking number
and carrier, and the items once the order is no longer open, which it never is again. -/
structure Retains (o o' : Order) : Prop where
  customer : o.customer ≠ none → o'.customer = o.customer
  createdAt : o.createdAt ≠ none → o'.createdAt = o.createdAt
  trackingNumber : o.trackingNumber ≠ none → o'.trackingNumber = o.trackingNumber
  carrier : o.carrier ≠ none → o'.carrier = o.carrier
  items : ¬ o.Open → ¬ o'.Open ∧ o'.items = o.items

namespace Retains

variable {o o' o'' : Order}

theorem refl (o : Order) : Retains o o :=
  ⟨fun _ => rfl, fun _ => rfl, fun _ => rfl, fun _ => rfl, fun h => ⟨h, rfl⟩⟩

/-- A field that is set once is set from then on. -/
theorem set_trans {α : Type} {x y z : Option α} (hxy : x ≠ none → y = x) (hyz : y ≠ none → z = y)
    (hx : x ≠ none) : z = x := by
  have hy : y = x := hxy hx
  rw [← hy] at hx ⊢
  exact hyz hx

theorem trans (h : Retains o o') (h' : Retains o' o'') : Retains o o'' where
  customer := set_trans h.customer h'.customer
  createdAt := set_trans h.createdAt h'.createdAt
  trackingNumber := set_trans h.trackingNumber h'.trackingNumber
  carrier := set_trans h.carrier h'.carrier
  items hopen := by
    obtain ⟨hopen', hitems⟩ := h.items hopen
    obtain ⟨hopen'', hitems'⟩ := h'.items hopen'
    exact ⟨hopen'', hitems'.trans hitems⟩

/-- An event that sets a field finds it empty, and one that replaces items finds the order open. -/
theorem change (h : o.Consistent) {e : Event} {s : Status} (hs : o.status.after? e = some s) :
    Retains o (o.change e) := by
  have hstatus := Status.of_after? hs
  cases e with
  | created customer items createdAt =>
    have hcustomer := h.customer.1 hstatus
    have hcreatedAt := h.createdAt.1 hstatus
    constructor <;> simp [Order.change, hcustomer, hcreatedAt, Open, hstatus]
  | itemsUpdated items reason =>
    constructor <;> simp [Order.change, Open, hstatus]
  | confirmed confirmedAt =>
    constructor <;> simp [Order.change, Open, hstatus]
  | shipped trackingNumber carrier shippedAt =>
    obtain ⟨htracking, hcarrier⟩ := h.unshipped (Or.inr (Or.inr hstatus))
    constructor <;> simp [Order.change, htracking, hcarrier, Open]
  | delivered deliveredAt signature =>
    constructor <;> simp [Order.change, Open]
  | cancelled reason cancelledBy =>
    constructor <;> simp [Order.change, Open]

end Retains

theorem retains_of_run {o o' : Order} (h : o.Consistent) (hrun : Run o o') : Retains o o' := by
  -- the induction carries the agreement of the fields along, which each step needs
  suffices hboth : o'.Consistent ∧ Retains o o' from hboth.2
  induction hrun with
  | refl => exact ⟨h, Retains.refl o⟩
  | tail _ hstep ih =>
    obtain ⟨e, s, hitems, hs, rfl⟩ := hstep.exists_event
    exact ⟨ih.1.change hitems hs, ih.2.trans (Retains.change ih.1 hs)⟩

/-- The fields of every order that accepted commands lead to agree. From there on nothing that is
set of customer, creation, tracking number and carrier ever changes, nor do the items once the order
is neither a draft nor just created. -/
theorem fields_of_run {o : Order} (h : Reachable o) :
    o.Consistent ∧ ∀ o', Run o o' → Retains o o' :=
  ⟨consistent_of_reachable h, fun _ hrun => retains_of_run (consistent_of_reachable h) hrun⟩

/-- An order that is shipped and then cancelled still has its items and its tracking number. -/
theorem fields_of_run_cancelled :
    ∃ o o' : Order, Reachable o ∧ Run o o' ∧ o.status = .shipped ∧ o'.status = .cancelled ∧
      o.cancelledReason = none ∧ o'.cancelledReason = some "lost" ∧
      o'.trackingNumber = o.trackingNumber ∧ o'.carrier.isSome ∧ o'.items = o.items ∧
      ∀ item ∈ o'.items, 0 < item.quantity := by
  let now : Timestamp := ⟨⟨1970, 1, 1, by decide, by decide⟩, 0, 0, by decide, by decide⟩
  have hrun := (((Relation.ReflTransGen.refl (r := Step) (a := draft)).tail
    ⟨now, .create ⟨Uuid.nil⟩ [⟨Uuid.nil, 1⟩], _, rfl, rfl⟩).tail
    ⟨now, .confirm, _, rfl, rfl⟩).tail ⟨now, .ship "1Z" "post", _, rfl, rfl⟩
  have hcancelled := hrun.tail ⟨now, .cancel (some "lost") none, _, rfl, rfl⟩
  obtain ⟨hshipped, hretains⟩ := fields_of_run hrun
  have hfields := (fields_of_run hcancelled).1
  have hkept := hretains _ (.single ⟨now, .cancel (some "lost") none, _, rfl, rfl⟩)
  refine ⟨_, _, hrun, .single ⟨now, .cancel (some "lost") none, _, rfl, rfl⟩, rfl, rfl, rfl, rfl,
    hkept.trackingNumber nofun, hfields.carrier.1 rfl, (hkept.items ?_).2,
    hfields.quantities nofun⟩
  rintro (hstatus | hstatus) <;> cases hstatus

end Order

end EventSourcing
