import EventSourcing.Aggregate
import EventSourcing.Order.Command
import EventSourcing.Order.Event
import EventSourcing.Order.Rejection

/-!
# The life of an order

* `Order.apply` changes an order by an event; nothing but a creation can happen to a draft, and a
  creation to nothing but a draft;
* `Order.decide` turns a command into the event it leads to, or says why not.
-/

namespace EventSourcing

namespace Order

/-- Whether an event can follow in a status. -/
def admits (status : Status) : Event → Except Rejection Unit
  | .created .. => if status = .draft then .ok () else .error .alreadyCreated
  | _ => if status = .draft then .error .notInitialized else .ok ()

/-- The order after an event that can follow. -/
def change (o : Order) : Event → Order
  | .created customer items createdAt =>
    { o with customer := some customer, items := items, status := .created,
             createdAt := some createdAt, updatedAt := some createdAt }
  | .itemsUpdated items _ => { o with items := items }
  | .confirmed confirmedAt => { o with status := .confirmed, updatedAt := some confirmedAt }
  | .shipped trackingNumber carrier shippedAt =>
    { o with status := .shipped, trackingNumber := some trackingNumber, carrier := some carrier,
             updatedAt := some shippedAt }
  | .delivered deliveredAt _ => { o with status := .delivered, updatedAt := some deliveredAt }
  | .cancelled reason _ => { o with status := .cancelled, cancelledReason := reason }

/-- Applies an event, or leaves the order as it is. -/
def apply (e : Event) (o : Order) : Except Rejection Unit × Order :=
  match admits o.status e with
  | .ok () => (.ok (), o.change e)
  | .error r => (.error r, o)

/-- Whether items can be ordered: at least one, and a positive quantity of each. -/
def validate (items : List Item) : Except Rejection Unit :=
  if items.isEmpty then .error .emptyItems
  else
    match items.find? fun item => item.quantity ≤ 0 with
    | some item => .error (.invalidQuantity item.quantity)
    | none => .ok ()

/-- The event that a command leads to at a reading of the clock. -/
def decideEvent (now : Timestamp) (o : Order) : Command → Except Rejection Event
  | .create customer items => do
    if o.status ≠ .draft then throw (.invalidTransition o.status)
    validate items
    return .created customer items now
  | .updateItems items reason => do
    match o.status with
    | .created => pure ()
    | .cancelled => throw .alreadyCancelled
    | status => throw (.invalidTransition status)
    validate items
    return .itemsUpdated items reason
  | .confirm =>
    match o.status with
    | .created => .ok (.confirmed now)
    | .confirmed => .error .alreadyConfirmed
    | status => .error (.invalidTransition status)
  | .ship trackingNumber carrier =>
    match o.status with
    | .confirmed => .ok (.shipped trackingNumber carrier now)
    | .created => .error .notConfirmed
    | status => .error (.invalidTransition status)
  | .deliver signature =>
    if o.status = .shipped then .ok (.delivered now signature) else .error .notShipped
  | .cancel reason cancelledBy =>
    match o.status with
    | .cancelled => .error .alreadyCancelled
    | .created | .confirmed | .shipped => .ok (.cancelled reason cancelledBy)
    | status => .error (.invalidTransition status)

/-- The events that a command leads to: exactly one, or none at all. -/
def decide (now : Timestamp) (o : Order) (c : Command) : Except Rejection (List Event) :=
  match decideEvent now o c with
  | .ok e => .ok [e]
  | .error r => .error r

/-- Orders as an aggregate. -/
def aggregate : Aggregate where
  State := Order
  Event := Event
  Command := Command
  Error := Rejection
  name := "order"
  idKind := idKind
  schema := schema
  initial := draft
  apply := apply
  decide := decide

end Order

end EventSourcing
