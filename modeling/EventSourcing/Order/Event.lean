import EventSourcing.Order.Basic

/-!
# Events of orders

What can happen to an order, and the stored text of it: an object with the name of the event under
`type` and its fields under `data`.
-/

namespace EventSourcing

namespace Order

inductive Event where
  | created (customer : CustomerId) (items : List Item) (createdAt : Timestamp)
  | itemsUpdated (items : List Item) (reason : Option String)
  | confirmed (confirmedAt : Timestamp)
  | shipped (trackingNumber carrier : String) (shippedAt : Timestamp)
  | delivered (deliveredAt : Timestamp) (signature : Option String)
  | cancelled (reason : Option String) (cancelledBy : Option Uuid)
deriving DecidableEq

namespace Event

/-- The tag of an event in its envelope. -/
def tag : Event → String
  | created .. => "OrderCreated"
  | itemsUpdated .. => "OrderItemsUpdated"
  | confirmed .. => "OrderConfirmed"
  | shipped .. => "OrderShipped"
  | delivered .. => "OrderDelivered"
  | cancelled .. => "OrderCancelled"

/-- The tags of all events. -/
def tags : List String :=
  ["OrderCreated", "OrderItemsUpdated", "OrderConfirmed", "OrderShipped", "OrderDelivered",
    "OrderCancelled"]

/-- The name of an event in its stored text. -/
def name : Event → String
  | created .. => "Created"
  | itemsUpdated .. => "ItemsUpdated"
  | confirmed .. => "Confirmed"
  | shipped .. => "Shipped"
  | delivered .. => "Delivered"
  | cancelled .. => "Cancelled"

def content : Event → Json
  | created customer items createdAt =>
    .record [("customer_id", customer.toJson), ("items", .array (items.map Item.toJson)),
      ("created_at", createdAt.toJson)]
  | itemsUpdated items reason =>
    .record [("items", .array (items.map Item.toJson)), ("reason", .ofOption Json.text reason)]
  | confirmed confirmedAt => .record [("confirmed_at", confirmedAt.toJson)]
  | shipped trackingNumber carrier shippedAt =>
    .record [("tracking_number", .text trackingNumber), ("carrier", .text carrier),
      ("shipped_at", shippedAt.toJson)]
  | delivered deliveredAt signature =>
    .record [("delivered_at", deliveredAt.toJson), ("signature", .ofOption Json.text signature)]
  | cancelled reason cancelledBy =>
    .record [("reason", .ofOption Json.text reason),
      ("cancelled_by", .ofOption Uuid.toJson cancelledBy)]

def toJson (e : Event) : Json :=
  .record [("type", .text e.name), ("data", e.content)]

/-! ## Reading -/

def created? (v : Json) : Option Event := do
  let fields ← v.record? ["customer_id", "items", "created_at"]
  return .created (← fields.required "customer_id" AggregateId.ofJson?)
    (← fields.required "items" (Json.list? Item.ofJson?))
    (← fields.required "created_at" Timestamp.ofJson?)

def itemsUpdated? (v : Json) : Option Event := do
  let fields ← v.record? ["items", "reason"]
  return .itemsUpdated (← fields.required "items" (Json.list? Item.ofJson?))
    (← fields.optional "reason" Json.text?)

def confirmed? (v : Json) : Option Event := do
  let fields ← v.record? ["confirmed_at"]
  return .confirmed (← fields.required "confirmed_at" Timestamp.ofJson?)

def shipped? (v : Json) : Option Event := do
  let fields ← v.record? ["tracking_number", "carrier", "shipped_at"]
  return .shipped (← fields.required "tracking_number" Json.text?)
    (← fields.required "carrier" Json.text?) (← fields.required "shipped_at" Timestamp.ofJson?)

def delivered? (v : Json) : Option Event := do
  let fields ← v.record? ["delivered_at", "signature"]
  return .delivered (← fields.required "delivered_at" Timestamp.ofJson?)
    (← fields.optional "signature" Json.text?)

def cancelled? (v : Json) : Option Event := do
  let fields ← v.record? ["reason", "cancelled_by"]
  return .cancelled (← fields.optional "reason" Json.text?)
    (← fields.optional "cancelled_by" Uuid.ofJson?)

/-- The event with a name and a content. -/
def ofContent? (name : String) (v : Json) : Option Event :=
  match name with
  | "Created" => created? v
  | "ItemsUpdated" => itemsUpdated? v
  | "Confirmed" => confirmed? v
  | "Shipped" => shipped? v
  | "Delivered" => delivered? v
  | "Cancelled" => cancelled? v
  | _ => none

def ofJson? (v : Json) : Option Event :=
  match v.tagged? with
  | some (name, some content) => ofContent? name content
  | _ => none

def write (e : Event) : String := e.toJson.render

def read (s : String) : Option Event := (Json.parse s).bind ofJson?

end Event

/-- Every event of an order has a stored text, and all are of the first version. -/
def schema : EventSchema Event where
  tags := Event.tags
  tag := Event.tag
  version _ := 1
  write e := some e.write
  read := Event.read

end Order

end EventSourcing
