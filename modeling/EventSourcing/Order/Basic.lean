import EventSourcing.Event

/-!
# Orders

A customer orders items; the order is confirmed, shipped and delivered, or it is cancelled. A
draft is an order of which nothing is known yet.
-/

namespace EventSourcing

namespace Order

def idKind : IdKind := ⟨"order", "OrderId"⟩

def customerKind : IdKind := ⟨"customer", "CustomerId"⟩

abbrev Id := AggregateId idKind

abbrev CustomerId := AggregateId customerKind

structure Item where
  product : Uuid
  quantity : Int32
deriving DecidableEq

inductive Status where
  | draft
  | created
  | confirmed
  | shipped
  | delivered
  | cancelled
deriving DecidableEq

namespace Status

def all : List Status := [draft, created, confirmed, shipped, delivered, cancelled]

/-- The name of a status, in stored data as in diagnostic texts. -/
def name : Status → String
  | draft => "Draft"
  | created => "Created"
  | confirmed => "Confirmed"
  | shipped => "Shipped"
  | delivered => "Delivered"
  | cancelled => "Cancelled"

def ofName? (s : String) : Option Status :=
  all.find? fun status => status.name = s

/-- Whether an order in this status has come to its end. -/
def isTerminal : Status → Bool
  | delivered | cancelled => true
  | _ => false

def toJson (s : Status) : Json := .text s.name

def ofJson? (v : Json) : Option Status := v.variant?.bind ofName?

end Status

namespace Item

def toJson (item : Item) : Json :=
  .record [("product_id", item.product.toJson), ("quantity", .int item.quantity.toInt)]

def ofJson? (v : Json) : Option Item := do
  let fields ← v.record? ["product_id", "quantity"]
  return {
    product := ← fields.required "product_id" Uuid.ofJson?
    quantity := ← fields.required "quantity" Json.int32? }

def diagnostic (item : Item) : String :=
  Text.record "OrderItem"
    [("product_id", item.product.text), ("quantity", toString item.quantity.toInt)] true

end Item

end Order

/-- The state of an order. -/
structure Order where
  customer : Option Order.CustomerId
  items : List Order.Item
  status : Order.Status
  createdAt : Option Timestamp
  updatedAt : Option Timestamp
  trackingNumber : Option String
  carrier : Option String
  cancelledReason : Option String
deriving DecidableEq

namespace Order

/-- An order of which nothing is known yet. -/
def draft : Order where
  customer := none
  items := []
  status := .draft
  createdAt := none
  updatedAt := none
  trackingNumber := none
  carrier := none
  cancelledReason := none

/-- The sum of the quantities of items. -/
def quantitySum (items : List Item) : Int64 :=
  items.foldl (fun sum item => sum + item.quantity.toInt64) 0

def totalQuantity (o : Order) : Int64 := quantitySum o.items

/-! ## JSON and diagnostic text -/

def fieldNames : List String :=
  ["customer_id", "items", "status", "created_at", "updated_at", "tracking_number", "carrier",
    "cancelled_reason"]

def toJson (o : Order) : Json :=
  .record [
    ("customer_id", .ofOption AggregateId.toJson o.customer),
    ("items", .array (o.items.map Item.toJson)),
    ("status", o.status.toJson),
    ("created_at", .ofOption Timestamp.toJson o.createdAt),
    ("updated_at", .ofOption Timestamp.toJson o.updatedAt),
    ("tracking_number", .ofOption Json.text o.trackingNumber),
    ("carrier", .ofOption Json.text o.carrier),
    ("cancelled_reason", .ofOption Json.text o.cancelledReason)]

def ofJson? (v : Json) : Option Order := do
  let fields ← v.record? fieldNames
  return {
    customer := ← fields.optional "customer_id" AggregateId.ofJson?
    items := ← fields.required "items" (Json.list? Item.ofJson?)
    status := ← fields.required "status" Status.ofJson?
    createdAt := ← fields.optional "created_at" Timestamp.ofJson?
    updatedAt := ← fields.optional "updated_at" Timestamp.ofJson?
    trackingNumber := ← fields.optional "tracking_number" Json.text?
    carrier := ← fields.optional "carrier" Json.text?
    cancelledReason := ← fields.optional "cancelled_reason" Json.text? }

def diagnostic (o : Order) : String :=
  Text.record "OrderAggregate" [
    ("customer_id", Text.option (o.customer.map AggregateId.diagnostic)),
    ("items", Text.listing (o.items.map Item.diagnostic)),
    ("status", o.status.name),
    ("created_at", Text.option (o.createdAt.map Timestamp.text)),
    ("updated_at", Text.option (o.updatedAt.map Timestamp.text)),
    ("tracking_number", Text.option (o.trackingNumber.map Text.quoted)),
    ("carrier", Text.option (o.carrier.map Text.quoted)),
    ("cancelled_reason", Text.option (o.cancelledReason.map Text.quoted))] true

end Order

end EventSourcing
