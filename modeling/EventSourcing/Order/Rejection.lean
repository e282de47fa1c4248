import EventSourcing.Order.Basic

/-!
# Rejections

Why an order refuses a command or an event, and why handling a command fails.
-/

namespace EventSourcing

namespace Order

inductive Rejection where
  | alreadyCancelled
  | alreadyConfirmed
  | notConfirmed
  | notShipped
  | invalidTransition (status : Status)
  | emptyItems
  | invalidQuantity (quantity : Int32)
  | alreadyCreated
  | notInitialized
deriving DecidableEq

namespace Rejection

/-- The name of a rejection, which says nothing of the status or the quantity in it. -/
def name : Rejection → String
  | alreadyCancelled => "AlreadyCancelled"
  | alreadyConfirmed => "AlreadyConfirmed"
  | notConfirmed => "NotConfirmed"
  | notShipped => "NotShipped"
  | invalidTransition _ => "InvalidStatusTransition"
  | emptyItems => "EmptyItems"
  | invalidQuantity _ => "InvalidQuantity"
  | alreadyCreated => "AlreadyCreated"
  | notInitialized => "NotInitialized"

def message : Rejection → String
  | alreadyCancelled => "Order is already cancelled"
  | alreadyConfirmed => "Order is already confirmed"
  | notConfirmed => "Order must be confirmed before shipping"
  | notShipped => "Order must be shipped before delivery"
  | invalidTransition status => "Cannot modify order in status: " ++ status.name
  | emptyItems => "Order items cannot be empty"
  | invalidQuantity quantity => "Invalid item quantity: " ++ toString quantity.toInt
  | alreadyCreated => "Order already created"
  | notInitialized => "Aggregate not initialized"

def kind : Rejection → ErrorKind
  | alreadyCreated | notInitialized => .eventApplication
  | emptyItems | invalidQuantity _ => .validation
  | _ => .businessRule

instance : Classified Rejection where
  kind := kind

end Rejection

/-- Why a command on an order failed: the order rejected it, or event sourcing failed. -/
inductive Failure where
  | rejected (cause : Rejection)
  | kernel (fault : Fault Rejection)

namespace Failure

def message : Failure → String
  | rejected cause => "Command rejected: " ++ cause.message
  | kernel fault => fault.message Rejection.message

def kind : Failure → ErrorKind
  | rejected cause => cause.kind
  | kernel fault => fault.kind

instance : Classified Failure where
  kind := kind

end Failure

end Order

end EventSourcing
