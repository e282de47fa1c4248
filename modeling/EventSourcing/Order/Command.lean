import EventSourcing.Dispatch
import EventSourcing.Order.Basic

/-!
# Commands on orders

What can be asked of an order, and how each request is retried. Cancelling is never repeated.
Shipping has a policy of its own and is not repeated after a timeout, since the parcel may be on
its way. The other commands follow the dispatcher.
-/

namespace EventSourcing

namespace Order

inductive Command where
  | create (customer : CustomerId) (items : List Item)
  | updateItems (items : List Item) (reason : Option String)
  | confirm
  | ship (trackingNumber carrier : String)
  | deliver (signature : Option String)
  | cancel (reason : Option String) (cancelledBy : Option Uuid)
deriving DecidableEq

namespace Command

def name : Command → String
  | create .. => "CreateOrder"
  | updateItems .. => "UpdateItems"
  | confirm => "ConfirmOrder"
  | ship .. => "ShipOrder"
  | deliver _ => "DeliverOrder"
  | cancel .. => "CancelOrder"

/-- Whether a command keeps retry rules of its own. -/
def isRetryable : Command → Bool
  | ship .. | cancel .. => true
  | _ => false

/-- The policy that a command prefers; `jitter` is where its offsets come from. -/
def policy (jitter : Retry.JitterSource) : Command → Retry.Policy
  | cancel .. => .never
  | _ =>
    .backoff ((((Retry.Backoff.default jitter).withMaxAttempts 5).withBaseDelay
      (.ofMilliseconds 50)).withMaxDelay (.ofMilliseconds 30000))

/-- Whether a command may be repeated under a policy after an error of a kind. -/
def allows (c : Command) (p : Retry.Policy) (kind : ErrorKind) : Bool :=
  match c with
  | ship .. => kind ≠ .timeout && p.isRetryable kind
  | _ => p.isRetryable kind

/-- The retry rules of a command; a dispatcher asks only for those of a command that keeps its
own. -/
def rules (jitter : Retry.JitterSource) (c : Command) : RetryRules where
  policy := c.policy jitter
  allows := c.allows

/-- A command as the dispatcher sees it. -/
def operation (jitter : Retry.JitterSource) (c : Command) : Operation where
  name := c.name
  own := if c.isRetryable then some (c.rules jitter) else none

end Command

end Order

end EventSourcing
