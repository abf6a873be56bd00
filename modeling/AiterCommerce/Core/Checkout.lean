import AiterCommerce.Core.Pricing

namespace AiterCommerce.Core

inductive CheckoutStatus
  | pending | ready | paid | cancelled | failed
  deriving DecidableEq

def CheckoutStatus.isTerminal : CheckoutStatus → Bool
  | paid | cancelled | failed => true
  | pending | ready => false

inductive Fulfillment
  | shipping (address : String)
  | pickup
  | digital
  deriving DecidableEq

inductive CheckoutEvent
  | markReady | markPaid | markCancelled | markFailed
  deriving DecidableEq

def CheckoutEvent.targetStatus : CheckoutEvent → CheckoutStatus
  | markReady => .ready
  | markPaid => .paid
  | markCancelled => .cancelled
  | markFailed => .failed

def CheckoutStatus.name : CheckoutStatus → String
  | pending => "Pending"
  | ready => "Ready"
  | paid => "Paid"
  | cancelled => "Cancelled"
  | failed => "Failed"

def CheckoutEvent.name : CheckoutEvent → String
  | markReady => "MarkReady"
  | markPaid => "MarkPaid"
  | markCancelled => "MarkCancelled"
  | markFailed => "MarkFailed"

inductive CheckoutError
  | illegalTransition (src : CheckoutStatus) (event : CheckoutEvent)
  deriving DecidableEq

def CheckoutError.debug : CheckoutError → String
  | illegalTransition src event =>
      "IllegalTransition \x7b from: " ++ src.name ++ ", event: " ++ event.name ++ " \x7d"

/-- An event whose target is the current status is a legal retry. -/
def canTransition (src : CheckoutStatus) (event : CheckoutEvent) : Bool :=
  if src = event.targetStatus then true
  else match src, event with
    | .pending, .markReady | .pending, .markCancelled | .pending, .markFailed => true
    | .ready, .markPaid | .ready, .markCancelled | .ready, .markFailed => true
    | _, _ => false

/-- A snapshot of a cart held for payment. -/
structure CheckoutSession where
  id : String
  cart : Cart
  currency : Currency
  fulfillment : Fulfillment
  status : CheckoutStatus
  expiresAt : Int64
  totals : Totals
  deriving DecidableEq

namespace CheckoutSession

def new (id : String) (cart : Cart) (fulfillment : Fulfillment) (expiresAt : Int64)
    (totals : Totals) : CheckoutSession where
  id := id
  cart := cart
  currency := cart.currency
  fulfillment := fulfillment
  status := .pending
  expiresAt := expiresAt
  totals := totals

def applyEvent (session : CheckoutSession) (event : CheckoutEvent) :
    Except CheckoutError CheckoutSession :=
  if canTransition session.status event then .ok { session with status := event.targetStatus }
  else .error (.illegalTransition session.status event)

@[simp] theorem new_id (id : String) (cart : Cart) (fulfillment : Fulfillment) (expiresAt : Int64)
    (totals : Totals) : (new id cart fulfillment expiresAt totals).id = id := rfl

theorem applyEvent_ok {x y : CheckoutSession} {event : CheckoutEvent}
    (h : x.applyEvent event = .ok y) :
    canTransition x.status event = true ∧ y = { x with status := event.targetStatus } := by
  rw [applyEvent] at h
  split at h
  next hc => cases h; exact ⟨hc, rfl⟩
  next => cases h

end CheckoutSession

theorem canTransition_of_terminal {src : CheckoutStatus} {event : CheckoutEvent}
    (ht : src.isTerminal = true) (h : canTransition src event = true) :
    event.targetStatus = src := by
  cases src <;> cases event <;> first | rfl | (revert ht h; decide)

end AiterCommerce.Core
