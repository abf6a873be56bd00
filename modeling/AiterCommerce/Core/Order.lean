import AiterCommerce.Core.Pricing

namespace AiterCommerce.Core

inductive OrderStatus
  | placed | confirmed | shipped | delivered | cancelled
  deriving DecidableEq

inductive OrderEvent
  | confirm | ship | deliver | cancel
  deriving DecidableEq

def OrderEvent.targetStatus : OrderEvent → OrderStatus
  | confirm => .confirmed
  | ship => .shipped
  | deliver => .delivered
  | cancel => .cancelled

def OrderStatus.name : OrderStatus → String
  | placed => "Placed"
  | confirmed => "Confirmed"
  | shipped => "Shipped"
  | delivered => "Delivered"
  | cancelled => "Cancelled"

def OrderEvent.name : OrderEvent → String
  | confirm => "Confirm"
  | ship => "Ship"
  | deliver => "Deliver"
  | cancel => "Cancel"

inductive OrderError
  | illegalTransition (src : OrderStatus) (event : OrderEvent)
  deriving DecidableEq

def OrderError.debug : OrderError → String
  | illegalTransition src event =>
      "IllegalTransition \x7b from: " ++ src.name ++ ", event: " ++ event.name ++ " \x7d"

/-- An event whose target is the current status is a legal retry. -/
def orderCanTransition (src : OrderStatus) (event : OrderEvent) : Bool :=
  if src = event.targetStatus then true
  else match src, event with
    | .placed, .confirm | .placed, .cancel => true
    | .confirmed, .ship | .confirmed, .cancel => true
    | .shipped, .deliver => true
    | _, _ => false

structure TimelineEntry where
  toStatus : OrderStatus
  atTime : Int64
  deriving DecidableEq

structure Order where
  id : String
  checkoutSessionId : String
  totals : Totals
  status : OrderStatus
  timeline : List TimelineEntry
  paymentReference : Option String
  deriving DecidableEq

namespace Order

def new (id checkoutSessionId : String) (totals : Totals) (now : Int64) : Order where
  id := id
  checkoutSessionId := checkoutSessionId
  totals := totals
  status := .placed
  timeline := [⟨.placed, now⟩]
  paymentReference := none

/-- A retry leaves the order alone; any other legal event extends the timeline. -/
def applyEvent (order : Order) (event : OrderEvent) (now : Int64) : Except OrderError Order :=
  if orderCanTransition order.status event then
    if order.status = event.targetStatus then .ok order
    else .ok { order with
      status := event.targetStatus
      timeline := order.timeline ++ [⟨event.targetStatus, now⟩] }
  else .error (.illegalTransition order.status event)

theorem applyEvent_placed_confirm {order : Order} (h : order.status = .placed) (now : Int64) :
    order.applyEvent .confirm now = .ok { order with
      status := .confirmed, timeline := order.timeline ++ [⟨.confirmed, now⟩] } := by
  simp [applyEvent, h, orderCanTransition, OrderEvent.targetStatus]

theorem applyEvent_frame {order order' : Order} {event : OrderEvent} {now : Int64}
    (h : order.applyEvent event now = .ok order') :
    order'.id = order.id ∧ order'.checkoutSessionId = order.checkoutSessionId ∧
      order'.totals = order.totals ∧ order'.paymentReference = order.paymentReference := by
  rw [applyEvent] at h
  split at h
  · split at h <;> cases h <;> exact ⟨rfl, rfl, rfl, rfl⟩
  · cases h

end Order

end AiterCommerce.Core
