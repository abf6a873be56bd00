import AiterCommerce.Server.State

namespace AiterCommerce.Server

open AiterCommerce.Core Concurrent
open Fallible (locked mapErr okOr adaptErr)

inductive WebhookOutcome
  | paid (orderId paymentId : String)
  | alreadyPaid (orderId paymentId : String)
  | ignored
  deriving DecidableEq

structure WebhookPaymentEntity where
  id : String
  amount : Int64
  currency : Option String
  notes : Finmap (fun _ : String => String)

structure WebhookPayment where
  entity : WebhookPaymentEntity

structure WebhookPayload where
  payment : WebhookPayment

structure WebhookEnvelope where
  event : String
  payload : WebhookPayload

abbrev EnvelopeReader := Bytes → Except String WebhookEnvelope

def eqIgnoreAsciiCase (a b : String) : Bool :=
  a.toList.map Char.toLower == b.toList.map Char.toLower

/-- A missing currency is accepted. -/
def currencyMatches (reported : Option String) (expected : Currency) : Bool :=
  reported.all (fun code => eqIgnoreAsciiCase code expected.code)

/-- An order that carries a reference already is returned untouched. -/
def reconcilePayment (orderId paymentId : String) (payment : WebhookPaymentEntity)
    (now : Int64) : Handler WebhookError WebhookOutcome :=
  locked .orders do
    let order ← okOr (.orderNotFound orderId) (← perform (.orders (.get orderId)))
    match order.paymentReference with
    | some existing => return .alreadyPaid orderId existing
    | none =>
        if payment.amount ≠ order.totals.total.units ∨
            ¬ currencyMatches payment.currency order.totals.total.currency then
          throw (.amountMismatch order.totals.total.units payment.amount)
        let confirmed ← mapErr (fun e => .orderState e.debug) (order.applyEvent .confirm now)
        let paid := { confirmed with paymentReference := some paymentId }
        mapErr .store (← perform (.orders (.update orderId paid)))
        return .paid orderId paymentId

/-- The signature is checked on the raw body before anything else. -/
def processPaymentWebhook (crypto : Crypto) (reader : EnvelopeReader) (client : RazorpayConfig)
    (body : Bytes) (signature : String) (now : Int64) : Handler WebhookError WebhookOutcome := do
  mapErr .ofRazorpay (verifyWebhookSignature crypto client body signature)
  let envelope ← mapErr .invalidJson (reader body)
  if envelope.event ≠ "payment.paid" then return .ignored
  else
    let entity := envelope.payload.payment.entity
    let orderId ← okOr .noOrderReference (entity.notes.lookup "order_id")
    reconcilePayment orderId entity.id entity now

def Settles (payment : WebhookPaymentEntity) (order : Order) : Prop :=
  payment.amount = order.totals.total.units ∧
    currencyMatches payment.currency order.totals.total.currency = true

instance (payment : WebhookPaymentEntity) (order : Order) : Decidable (Settles payment order) :=
  inferInstanceAs (Decidable (_ ∧ _))

theorem settles_iff {payment : WebhookPaymentEntity} {order : Order} :
    Settles payment order ↔ ¬ (payment.amount ≠ order.totals.total.units ∨
      ¬ currencyMatches payment.currency order.totals.total.currency = true) := by
  rw [Settles, not_or, not_not, not_not]

section Run

variable {crypto : Crypto} {reader : EnvelopeReader} {client : RazorpayConfig} {body : Bytes}
  {signature : String} {now : Int64} {d : Data}

theorem reconcilePayment_run {orderId paymentId : String} {payment : WebhookPaymentEntity} :
    (reconcilePayment orderId paymentId payment now).run Op.exec d =
    match d.orders.get orderId with
    | none => (.error (.orderNotFound orderId), d)
    | some order => match order.paymentReference with
      | some existing => (.ok (.alreadyPaid orderId existing), d)
      | none =>
          if Settles payment order then match order.applyEvent .confirm now with
            | .error e => (.error (.orderState e.debug), d)
            | .ok confirmed => (.ok (.paid orderId paymentId), { d with
                orders := d.orders.insert orderId
                  { confirmed with paymentReference := some paymentId } })
          else (.error (.amountMismatch order.totals.total.units payment.amount), d) := by
  rw [reconcilePayment, Fallible.run_locked, run_perform_bind]
  dsimp only [Op.exec, StoreOp.exec]
  rw [run_okOr_bind]
  cases ho : d.orders.get orderId with
  | none => rfl
  | some order =>
      dsimp only
      cases order.paymentReference with
      | some existing => rfl
      | none =>
          dsimp only
          by_cases hs : Settles payment order
          · rw [if_neg (settles_iff.mp hs), if_pos hs, run_mapErr_bind]
            cases order.applyEvent .confirm now with
            | error e => rfl
            | ok confirmed =>
                dsimp only
                rw [run_perform_bind]
                simp only [Op.exec, StoreOp.exec, InMemoryStore.update_of_some ho,
                  StoreOp.written]
                rfl
          · rw [if_pos (not_not.mp (settles_iff.not.mp hs)), if_neg hs]
            rfl

/-- What a verified delivery reports as paid, under the order it names. -/
def reported (crypto : Crypto) (reader : EnvelopeReader) (client : RazorpayConfig) (body : Bytes)
    (signature : String) : Except WebhookError (Option (String × WebhookPaymentEntity)) :=
  match verifyWebhookSignature crypto client body signature with
  | .error e => .error (.ofRazorpay e)
  | .ok () => match reader body with
    | .error message => .error (.invalidJson message)
    | .ok envelope =>
        if envelope.event ≠ "payment.paid" then .ok none
        else match envelope.payload.payment.entity.notes.lookup "order_id" with
          | none => .error .noOrderReference
          | some orderId => .ok (some (orderId, envelope.payload.payment.entity))

theorem processPaymentWebhook_run :
    (processPaymentWebhook crypto reader client body signature now).run Op.exec d =
    match reported crypto reader client body signature with
    | .error e => (.error e, d)
    | .ok none => (.ok .ignored, d)
    | .ok (some (orderId, entity)) =>
        (reconcilePayment orderId entity.id entity now).run Op.exec d := by
  rw [processPaymentWebhook, run_mapErr_bind, reported]
  cases verifyWebhookSignature crypto client body signature with
  | error e => rfl
  | ok u =>
      dsimp only
      rw [run_mapErr_bind]
      cases reader body with
      | error e => rfl
      | ok envelope =>
          dsimp only
          split
          · rfl
          · rw [run_okOr_bind]
            cases envelope.payload.payment.entity.notes.lookup "order_id" <;> rfl

theorem processPaymentWebhook_run_error {e : WebhookError}
    (h : ((processPaymentWebhook crypto reader client body signature now).run Op.exec d).1 =
      .error e) :
    ((processPaymentWebhook crypto reader client body signature now).run Op.exec d).2 = d := by
  rw [processPaymentWebhook_run] at h ⊢
  split
  next => rfl
  next => rfl
  next orderId entity hr =>
    rw [hr] at h
    simp only [reconcilePayment_run] at h ⊢
    repeat' split
    all_goals first | rfl | simp_all

end Run

end AiterCommerce.Server
