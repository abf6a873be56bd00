import AiterCommerce.Server.Webhook

namespace AiterCommerce.Server

open AiterCommerce.Core Concurrent
open Fallible (locked mapErr okOr adaptErr)

/-- The libraries and the process around the server: cryptography, JSON, the
environment, and whether the HTTP client can build a request. -/
structure Platform where
  crypto : Crypto
  readEnvelope : EnvelopeReader
  env : Env
  buildRequest : PaymentLinkRequest → Except String Unit

def razorpayForState (ext : Platform) (st : AppState) : Except RazorpayError RazorpayConfig :=
  match st.razorpay with
  | some settings => settings.toRazorpayConfig
  | none => RazorpayConfig.fromEnv ext.env

/-- `answer` is what the payment gateway makes of the request. -/
def createPaymentLink (ext : Platform) (client : RazorpayConfig) (amountMinor : Int64)
    (currency : Currency) (orderId : Option String) (answer : Except RazorpayError String) :
    Handler RazorpayError String := do
  let request := buildPaymentLinkRequest client amountMinor currency orderId
  mapErr (fun e => .http ("failed to build request: " ++ e)) (ext.buildRequest request)
  perform (.postPaymentLink request)
  mapErr (fun e => e) answer

structure PaymentLinkResponse where
  orderId : String
  shortUrl : String
  deriving DecidableEq

def orderPaymentLink (ext : Platform) (st : AppState) (id : String)
    (answer : Except RazorpayError String) : Handler ApiError PaymentLinkResponse := do
  let order ← okOr .notFound (← locked .orders (perform (.orders (.get id))))
  if order.paymentReference.isSome then
    throw (.conflict "order is already paid; refusing to mint a new payment link")
  let client ← mapErr .razorpay (razorpayForState ext st)
  let shortUrl ← adaptErr .razorpay
    (createPaymentLink ext client order.totals.total.units order.totals.total.currency
      (some order.id) answer)
  return ⟨order.id, shortUrl⟩

def razorpayErrorResponse : RazorpayError → HttpError
  | .config message => ⟨503, message⟩
  | other => ⟨502, other.display⟩

def webhookErrorResponse : WebhookError → HttpError
  | .config message | .signature message => ⟨401, message⟩
  | .invalidJson message => ⟨400, "invalid webhook payload: " ++ message⟩
  | .noOrderReference => ⟨400, "payment.paid event missing notes.order_id"⟩
  | .orderNotFound id => ⟨400, "unknown order: " ++ id⟩
  | .orderState message => ⟨409, message⟩
  | .amountMismatch expected got =>
      ⟨409, "payment does not match the order total (amount + currency): expected " ++
        toString expected.toInt ++ ", got " ++ toString got.toInt⟩
  | .store e => ⟨500, "store error: " ++ e.debug⟩

structure WebhookResponse where
  paymentId : Option String
  status : String
  deriving DecidableEq

def WebhookOutcome.response : WebhookOutcome → WebhookResponse
  | .paid _ paymentId => ⟨some paymentId, "paid"⟩
  | .alreadyPaid _ paymentId => ⟨some paymentId, "already_paid"⟩
  | .ignored => ⟨none, "ignored"⟩

def razorpayWebhook (ext : Platform) (st : AppState) (signature : Option String) (body : Bytes)
    (now : Int64) : Handler HttpError WebhookResponse := do
  let signature ← okOr ⟨401, "missing x-razorpay-signature header"⟩ signature
  let client ← mapErr razorpayErrorResponse (razorpayForState ext st)
  let outcome ← adaptErr webhookErrorResponse
    (processPaymentWebhook ext.crypto ext.readEnvelope client body signature now)
  perform .webhookVerified
  return outcome.response

end AiterCommerce.Server
