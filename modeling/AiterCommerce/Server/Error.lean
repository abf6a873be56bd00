import AiterCommerce.Core.Checkout
import AiterCommerce.Core.Order
import AiterCommerce.Core.Store

namespace AiterCommerce.Server

open AiterCommerce.Core

inductive RazorpayError
  | config (message : String)
  | http (message : String)
  | api (status : UInt16) (body : String)
  | signature (message : String)
  deriving DecidableEq

namespace RazorpayError

def display : RazorpayError → String
  | config message => "razorpay config error: " ++ message
  | http message => "razorpay request failed: " ++ message
  | api status body =>
      "razorpay API error (HTTP " ++ toString status.toNat ++ "): " ++ body
  | signature message => "razorpay webhook signature verification failed: " ++ message

end RazorpayError

inductive ReserveError
  | notActive
  | limitExceeded (remaining : Int64)
  | deviceMismatch
  | currencyMismatch (currency : Currency)
  | invalidAmount (message : String)
  deriving DecidableEq

inductive ApiError
  | notFound
  | conflict (message : String)
  | store (e : StoreError)
  | checkout (e : CheckoutError)
  | pricing (e : PricingError)
  | razorpay (e : RazorpayError)
  | unknownProduct (productId : String)
  | currencyMismatch (productId : String) (expected got : Currency)
  | spendLimit (message : String)
  | consentNotFound
  | reserve (e : ReserveError)
  deriving DecidableEq

inductive WebhookError
  | config (message : String)
  | signature (message : String)
  | invalidJson (message : String)
  | noOrderReference
  | orderNotFound (orderId : String)
  | orderState (message : String)
  | amountMismatch (expected got : Int64)
  | store (e : StoreError)
  deriving DecidableEq

/-- A failed request as its status and its error text. -/
structure HttpError where
  status : Nat
  message : String
  deriving DecidableEq

def WebhookError.ofRazorpay : RazorpayError → WebhookError
  | .config message => .config message
  | .signature message => .signature message
  | other => .signature other.display

end AiterCommerce.Server
