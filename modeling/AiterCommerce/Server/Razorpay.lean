import AiterCommerce.Core.Signing
import AiterCommerce.Server.Error
import Mathlib.Data.List.DropRight

namespace AiterCommerce.Server

open AiterCommerce.Core

def defaultBaseUrl : String := "https://api.razorpay.com"

inductive RazorpayMode
  | sandbox | live
  deriving DecidableEq

def RazorpayMode.fromEnv (value : String) : Except RazorpayError RazorpayMode :=
  if value = "sandbox" then .ok .sandbox
  else if value = "live" then .ok .live
  else .error (.config ("RAZORPAY_MODE must be 'sandbox' or 'live', got '" ++ value ++ "'"))

structure RazorpayConfig where
  keyId : String
  keySecret : String
  mode : RazorpayMode
  baseUrl : String
  webhookSecret : Option String
  deriving DecidableEq

inductive VarError
  | notPresent
  | notUnicode
  deriving DecidableEq

abbrev Env := String → Except VarError String

def readEnv (env : Env) (name : String) : Except RazorpayError String :=
  (env name).mapError (fun _ => .config (name ++ " is required"))

def optionalEnv {α : Type} (env : Env) (name : String) (default : α)
    (read : String → Except RazorpayError α) : Except RazorpayError α :=
  match env name with
  | .ok value => read value
  | .error .notPresent => .ok default
  | .error .notUnicode => .error (.config (name ++ " must be a valid UTF-8 string"))

namespace RazorpayConfig

def fromEnv (env : Env) : Except RazorpayError RazorpayConfig := do
  let keyId ← readEnv env "RAZORPAY_KEY_ID"
  let keySecret ← readEnv env "RAZORPAY_KEY_SECRET"
  let mode ← optionalEnv env "RAZORPAY_MODE" .sandbox RazorpayMode.fromEnv
  let baseUrl ← optionalEnv env "RAZORPAY_BASE_URL" defaultBaseUrl .ok
  let webhookSecret := (env "RAZORPAY_WEBHOOK_SECRET").toOption
  return { keyId, keySecret, mode, baseUrl, webhookSecret }

theorem fromEnv_webhookSecret {env : Env} {config : RazorpayConfig}
    (h : fromEnv env = .ok config) :
    config.webhookSecret = (env "RAZORPAY_WEBHOOK_SECRET").toOption := by
  simp only [fromEnv, bind, Except.bind, pure, Except.pure] at h
  repeat' split at h
  all_goals cases h
  rfl

end RazorpayConfig

def hexDigit (n : Nat) : Char := "0123456789abcdef".toList.getD n '0'

def toHex (bytes : Bytes) : String :=
  String.ofList (bytes.flatMap (fun b => [hexDigit (b.toNat / 16), hexDigit (b.toNat % 16)]))

/-- The comparison runs over the whole buffers. -/
def constantTimeEq (a b : Bytes) : Bool :=
  if a.length ≠ b.length then false
  else (a.zip b).foldl (fun diff p => diff ||| (p.1 ^^^ p.2)) (0 : UInt8) == 0

section Compare

theorem or_xor_eq_zero (d x y : UInt8) : d ||| (x ^^^ y) = 0 ↔ d = 0 ∧ x = y := by
  rw [UInt8.or_eq_zero_iff, UInt8.xor_eq_zero_iff]

theorem foldl_diff_eq_zero {a b : Bytes} (h : a.length = b.length) (d : UInt8) :
    (a.zip b).foldl (fun diff p => diff ||| (p.1 ^^^ p.2)) d = 0 ↔ d = 0 ∧ a = b := by
  induction a generalizing b d with
  | nil =>
      obtain rfl := List.eq_nil_of_length_eq_zero h.symm
      simp
  | cons x a ih =>
      cases b with
      | nil => simp at h
      | cons y b =>
          simp only [List.zip_cons_cons, List.foldl_cons, ih (Nat.succ.inj h), or_xor_eq_zero,
            List.cons.injEq, and_assoc]

theorem constantTimeEq_iff {a b : Bytes} : constantTimeEq a b = true ↔ a = b := by
  rw [constantTimeEq]
  split
  next h => exact ⟨fun hff => by simp at hff, fun hab => absurd (congrArg List.length hab) h⟩
  next h => simp [foldl_diff_eq_zero (not_not.mp h)]

end Compare

/-- The signature is the hexadecimal HMAC of the raw body. A key of any length
is accepted, so setting up the HMAC never fails. -/
def verifyWebhookSignature (crypto : Crypto) (config : RazorpayConfig) (body : Bytes)
    (signature : String) : Except RazorpayError Unit :=
  match config.webhookSecret with
  | none => .error (.config "RAZORPAY_WEBHOOK_SECRET is not set; refusing to verify webhook")
  | some secret =>
      let expected := toHex (crypto.hmacSha256 (utf8 secret) body)
      if constantTimeEq (utf8 expected) (utf8 signature) then .ok ()
      else .error (.signature "x-razorpay-signature mismatch")

theorem verifyWebhookSignature_eq_ok {crypto : Crypto} {config : RazorpayConfig} {body : Bytes}
    {signature : String} : verifyWebhookSignature crypto config body signature = .ok () ↔
      ∃ secret, config.webhookSecret = some secret ∧
        signature = toHex (crypto.hmacSha256 (utf8 secret) body) := by
  rw [verifyWebhookSignature]
  cases config.webhookSecret with
  | none => simp
  | some secret =>
      simp only [constantTimeEq_iff, utf8_injective.eq_iff, Option.some.injEq, exists_eq_left',
        eq_comm (a := signature)]
      split <;> simp_all

structure PaymentLinkRequest where
  url : String
  keyId : String
  keySecret : String
  amount : Int64
  currency : Currency
  acceptPartial : Bool
  orderId : Option String
  deriving DecidableEq

def trimEndSlashes (url : String) : String := String.ofList (url.toList.rdropWhile (· == '/'))

def buildPaymentLinkRequest (config : RazorpayConfig) (amountMinor : Int64) (currency : Currency)
    (orderId : Option String) : PaymentLinkRequest where
  url := trimEndSlashes config.baseUrl ++ "/v1/payment_links"
  keyId := config.keyId
  keySecret := config.keySecret
  amount := amountMinor
  currency := currency
  acceptPartial := false
  orderId := orderId

end AiterCommerce.Server
