import AiterCommerce.Server.Envelope
import AiterCommerce.Server.System

namespace AiterCommerce.Guarantees.Acknowledged

open AiterCommerce.Core Concurrent Server Encoding.Json

variable {lib : JsonLibrary} {crypto : Crypto} {client : RazorpayConfig} {body : Bytes}
  {signature event : String} {now : Int64} {ms : List (String × Value)}

theorem reported_other (hbody : lib.parse body = some (.object ms))
    (hevent : ("event", .string event) ∈ ms) (hne : event ≠ "payment.paid")
    (hsig : verifyWebhookSignature crypto client body signature = .ok ()) :
    reported crypto lib.readEnvelope client body signature =
      if (WebhookEnvelope.record.read (.object ms)).isSome then .ok none
      else .error (.invalidJson (lib.message body)) := by
  have hread : lib.readEnvelope body =
      (WebhookEnvelope.record.read (.object ms)).elim (.error (lib.message body)) .ok := by
    rw [JsonLibrary.readEnvelope, hbody, Option.bind_some]
    cases WebhookEnvelope.record.read (.object ms) <;> rfl
  simp only [reported, hsig, hread]
  cases henv : WebhookEnvelope.record.read (.object ms) with
  | none => rfl
  | some envelope =>
      have hother : envelope.event ≠ "payment.paid" := by
        rw [envelope_event henv hevent]
        exact hne
      simp [hother]

/-- A verified delivery of another event than a payment is acknowledged, and nothing is
changed, exactly when it has the shape of an envelope with a payment. -/
theorem acknowledged_iff (hbody : lib.parse body = some (.object ms))
    (hevent : ("event", .string event) ∈ ms) (hne : event ≠ "payment.paid")
    (hsig : verifyWebhookSignature crypto client body signature = .ok ()) (now : Int64) (d : Data) :
    (processPaymentWebhook crypto lib.readEnvelope client body signature now).run Op.exec d =
      (.ok .ignored, d) ↔ IsEnvelope ms := by
  rw [processPaymentWebhook_run, reported_other hbody hevent hne hsig, ← envelope_iff]
  split
  next h =>
    split at h
    next hs => cases h
    next hs => exact iff_of_false (by simp) hs
  next h =>
    split at h
    next hs => exact iff_of_true rfl hs
    next hs => cases h
  next h => split at h <;> cases h

def failedPayment (notes : Value) : List (String × Value) :=
  [("event", .string "payment.failed"), ("payload", .object [("payment", .object [("entity", .object
    [("id", .string "pay_1"), ("amount", .int 500), ("notes", notes)])])])]

def delivery (notes : Value) : Bytes := utf8 (Value.object (failedPayment notes)).text

def knowing (notes : Value) : JsonLibrary where
  parse body := if body = delivery notes then some (.object (failedPayment notes)) else none
  message _ := "invalid type: sequence, expected a map"

theorem knowing_parse (notes : Value) :
    (knowing notes).parse (delivery notes) = some (.object (failedPayment notes)) := if_pos rfl

def shopClient : RazorpayConfig :=
  ⟨"rzp_test_1", "key-secret", .sandbox, defaultBaseUrl, some "secret"⟩

def signatureOf (crypto : Crypto) (body : Bytes) : String :=
  toHex (crypto.hmacSha256 (utf8 "secret") body)

theorem signatureOf_verifies (crypto : Crypto) (body : Bytes) :
    verifyWebhookSignature crypto shopClient body (signatureOf crypto body) = .ok () :=
  verifyWebhookSignature_eq_ok.mpr ⟨"secret", rfl, rfl⟩

theorem acknowledged_iff_failed : (processPaymentWebhook Platform.bare.crypto
    (knowing (.object [])).readEnvelope shopClient (delivery (.object []))
    (signatureOf Platform.bare.crypto (delivery (.object []))) 0).run Op.exec
      (Data.new Platform.bare.crypto) = (.ok .ignored, Data.new Platform.bare.crypto) := by
  have hshape : IsEnvelope (failedPayment (.object [])) := envelope_iff.mp (by decide)
  exact (acknowledged_iff (knowing_parse _) List.mem_cons_self (by decide)
    (signatureOf_verifies _ _) 0 _).mpr hshape

/-- A payment that failed is turned down for the empty array that it has for its notes. -/
theorem empty_notes_rejected : ¬ ∀ (lib : JsonLibrary) (crypto : Crypto) (client : RazorpayConfig)
    (body : Bytes) (signature event : String) (ms : List (String × Value)) (now : Int64) (d : Data),
    lib.parse body = some (.object ms) → ("event", .string event) ∈ ms → event ≠ "payment.paid" →
    verifyWebhookSignature crypto client body signature = .ok () →
      (processPaymentWebhook crypto lib.readEnvelope client body signature now).run Op.exec d =
        (.ok .ignored, d) := by
  intro h
  let crypto := Platform.bare.crypto
  have hsig := signatureOf_verifies crypto (delivery (.array []))
  have hrun := h (knowing (.array [])) crypto shopClient _ _ _ _ 0 (Data.new crypto)
    (knowing_parse _) List.mem_cons_self (by decide) hsig
  have hnone : (WebhookEnvelope.record.read (.object (failedPayment (.array [])))).isSome = false := by
    decide
  rw [processPaymentWebhook_run, reported_other (knowing_parse _) List.mem_cons_self (by decide) hsig,
    if_neg (by rw [hnone]; exact Bool.false_ne_true)] at hrun
  cases hrun

end AiterCommerce.Guarantees.Acknowledged
