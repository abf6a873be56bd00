import AiterCommerce.Server.System

namespace AiterCommerce.Guarantees.FailClosed

open AiterCommerce.Core Server

def secretKey : String := "RAZORPAY_WEBHOOK_SECRET"

variable {env : Env} {path : String} {read : Except FileError String}

/-- Neither layer of the configuration has a value for the webhook secret; an
empty one counts as none. -/
def NoSecret (env : Env) (path : String) (read : Except FileError String) : Prop :=
  (∀ value, env secretKey = .ok value → value = "") ∧
    ∀ loaded file value, fileLayer path read = .ok (loaded, file) →
      file.lookup secretKey = some value → value = ""

inductive Built (env : Env) (path : String) (read : Except FileError String)
    (client : RazorpayConfig) : Prop
  | fromSettings (config : Config) (hl : load path read env = .ok config)
      (hc : config.razorpay.toRazorpayConfig = .ok client)
  | fromEnv (hc : RazorpayConfig.fromEnv env = .ok client)

/-- Every webhook is rejected as a configuration error, and none changes the
state. -/
structure FailsClosed (crypto : Crypto) (reader : EnvelopeReader) (client : RazorpayConfig) :
    Prop where
  rejects : ∀ body signature, ∃ message,
    verifyWebhookSignature crypto client body signature = .error (.config message)
  inert : ∀ body signature now d,
    ((processPaymentWebhook crypto reader client body signature now).run Op.exec d).2 = d

theorem Built.webhookSecret_eq {client : RazorpayConfig} (hn : NoSecret env path read)
    (hb : Built env path read client) : client.webhookSecret = (env secretKey).toOption := by
  cases hb with
  | fromSettings config hl hc =>
      obtain ⟨loaded, file, hf, hs⟩ := loadFromWith_webhookSecret hl
      have hnone : file.lookup secretKey = none := by
        cases hv : file.lookup secretKey with
        | none => rfl
        | some value =>
            exact absurd (hn.2 loaded file value hf hv) (fileLayer_nonempty hf secretKey value hv)
      rw [RazorpaySettings.toRazorpayConfig_webhookSecret hc, hs, resolve]
      change (env secretKey).toOption.or (file.lookup secretKey) = _
      rw [hnone, Option.or_none]
  | fromEnv hc => exact RazorpayConfig.fromEnv_webhookSecret hc

theorem failsClosed_of_none {crypto : Crypto} {reader : EnvelopeReader} {client : RazorpayConfig}
    (h : client.webhookSecret = none) : FailsClosed crypto reader client := by
  have hv (body : Bytes) (signature : String) :
      verifyWebhookSignature crypto client body signature =
        .error (.config "RAZORPAY_WEBHOOK_SECRET is not set; refusing to verify webhook") := by
    rw [verifyWebhookSignature, h]
  refine ⟨fun body signature => ⟨_, hv body signature⟩, fun body signature now d => ?_⟩
  rw [processPaymentWebhook, run_mapErr_bind, hv]

/-- With some secret, even an empty one, there is a signature that passes. -/
theorem not_failsClosed_of_some {crypto : Crypto} {reader : EnvelopeReader}
    {client : RazorpayConfig} {secret : String} (h : client.webhookSecret = some secret) :
    ¬ FailsClosed crypto reader client := by
  intro hf
  obtain ⟨message, hm⟩ := hf.rejects [] (toHex (crypto.hmacSha256 (utf8 secret) []))
  rw [verifyWebhookSignature_eq_ok.mpr ⟨secret, h, rfl⟩] at hm
  cases hm

/-- A client built without a secret fails closed exactly when the variable is
not set to the empty string. -/
theorem failsClosed_iff (crypto : Crypto) (reader : EnvelopeReader) {client : RazorpayConfig}
    (hn : NoSecret env path read) (hb : Built env path read client) :
    FailsClosed crypto reader client ↔ env secretKey ≠ .ok "" := by
  have hs := hb.webhookSecret_eq hn
  cases he : env secretKey with
  | error e =>
      rw [he] at hs
      exact iff_of_true (failsClosed_of_none hs) (by simp)
  | ok value =>
      rw [he] at hs
      exact iff_of_false (not_failsClosed_of_some hs) (by simp [hn.1 value he])

def envWith (secret : Option String) : Env := fun name =>
  if name = "RAZORPAY_KEY_ID" then .ok "rzp_test_1"
  else if name = "RAZORPAY_KEY_SECRET" then .ok "key-secret"
  else if name = secretKey then secret.elim (.error .notPresent) .ok
  else .error .notPresent

def clientWith (secret : Option String) : RazorpayConfig :=
  ⟨"rzp_test_1", "key-secret", .sandbox, defaultBaseUrl, secret⟩

theorem noSecret_envWith {secret : Option String} (h : secret = none ∨ secret = some "") :
    NoSecret (envWith secret) "aiter.env" (.error .notFound) := by
  refine ⟨fun value hv => ?_, fun loaded file value hf hv => ?_⟩
  · rcases h with rfl | rfl <;> cases hv
    rfl
  · cases hf
    simp at hv

theorem failsClosed_iff_unset : FailsClosed Platform.bare.crypto Platform.bare.readEnvelope
    (clientWith none) ↔ envWith none secretKey ≠ .ok "" :=
  failsClosed_iff Platform.bare.crypto Platform.bare.readEnvelope (noSecret_envWith (.inl rfl))
    (.fromEnv rfl)

/-- With the variable set to the empty string, anyone can sign a delivery that
both clients accept. -/
theorem empty_secret_accepts : ∃ (env : Env) (path : String) (read : Except FileError String)
    (config : Config) (client : RazorpayConfig), NoSecret env path read ∧
      load path read env = .ok config ∧ config.razorpay.toRazorpayConfig = .ok client ∧
      RazorpayConfig.fromEnv env = .ok client ∧ ∀ (crypto : Crypto) (body : Bytes),
        verifyWebhookSignature crypto client body (toHex (crypto.hmacSha256 [] body)) = .ok () :=
  ⟨envWith (some ""), "aiter.env", .error .notFound,
    ⟨"aiter.env", false, 8080, ⟨some "rzp_test_1", some "key-secret", none, none, some ""⟩⟩,
    clientWith (some ""), noSecret_envWith (.inr rfl), rfl, rfl, rfl,
    fun _ _ => verifyWebhookSignature_eq_ok.mpr ⟨"", rfl, rfl⟩⟩

end AiterCommerce.Guarantees.FailClosed
