import AiterCommerce.Server.Client
import AiterCommerce.Server.Mcp
import AiterCommerce.Server.Pages
import AiterCommerce.Server.Seed

namespace AiterCommerce.Server

open AiterCommerce.Core Encoding.Json

inductive Body
  | json (v : Value)
  | text (s : String)

structure HttpResponse where
  status : Nat
  headers : List (String × String)
  body : Body

namespace HttpResponse

def ok (v : Value) : HttpResponse := ⟨200, [], .json v⟩

def error (status : Nat) (message : String) : HttpResponse :=
  ⟨status, [], .json (sortedObject [("error", .string message)])⟩

/-- The answer to HEAD goes without its body. -/
def sentFor (r : HttpResponse) (request : HttpRequest) : HttpResponse :=
  if request.method = "HEAD" then { r with body := .text "" } else r

def isSuccess (r : HttpResponse) : Bool := 200 ≤ r.status && r.status < 300

def isClientError (r : HttpResponse) : Bool := 400 ≤ r.status && r.status < 500

def isServerError (r : HttpResponse) : Bool := 500 ≤ r.status && r.status < 600

@[simp] theorem sentFor_status (r : HttpResponse) (request : HttpRequest) :
    (r.sentFor request).status = r.status := by
  rw [sentFor]
  split <;> rfl

end HttpResponse

structure HttpLibraries extends Libraries where
  quoted : String → String

def ApiError.intoResponse (quoted : String → String) : ApiError → HttpResponse
  | .notFound | .store .notFound => .error 404 "not found"
  | .conflict m => .error 409 m
  | .store .alreadyExists => .error 409 "already exists"
  | .checkout e => .error 409 ("illegal checkout transition: " ++ e.debug)
  | .pricing e => .error 400 ("unpriced item: " ++ e.debug quoted)
  | .razorpay (.config msg) => .error 503 msg
  | .razorpay (.signature msg) => .error 401 msg
  | .razorpay e => .error 502 e.display
  | .unknownProduct id => .error 400 ("unknown product: " ++ id)
  | .currencyMismatch productId expected got =>
      .error 400 ("product " ++ productId ++ " is priced in " ++ got.code ++ " but the cart is in " ++
        expected.code ++ "; refusing to price a mixed-currency cart")
  | .spendLimit m => .error 403 m
  | .consentNotFound => .error 404 "consent not found"
  | .reserve .notActive => .error 403 "consent is not active"
  | .reserve (.limitExceeded remaining) => ⟨403, [], .json (sortedObject
      [("error", .string "spend limit exceeded"), ("remaining", .int remaining.toInt)])⟩
  | .reserve .deviceMismatch => ⟨409, [], .json (sortedObject
      [("error", .string "device_mismatch"), ("detail", .string "confirm re-auth via ?confirm=true")])⟩
  | .reserve (.currencyMismatch currency) => ⟨403, [], .json (sortedObject
      [("error", .string "currency mismatch"), ("limit_currency", .string currency.code)])⟩
  | .reserve (.invalidAmount message) => .error 400 message

/-- The guards refuse with an error of their own, the extractors and the router with a text. -/
def HttpError.intoResponse (e : HttpError) : HttpResponse :=
  if e.status = 429 then ⟨429, [("retry-after", "1")], (HttpResponse.error 429 e.message).body⟩
  else if e.status = 401 ∨ e.status = 403 then .error e.status e.message
  else ⟨e.status, [], .text e.message⟩

section Respond

variable (quoted : String → String)

def debitJson (r : DebitResponse) : Value :=
  sortedObject [("status", .string "debited"), ("consent_id", .string r.consentId),
    ("remaining", .int r.remaining.toInt)]

def paymentLinkJson (r : PaymentLinkResponse) : Value :=
  sortedObject [("order_id", .string r.orderId), ("short_url", .string r.shortUrl)]

def webhookJson (r : WebhookResponse) : Value :=
  sortedObject [("received", .bool true), ("payment_id", (r.paymentId.map .string).getD .null),
    ("status", .string r.status)]

def respond {α : Type} (write : α → Value) : Except ApiError α → HttpResponse
  | .ok a => .ok (write a)
  | .error e => e.intoResponse quoted

def Reply.http : Reply → HttpResponse
  | .cart r => respond quoted (CartResponse.format.write .declared) r
  | .session r => respond quoted (CheckoutSession.format.write .declared) r
  | .order r => respond quoted (Order.format.write .declared) r
  | .consent r => respond quoted (Consent.format.write .declared) r
  | .debit r => respond quoted debitJson r
  | .paymentLink r => respond quoted paymentLinkJson r
  | .webhook (.ok r) => .ok (webhookJson r)
  | .webhook (.error e) => .error e.status e.message
  | .registered => .ok .null

end Respond

def serviceInfo : Value :=
  sortedObject [("name", .string Pages.name), ("version", .string Pages.version),
    ("repo", .string "https://github.com/DeathSurfing/aiter-commerce"), ("agentic", .bool true),
    ("status", .string "ok")]

def health : Value :=
  sortedObject [("status", .string "ok"), ("version", .string Pages.version)]

def seedCatalog : HttpResponse :=
  match demoCatalog with
  | some products => .ok (Catalog.format.write .declared products)
  | none => ⟨500, [], .text ""⟩

def getProduct (st : AppState) (id : String) : HttpResponse :=
  match st.products.find? (fun p => p.id = id) with
  | some product => .ok (Product.format.write .declared product)
  | none => .error 404 "product not found"

section Pages

variable (lib : HttpLibraries) (st : AppState) (request : HttpRequest)

/-- The pages that are made of nothing that changes. -/
def publicPage : HttpResponse :=
  match matchPath (segments request.uri) with
  | some .serviceInfo => .ok serviceInfo
  | some .health => .ok health
  | some .agentCard => .ok (Pages.agentCard request.headers)
  | some .llmsTxt => ⟨200, [], .text (Pages.llmsTxt st)⟩
  | some .seedCatalog => seedCatalog
  | some (.product id) =>
      match lib.segment id with
      | .ok id => getProduct st id
      | .error e => e.intoResponse
  | _ => HttpError.intoResponse ⟨404, ""⟩

/-- The calls of the process itself have no answer over the wire. -/
def Response.http : Response → HttpResponse
  | .reply r => r.http lib.quoted
  | .feed f => .ok (Mcp.feedJson f)
  | .refused e => e.intoResponse
  | .page => publicPage lib st request
  | .checkout r => Reply.http lib.quoted (.order r)
  | .order _ | .audit _ => .ok .null

end Pages

section Statuses

variable {quoted : String → String}

/-- Every error names itself. -/
theorem ApiError.intoResponse_error (e : ApiError) : ∃ v message,
    (e.intoResponse quoted).body = .json v ∧ v.get "error" = some (.string message) := by
  have single (status : Nat) (message : String) : ∃ v text,
      (HttpResponse.error status message).body = .json v ∧ v.get "error" = some (.string text) :=
    ⟨_, message, rfl, get_sortedObject (by simp) List.mem_cons_self⟩
  have first (message name : String) (v : Value) (h : "error" ≠ name) : ∃ w text,
      Body.json (sortedObject [("error", .string message), (name, v)]) = .json w ∧
        w.get "error" = some (.string text) :=
    ⟨_, message, rfl, get_sortedObject (by simp [h]) List.mem_cons_self⟩
  cases e with
  | store e => cases e <;> exact single _ _
  | razorpay e => cases e <;> exact single _ _
  | reserve e =>
      cases e with
      | limitExceeded remaining => exact first _ _ _ (by decide)
      | deviceMismatch => exact first _ _ _ (by decide)
      | currencyMismatch currency => exact first _ _ _ (by decide)
      | notActive | invalidAmount message => exact single _ _
  | _ => exact single _ _

end Statuses

end AiterCommerce.Server
