import AiterCommerce.Core.Serde
import AiterCommerce.Server.Router

namespace AiterCommerce.Server

open AiterCommerce.Core Concurrent Encoding.Json

structure SignedRequest where
  method : String
  uri : String
  body : String
  agentIdHeader : String
  signatureHeader : String

def signatureJson (s : RequestSignature) : String :=
  (RequestSignature.format.write .declared s).text

theorem signatureJson_injective : Function.Injective signatureJson := fun s s' h =>
  RequestSignature.format.eq_of_text (RequestSignature.format.shows_write .declared s')
    (RequestSignature.format.shows_write .declared s) h

def demoSignature (crypto : Crypto) (uri body : String) (now : Int64) : RequestSignature :=
  SigningKey.signRequest crypto ⟨demoAgentSeed⟩ demoAgentId "POST" uri (utf8 body) now.toUInt64

def buildSignedRequest (crypto : Crypto) (uri body : String) (now : Int64) : SignedRequest where
  method := "POST"
  uri := uri
  body := body
  agentIdHeader := demoAgentId
  signatureHeader := signatureJson (demoSignature crypto uri body now)

def SignedRequest.http (signed : SignedRequest) : HttpRequest where
  method := signed.method
  uri := ⟨none, none, some signed.uri⟩
  headers := [("content-type", utf8 "application/json"),
    (Server.agentIdHeader, utf8 signed.agentIdHeader),
    (Server.signatureHeader, utf8 signed.signatureHeader)]
  body := utf8 signed.body

structure FlowResult where
  productId : String
  cartId : String
  sessionId : String
  orderId : String
  shortUrl : String

/-- Why a run failed. The text that comes with a status is left out. -/
inductive CliError
  | http (status : Nat)
  | emptyCatalog
  | unknownProduct (id : String)
  | malformed (message : String)
  deriving DecidableEq

def ApiError.status : ApiError → Nat
  | .notFound | .store .notFound | .consentNotFound => 404
  | .conflict _ | .store .alreadyExists | .checkout _ | .reserve .deviceMismatch => 409
  | .pricing _ | .unknownProduct _ | .currencyMismatch _ _ _ | .reserve (.invalidAmount _) => 400
  | .razorpay (.config _) => 503
  | .razorpay (.signature _) => 401
  | .razorpay _ => 502
  | .spendLimit _ | .reserve .notActive | .reserve (.limitExceeded _)
  | .reserve (.currencyMismatch _) => 403

def statusOf {ε α : Type} (f : ε → Nat) : Except ε α → Nat
  | .ok _ => 200
  | .error e => f e

def Reply.status : Reply → Nat
  | .cart r => statusOf ApiError.status r
  | .session r => statusOf ApiError.status r
  | .order r => statusOf ApiError.status r
  | .consent r => statusOf ApiError.status r
  | .debit r => statusOf ApiError.status r
  | .paymentLink r => statusOf ApiError.status r
  | .webhook r => statusOf HttpError.status r
  | .registered => 200

def Response.status : Response → Nat
  | .reply r => r.status
  | .refused e => e.status
  | .feed _ | .page | .checkout _ | .order _ | .audit _ => 200

def Response.isSuccess (response : Response) : Bool :=
  200 ≤ response.status && response.status < 300

def Response.id : Response → Option String
  | .reply (.cart (.ok c)) => some c.id
  | .reply (.session (.ok s)) => some s.id
  | .reply (.order (.ok o)) => some o.id
  | _ => none

def Response.shortUrl : Response → Option String
  | .reply (.paymentLink (.ok link)) => some link.shortUrl
  | _ => none

def Response.items : Response → Option (List Product)
  | .feed f => some f.items
  | _ => none

abbrev Client (α : Type) := ExceptT CliError (StateM ServerData) α

def Client.run {α : Type} (m : Client α) (d : ServerData) : Except CliError α × ServerData :=
  (ExceptT.run m).run d

theorem Client.run_bind {α β : Type} (m : Client α) (f : α → Client β) (d : ServerData) :
    (m >>= f).run d = match m.run d with
      | (.ok a, d') => (f a).run d'
      | (.error e, d') => (.error e, d') := by
  change (ExceptT.bindCont f (m.run d).1).run (m.run d).2 = _
  cases m.run d with
  | mk r d' => cases r <;> rfl

/-- One exchange: when the client sent, where from, and what the server read meanwhile. -/
structure Visit where
  sentAt : Int64
  peer : Option String
  readings : Readings

structure Visits where
  feed : Visit
  cart : Visit
  session : Visit
  complete : Visit
  link : Visit

section Flow

variable (lib : Libraries) (st : AppState)

def exchange (request : HttpRequest) (v : Visit) : StateM ServerData Response :=
  (serveHttp lib st request v.peer v.readings).run ServerData.exec

def send (request : HttpRequest) (v : Visit) : Client Response := do
  let response ← exchange lib st request v
  if response.isSuccess then return response
  else throw (.http response.status)

variable {lib st} in
theorem run_send {request : HttpRequest} {v : Visit} {d d' : ServerData} {response : Response}
    (h : (serveHttp lib st request v.peer v.readings).run ServerData.exec d = (response, d')) :
    (send lib st request v).run d =
      (if response.isSuccess then .ok response else .error (.http response.status), d') := by
  have hexchange : Client.run (liftM (exchange lib st request v)) d = (.ok response, d') := by
    change (fun x => (Except.ok x.1, x.2))
      ((serveHttp lib st request v.peer v.readings).run ServerData.exec d) = _
    rw [h]
  change Client.run (liftM (exchange lib st request v) >>= _) d = _
  rw [Client.run_bind, hexchange]
  dsimp only
  split <;> rfl

variable {lib st} in
theorem run_send_ok {request : HttpRequest} {v : Visit} {d d' : ServerData} {response : Response}
    (h : (serveHttp lib st request v.peer v.readings).run ServerData.exec d = (response, d'))
    (hs : response.isSuccess = true) : (send lib st request v).run d = (.ok response, d') := by
  rw [run_send h, if_pos hs]

def getRequest (path : String) : HttpRequest := ⟨"GET", ⟨none, none, some path⟩, [], []⟩

def getJson (path : String) (v : Visit) : Client Response := send lib st (getRequest path) v

def postSigned (path body : String) (v : Visit) : Client Response :=
  send lib st (buildSignedRequest lib.crypto path body v.sentAt).http v

def strField (value : Option String) (field what : String) : Client String :=
  match value with
  | some s => return s
  | none => throw (.malformed (what ++ ": missing or non-string \"" ++ field ++ "\""))

/-- The first page of the feed is all the client looks at. -/
def discover (productId : Option String) (v : Visit) : Client String := do
  let catalog ← getJson lib st "/catalog/products" v
  match catalog.items with
  | none => throw (.malformed "catalog envelope has no items array")
  | some items =>
      match productId with
      | some id =>
          match items.find? (fun item => item.id = id) with
          | some chosen => return chosen.id
          | none => throw (.unknownProduct id)
      | none =>
          match items.head? with
          | some chosen => return chosen.id
          | none => throw .emptyCatalog

-- The members of a body are in the order of their names.

def cartJson (productId : String) (qty : UInt32) : String :=
  (Value.object [("currency", .string "USD"), ("items", .array [.object
    [("product_id", .string productId), ("quantity", .int qty.toNat)]])]).text

def sessionJson (cartId : String) : String := (Value.object [("cart_id", .string cartId)]).text

def emptyJson : String := (Value.object []).text

def completePath (sessionId : String) : String := "/checkout_sessions/" ++ sessionId ++ "/complete"

structure Placed where
  productId : String
  cartId : String
  sessionId : String
  orderId : String
  answer : Response

def placed (productId : Option String) (qty : UInt32) (v : Visits) : Client Placed := do
  let productId ← discover lib st productId v.feed
  let cart ← postSigned lib st "/carts" (cartJson productId qty) v.cart
  let cartId ← strField cart.id "id" "/carts"
  let session ← postSigned lib st "/checkout_sessions" (sessionJson cartId) v.session
  let sessionId ← strField session.id "id" "/checkout_sessions"
  let order ← postSigned lib st (completePath sessionId) emptyJson v.complete
  let orderId ← strField order.id "id" "checkout completion"
  return ⟨productId, cartId, sessionId, orderId, order⟩

def runFlow (productId : Option String) (qty : UInt32) (v : Visits) : Client FlowResult := do
  let run ← placed lib st productId qty v
  let link ← postSigned lib st ("/orders/" ++ run.orderId ++ "/payment_link") emptyJson v.link
  let shortUrl ← strField link.shortUrl "short_url" "payment link"
  return ⟨run.productId, run.cartId, run.sessionId, run.orderId, shortUrl⟩

end Flow

end AiterCommerce.Server
