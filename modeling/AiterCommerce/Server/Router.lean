import AiterCommerce.Server.Feed
import AiterCommerce.Server.RateLimit
import AiterCommerce.Server.System

namespace AiterCommerce.Server

open AiterCommerce.Core Concurrent

inductive Quota
  | writes | reads
  deriving DecidableEq

inductive EdgeOp
  | hit (quota : Quota) (key : String) (now : UInt64)
  | auditEntries

abbrev EdgeOp.Resp : EdgeOp → Type
  | hit _ _ _ => Bool
  | auditEntries => List (AuditEntry Receipt)

abbrev edgeSignature : Interface := ⟨EdgeOp, EdgeOp.Resp, Quota⟩

abbrev serverSignature : Interface := appSignature.sum edgeSignature

structure ServerData where
  data : Data
  writeLimiter : RateLimiter
  readLimiter : RateLimiter

def ServerData.exec : (o : serverSignature.Op) → ServerData → serverSignature.Resp o × ServerData
  | .inl o, d => ((o.exec d.data).1, { d with data := (o.exec d.data).2 })
  | .inr (.hit .writes key now), d =>
      ((d.writeLimiter.check key now).1,
        { d with writeLimiter := (d.writeLimiter.check key now).2 })
  | .inr (.hit .reads key now), d =>
      ((d.readLimiter.check key now).1,
        { d with readLimiter := (d.readLimiter.check key now).2 })
  | .inr .auditEntries, d => (d.data.audit.entries, d)

inductive Response
  | reply (r : Reply)
  | feed (r : Feed)
  | refused (e : HttpError)
  | page
  | checkout (r : Except ApiError Order)
  | order (r : Option Order)
  | audit (entries : List (AuditEntry Receipt))

abbrev Service := Prog serverSignature Response

def performEdge (o : EdgeOp) : Prog serverSignature o.Resp := .op (.inr o) .ret

def check (quota : Quota) (key : String) (now : UInt64) : Prog serverSignature Bool :=
  Prog.locked (.inr quota) (performEdge (.hit quota key now))

namespace Service

/-- The guard of the writes lets through what carries no verified agent. -/
def limitWrites (agent : Option String) (now : UInt64) (next : Service) : Service :=
  match agent with
  | none => next
  | some agentId => do
      if ← check .writes (writeKey agentId) now then next
      else return .refused rateLimited

def limitReads (peer : Option String) (headers : HeaderMap) (now : UInt64) (next : Service) :
    Service := do
  if ← check .reads (readKey peer headers) now then next
  else return .refused rateLimited

def requireSigned (crypto : Crypto) (reader : SignatureReader) (now : UInt64) (request : HttpRequest)
    (next : String → Service) : Service := do
  match ← (ExceptT.run (Server.requireSigned crypto reader now request)).inl with
  | .ok agentId => next agentId
  | .error e => return .refused e

end Service

inductive Tier
  | signed | limited | unguarded
  deriving DecidableEq

/-- Agents are registered from inside the process: there is no route for it. -/
def Call.tier : Call → Tier
  | .createCart _ | .updateCart _ _ | .cancelCart _ | .createCheckoutSession _ _
  | .completeCheckout _ _ _ | .cancelCheckout _ | .createConsent _ _ | .debit _ _
  | .orderPaymentLink _ _ => .signed
  | .getCart _ | .razorpayWebhook _ _ _ => .limited
  | .registerAgent _ _ => .unguarded

/-- Where a request leads. A page is a route that touches no shared state; a refusal is
made by the extractors, or for want of a route. -/
inductive Endpoint
  | handler (call : Call)
  | listProducts (params : ListParams)
  | page (tier : Tier)
  | refusal (tier : Tier) (e : HttpError)
  deriving DecidableEq

def Endpoint.tier : Endpoint → Tier
  | handler call => call.tier
  | listProducts _ => .limited
  | page tier | refusal tier _ => tier

/-- What is read while a request is served: the clock, by the guards and by the handler,
and the answer of the payment gateway. -/
structure Readings where
  signedAt : UInt64
  hitAt : UInt64
  now : Int64
  issuedAt : Int64
  gateway : Except RazorpayError String
  deriving DecidableEq

structure Libraries extends Platform where
  readSignature : SignatureReader
  toLowercase : String → String
  cartBody : HttpRequest → Except HttpError CreateCartRequest
  itemsBody : HttpRequest → Except HttpError (List LineItem)
  sessionBody : HttpRequest → Except HttpError CreateSessionRequest
  consentBody : HttpRequest → Except HttpError ConsentRequest
  debitBody : HttpRequest → Except HttpError (Bool × DebitRequest)
  listParams : HttpRequest → Except HttpError ListParams
  segment : String → Except HttpError String

def Uri.path (uri : Uri) : List Char :=
  match uri.pathAndQuery with
  | none => []
  | some target =>
      match target.toList.takeWhile (· ≠ '?') with
      | [] => ['/']
      | path => path

def segments (uri : Uri) : List String := (uri.path.splitOn '/').map String.ofList

/-- The paths that are routed, with their parameters as they stand there. -/
inductive Path
  | serviceInfo | health | products | product (id : String) | agentCard | llmsTxt | seedCatalog
  | carts | cart (id : String) | cancelCart (id : String)
  | checkoutSessions | completeCheckout (id : String) | cancelCheckout (id : String)
  | consent | debit | paymentLink (id : String) | webhook | metrics
  deriving DecidableEq

/-- A parameter at the end of a path is not empty; one before another segment may be. -/
def matchPath : List String → Option Path
  | ["", ""] => some .serviceInfo
  | ["", "agentic", "health"] => some .health
  | ["", "catalog", "products"] => some .products
  | ["", "catalog", "products", id] => if id = "" then none else some (.product id)
  | ["", ".well-known", "agent-card.json"] => some .agentCard
  | ["", "llms.txt"] => some .llmsTxt
  | ["", "seed", "catalog"] => some .seedCatalog
  | ["", "carts"] => some .carts
  | ["", "carts", id] => if id = "" then none else some (.cart id)
  | ["", "carts", id, "cancel"] => some (.cancelCart id)
  | ["", "checkout_sessions"] => some .checkoutSessions
  | ["", "checkout_sessions", id, "complete"] => some (.completeCheckout id)
  | ["", "checkout_sessions", id, "cancel"] => some (.cancelCheckout id)
  | ["", "reserve_pay", "consent"] => some .consent
  | ["", "reserve_pay", "debit"] => some .debit
  | ["", "orders", id, "payment_link"] => some (.paymentLink id)
  | ["", "webhooks", "razorpay"] => some .webhook
  | ["", "metrics"] => some .metrics
  | _ => none

/-- What is routed at one path, by method. -/
structure MethodRouter where
  get : Option Endpoint
  post : Option Endpoint
  put : Option Endpoint

namespace MethodRouter

def ofGet (e : Endpoint) : MethodRouter := ⟨some e, none, none⟩

def ofPost (e : Endpoint) : MethodRouter := ⟨none, some e, none⟩

def call (m : MethodRouter) (method : String) : Endpoint :=
  (if method = "GET" ∨ method = "HEAD" then m.get
    else if method = "POST" then m.post
    else if method = "PUT" then m.put
    else none).getD (.refusal .unguarded ⟨405, ""⟩)

theorem call_ofGet (e : Endpoint) : (ofGet e).call "GET" = e := by
  rw [call, if_pos (.inl rfl)]
  rfl

theorem call_ofPost (e : Endpoint) : (ofPost e).call "POST" = e := by
  rw [call, if_neg (by decide), if_pos rfl]
  rfl

end MethodRouter

def extracted {α : Type} (tier : Tier) (f : α → Endpoint) : Except HttpError α → Endpoint
  | .ok a => f a
  | .error e => .refusal tier e

/-- The longest body that is buffered where no other bound is set. -/
def defaultBodyLimit : Nat := 2097152

section Routes

variable (lib : Libraries) (request : HttpRequest) (r : Readings)

/-- A delivery is read whole, up to the bound, before its handler sees it. -/
def webhookRoute : Endpoint :=
  if defaultBodyLimit < request.body.length then
    .refusal .limited ⟨413, "Failed to buffer the request body: length limit exceeded"⟩
  else
    .handler (.razorpayWebhook ((request.headers.get "x-razorpay-signature").bind toStr)
      request.body r.now)

def router : Path → MethodRouter
  | .serviceInfo | .health | .agentCard | .llmsTxt | .seedCatalog => .ofGet (.page .limited)
  | .products => .ofGet (extracted .limited .listProducts (lib.listParams request))
  | .product id => .ofGet (extracted .limited (fun _ => .page .limited) (lib.segment id))
  | .carts =>
      .ofPost (extracted .signed (fun body => .handler (.createCart body)) (lib.cartBody request))
  | .cart id => {
      get := some (extracted .limited (fun id => .handler (.getCart id)) (lib.segment id))
      post := none
      put := some (extracted .signed (fun id =>
        extracted .signed (fun items => .handler (.updateCart id items)) (lib.itemsBody request))
        (lib.segment id)) }
  | .cancelCart id =>
      .ofPost (extracted .signed (fun id => .handler (.cancelCart id)) (lib.segment id))
  | .checkoutSessions =>
      .ofPost (extracted .signed (fun body => .handler (.createCheckoutSession body r.now))
        (lib.sessionBody request))
  | .completeCheckout id =>
      .ofPost (extracted .signed (fun id => .handler (.completeCheckout id r.now r.issuedAt))
        (lib.segment id))
  | .cancelCheckout id =>
      .ofPost (extracted .signed (fun id => .handler (.cancelCheckout id)) (lib.segment id))
  | .consent =>
      .ofPost (extracted .signed (fun body => .handler (.createConsent body r.now))
        (lib.consentBody request))
  | .debit =>
      .ofPost (extracted .signed (fun (confirm, body) => .handler (.debit confirm body))
        (lib.debitBody request))
  | .paymentLink id =>
      .ofPost (extracted .signed (fun id => .handler (.orderPaymentLink id r.gateway))
        (lib.segment id))
  | .webhook => .ofPost (webhookRoute request r)
  | .metrics => .ofGet (.page .unguarded)

/-- Neither a path nor a method that is not routed has a guard. -/
def route : Endpoint :=
  match matchPath (segments request.uri) with
  | none => .refusal .unguarded ⟨404, ""⟩
  | some path => (router lib request r path).call request.method

variable {lib} {request} {r}

theorem route_of_path {path : Path} (h : matchPath (segments request.uri) = some path) :
    route lib request r = (router lib request r path).call request.method := by
  rw [route, h]

end Routes

/-- What reaches the server: requests over HTTP, the tools of the stdio binding, and the
calls of the process that embeds it. -/
inductive Arrival
  | http (request : HttpRequest) (peer : Option String) (r : Readings)
  | tool (call : Call)
  | toolCheckout (cartId : String) (now completedAt issuedAt : Int64)
  | registerAgent (identity : AgentIdentity) (spendLimit : Amount)
  | order (id : String)
  | auditEntries
  deriving DecidableEq

def answer (lib : Libraries) (st : AppState) (agent : Option String) : Endpoint → Service
  | .page _ => return .page
  | .refusal _ e => return .refused e
  | .listProducts params => return .feed (listProducts lib.toLowercase st params)
  | .handler call => do
      let r ← (handler lib.toPlatform st ⟨agent, call⟩).inl
      return .reply r

/-- A session of the cart, completed at once. There is no agent to charge. -/
def toolCheckout (st : AppState) (cartId : String) (now completedAt issuedAt : Int64) :
    Handler ApiError Order := do
  let session ← createCheckoutSession st ⟨cartId, none⟩ now
  completeCheckout none session.id completedAt issuedAt

def order (id : String) : Prog appSignature (Option Order) :=
  Prog.locked .orders (.op (.orders (.get id)) .ret)

def auditEntries : Prog serverSignature (List (AuditEntry Receipt)) :=
  Prog.locked (.inl .audit) (performEdge .auditEntries)

/-- The signature is checked before the quota of the agent that signed, and both before
the handler's extractors refuse anything. -/
def serveHttp (lib : Libraries) (st : AppState) (request : HttpRequest) (peer : Option String)
    (r : Readings) : Service :=
  let endpoint := route lib request r
  match endpoint.tier with
  | .signed =>
      Service.requireSigned lib.crypto lib.readSignature r.signedAt request (fun agentId =>
        Service.limitWrites (some agentId) r.hitAt (answer lib st (some agentId) endpoint))
  | .limited => Service.limitReads peer request.headers r.hitAt (answer lib st none endpoint)
  | .unguarded => answer lib st none endpoint

def serve (lib : Libraries) (st : AppState) : Arrival → Service
  | .http request peer r => serveHttp lib st request peer r
  | .tool call => answer lib st none (.handler call)
  | .toolCheckout cartId now completedAt issuedAt => do
      let r ← (ExceptT.run (toolCheckout st cartId now completedAt issuedAt)).inl
      return .checkout r
  | .registerAgent identity spendLimit =>
      answer lib st none (.handler (.registerAgent identity spendLimit))
  | .order id => do
      let r ← (order id).inl
      return .order r
  | .auditEntries => do
      let entries ← auditEntries
      return .audit entries

def server (lib : Libraries) (st : AppState) :
    System serverSignature ServerData Arrival Response :=
  ⟨ServerData.exec, serve lib st⟩

def ServerData.new (crypto : Crypto) (writesPerMin readsPerMin : UInt32) : ServerData :=
  ⟨.new crypto, .new writesPerMin, .new readsPerMin⟩

section Run

variable {lib : Libraries} {st : AppState} {request : HttpRequest} {peer : Option String}
  {r : Readings} {d : ServerData}

theorem run_inl {R : Type} (t : Prog appSignature R) (d : ServerData) :
    (t.inl : Prog serverSignature R).run ServerData.exec d =
      ((t.run Op.exec d.data).1, { d with data := (t.run Op.exec d.data).2 }) := by
  induction t generalizing d with
  | ret r => rfl
  | op o k ih => exact ih _ _
  | lock l k ih | unlock l k ih => exact ih d

theorem run_answer_handler (agent : Option String) (call : Call) :
    (answer lib st agent (.handler call)).run ServerData.exec d =
      (.reply ((handler lib.toPlatform st ⟨agent, call⟩).run Op.exec d.data).1,
        { d with data := ((handler lib.toPlatform st ⟨agent, call⟩).run Op.exec d.data).2 }) := by
  refine (Prog.run_bind _ _ _ _).trans ?_
  rw [run_inl]
  rfl

theorem run_check_writes (key : String) (now : UInt64) : (check .writes key now).run ServerData.exec d =
    ((d.writeLimiter.check key now).1,
      { d with writeLimiter := (d.writeLimiter.check key now).2 }) := rfl

theorem run_check_reads (key : String) (now : UInt64) : (check .reads key now).run ServerData.exec d =
    ((d.readLimiter.check key now).1,
      { d with readLimiter := (d.readLimiter.check key now).2 }) := rfl

theorem Service.run_requireSigned (crypto : Crypto) (reader : SignatureReader) (now : UInt64)
    (request : HttpRequest) (next : String → Service) (d : ServerData) :
    (Service.requireSigned crypto reader now request next).run ServerData.exec d =
      match (Server.requireSigned crypto reader now request).run Op.exec d.data with
      | (.ok agentId, data) => (next agentId).run ServerData.exec { d with data := data }
      | (.error e, data) => (.refused e, { d with data := data }) := by
  refine (Prog.run_bind _ _ _ _).trans ?_
  rw [run_inl]
  change _ = match Prog.run Op.exec (ExceptT.run (Server.requireSigned crypto reader now request))
    d.data with | (.ok agentId, data) => _ | (.error e, data) => _
  cases Prog.run Op.exec (ExceptT.run (Server.requireSigned crypto reader now request)) d.data with
  | mk agent data => cases agent <;> rfl

theorem Service.run_limitWrites {agentId : String} {now : UInt64} {next : Service}
    (h : (d.writeLimiter.check (writeKey agentId) now).1 = true) :
    (Service.limitWrites (some agentId) now next).run ServerData.exec d =
      next.run ServerData.exec
        { d with writeLimiter := (d.writeLimiter.check (writeKey agentId) now).2 } := by
  refine (Prog.run_bind _ _ _ _).trans ?_
  rw [run_check_writes, if_pos h]

theorem Service.run_limitReads {headers : HeaderMap} {now : UInt64} {next : Service}
    (h : (d.readLimiter.check (readKey peer headers) now).1 = true) :
    (Service.limitReads peer headers now next).run ServerData.exec d =
      next.run ServerData.exec
        { d with readLimiter := (d.readLimiter.check (readKey peer headers) now).2 } := by
  refine (Prog.run_bind _ _ _ _).trans ?_
  rw [run_check_reads, if_pos h]

end Run

def Libraries.bare : Libraries where
  toPlatform := .bare
  readSignature := fun _ => none
  toLowercase := id
  cartBody := fun _ => .error ⟨400, ""⟩
  itemsBody := fun _ => .error ⟨400, ""⟩
  sessionBody := fun _ => .error ⟨400, ""⟩
  consentBody := fun _ => .error ⟨400, ""⟩
  debitBody := fun _ => .error ⟨400, ""⟩
  listParams := fun _ => .error ⟨400, ""⟩
  segment := .ok

end AiterCommerce.Server
