import AiterCommerce.Core.Serde
import AiterCommerce.Server.Router

namespace AiterCommerce.Server

open AiterCommerce.Core Concurrent Encoding.Json
open Fallible (adaptErr okOr)

def CreateCartRequest.format : Format CreateCartRequest :=
  .record (Layout.done CreateCartRequest.mk
    |>.and (.optional "currency" Currency.format Format.named_ne_null CreateCartRequest.currency)
    |>.and (.fieldOr "items" (.list LineItem.format) [] CreateCartRequest.items))
    (fun _ => rfl)

def CartResponse.format : Format CartResponse :=
  .record (Layout.done CartResponse.mk
    |>.and (.field "id" .text CartResponse.id)
    |>.and (.field "cancelled" .bool CartResponse.cancelled)
    |>.and (.field "cart" Cart.format CartResponse.cart)
    |>.and (.nullable "totals" Totals.format (Format.record_ne_null _ _) CartResponse.totals))
    (fun _ => rfl)

namespace Mcp

def feedJson (feed : Feed) : Value :=
  sortedObject [("items", .array (feed.items.map (Product.format.write .byName))),
    ("total", .int feed.total.toNat), ("limit", .int feed.limit.toNat),
    ("offset", .int feed.offset.toNat), ("has_more", .bool feed.hasMore)]

theorem feedJson_items (feed : Feed) :
    (feedJson feed).get "items" = some (.array (feed.items.map (Product.format.write .byName))) := by
  apply get_sortedObject
  · change ["items", "total", "limit", "offset", "has_more"].Nodup
    decide
  · exact List.mem_cons_self

/-- What the tools leave to the libraries: how letters are lowered, what is said of arguments
that are no request for a cart and of a body that is too long, and how a text is quoted. -/
structure Library where
  toLowercase : String → String
  invalidArguments : Value → String
  tooLong : String
  quoted : String → String

def Library.bare : Library := ⟨fun s => s, fun _ => "", "length limit exceeded", fun s => s⟩

def serverName : String := "aiter-commerce-mcp"

def protocolVersion : String := "2024-11-05"

def version : String := "0.1.0"

structure McpTool where
  name : String
  description : String
  inputSchema : Value

def schema (properties : List (String × Value)) (required : List String) : Value :=
  sortedObject ([("type", .string "object"), ("properties", sortedObject properties)] ++
    if required = [] then [] else [("required", .array (required.map .string))])

def typed (type : String) : Value := sortedObject [("type", .string type)]

def tools : List McpTool :=
  [⟨"list_products", "List every product in the catalog with id, title, price and availability.",
      schema [] []⟩,
    ⟨"get_product", "Look up a single product by id.", schema [("id", typed "string")] ["id"]⟩,
    ⟨"create_cart", "Create a cart from line items and return its id and totals.",
      schema [("currency", typed "string"), ("items", sortedObject [("type", .string "array"),
        ("items", schema [("product_id", typed "string"), ("quantity", typed "integer")]
          ["product_id", "quantity"])])] ["items"]⟩,
    ⟨"complete_checkout",
      "Check out a cart: snapshot it into a checkout session, mark it paid, and return the order.",
      schema [("cart_id", typed "string")] ["cart_id"]⟩]

def toolsList : Value :=
  sortedObject [("tools", .array (tools.map (fun t => sortedObject [("name", .string t.name),
    ("description", .string t.description), ("inputSchema", t.inputSchema)])))]

def initializeResult (params : Value) : Value :=
  let asked := ((params.get "protocolVersion").bind Value.asStr).getD protocolVersion
  sortedObject [("protocolVersion", .string asked),
    ("capabilities", sortedObject [("tools", sortedObject [("listChanged", .bool false)])]),
    ("serverInfo", sortedObject [("name", .string serverName), ("version", .string version)])]

def success (id : Option Value) (result : Value) : Value :=
  sortedObject [("jsonrpc", .string "2.0"), ("id", id.getD .null), ("result", result)]

def error (id : Option Value) (code : Int) (message : String) : Value :=
  sortedObject [("jsonrpc", .string "2.0"), ("id", id.getD .null),
    ("error", sortedObject [("code", .int code), ("message", .string message)])]

def apiError (lib : Library) : ApiError → String
  | .notFound | .store .notFound => "not found"
  | .conflict message | .spendLimit message | .reserve (.invalidAmount message) => message
  | .store .alreadyExists => "already exists"
  | .checkout e => "illegal checkout transition: " ++ e.debug
  | .pricing e => "unpriced item: " ++ e.debug lib.quoted
  | .unknownProduct id => "unknown product: " ++ id
  | .currencyMismatch productId expected got =>
      "product " ++ productId ++ " is priced in " ++ got.code ++ " but the cart is in " ++
        expected.code
  | .razorpay e => e.display
  | .consentNotFound => "consent not found"
  | .reserve .notActive => "consent is not active"
  | .reserve (.limitExceeded _) => "spend limit exceeded"
  | .reserve .deviceMismatch => "device_mismatch: confirm re-auth via ?confirm=true"
  | .reserve (.currencyMismatch currency) =>
      "currency mismatch: consent limit is in " ++ currency.code

def stringArg (arguments : Value) (key : String) : Except String String :=
  match (arguments.get key).bind Value.asStr with
  | some s => .ok s
  | none => .error ("missing argument: " ++ key)

section Tools

variable (lib : Library) (st : AppState)

def listProducts : Handler String String :=
  pure (feedJson (Server.listProducts lib.toLowercase st .none)).text

/-- A body is read up to a limit. -/
def getProduct (arguments : Value) : Handler String String := do
  let id ← Fallible.mapErr (fun e => e) (stringArg arguments "id")
  let product ← okOr "product not found" (st.products.find? (fun p => p.id = id))
  let body := (Product.format.write .declared product).text
  if 2 ^ 20 < body.utf8ByteSize then
    throw ("failed to read response body: " ++ lib.tooLong)
  return body

def createCart (arguments : Value) : Handler String String := do
  let request ← okOr ("invalid arguments: " ++ lib.invalidArguments arguments)
    (CreateCartRequest.format.read arguments)
  let cart ← adaptErr (apiError lib) (Server.createCart st request)
  return (CartResponse.format.write .declared cart).text

/-- The cart is checked out and paid at once, by nobody in particular. -/
def completeCheckout (arguments : Value) (created completed : Int64) : Handler String String := do
  let cartId ← Fallible.mapErr (fun e => e) (stringArg arguments "cart_id")
  let session ← adaptErr (apiError lib) (createCheckoutSession st ⟨cartId, none⟩ created)
  let order ← adaptErr (apiError lib)
    (Server.completeCheckout none session.id completed completed)
  return (Order.format.write .declared order).text

def content (text : String) : Value :=
  sortedObject [("content",
    .array [sortedObject [("type", .string "text"), ("text", .string text)]])]

def callTool (tool : Handler String String) : Handler (Int × String) Value := do
  let text ← adaptErr (Prod.mk (-32602)) tool
  return content text

def dispatch (params : Value) (created completed : Int64) : Handler (Int × String) Value := do
  let name ← okOr (-32602, "missing tool name") ((params.get "name").bind Value.asStr)
  let arguments := (params.get "arguments").getD .null
  match name with
  | "list_products" => callTool (listProducts lib st)
  | "get_product" => callTool (getProduct lib st arguments)
  | "create_cart" => callTool (createCart lib st arguments)
  | "complete_checkout" => callTool (completeCheckout lib st arguments created completed)
  | other => throw (-32602, "unknown tool: " ++ other)

/-- A message without an id is a notification, and is not answered. -/
def handleRequest (request : Value) (created completed : Int64) :
    Prog appSignature (Option Value) :=
  match request.get "id" with
  | none => pure none
  | some id =>
      let params := (request.get "params").getD .null
      match (request.get "method").bind Value.asStr with
      | some "initialize" => pure (some (success (some id) (initializeResult params)))
      | some "tools/list" => pure (some (success (some id) toolsList))
      | some "tools/call" => Prog.bind (ExceptT.run (dispatch lib st params created completed)) (fun
          | .ok result => pure (some (success (some id) result))
          | .error (code, message) => pure (some (error (some id) code message)))
      | some other => pure (some (error (some id) (-32601) ("method not found: " ++ other)))
      | none => pure (some (error (some id) (-32600) "invalid request: missing method"))

variable {lib st} {request id : Value} {created completed : Int64}

/-- The tool that checks out a cart is the one the server serves, its errors and its order
told in text. -/
theorem completeCheckout_eq {arguments : Value} {cartId : String}
    (h : stringArg arguments "cart_id" = .ok cartId) :
    completeCheckout lib st arguments created completed = (do
      let order ← adaptErr (apiError lib) (toolCheckout st cartId created completed completed)
      return (Order.format.write .declared order).text) := by
  rw [completeCheckout, h, toolCheckout, Fallible.adaptErr_bind, bind_assoc]
  rfl

theorem handleRequest_list (hid : request.get "id" = some id)
    (hmethod : (request.get "method").bind Value.asStr = some "tools/call")
    (hname : ((request.get "params").bind (Value.get "name")).bind Value.asStr =
      some "list_products") :
    handleRequest lib st request created completed = pure (some (success (some id)
      (content (feedJson (Server.listProducts lib.toLowercase st .none)).text))) := by
  obtain ⟨params, hparams, hname⟩ : ∃ params, request.get "params" = some params ∧
      (params.get "name").bind Value.asStr = some "list_products" := by
    cases hp : request.get "params" with
    | none =>
        rw [hp] at hname
        cases hname
    | some params =>
        rw [hp] at hname
        exact ⟨params, rfl, hname⟩
  have hdispatch : ExceptT.run (dispatch lib st params created completed) = pure (.ok
      (content (feedJson (Server.listProducts lib.toLowercase st .none)).text)) := by
    rw [dispatch, hname]
    rfl
  simp only [handleRequest, hid, hmethod, hparams, Option.getD_some, hdispatch]
  rfl

end Tools

end Mcp

end AiterCommerce.Server
