import AiterCommerce.Encoding.Value
import AiterCommerce.Server.Auth

namespace AiterCommerce.Server.Pages

open AiterCommerce.Core Encoding.Json

def name : String := "AITER COMMERCE"

def version : String := "0.1.0"

/-- Only a literal `https`, in whatever case, is not read as `http`. -/
def forwardedScheme (headers : HeaderMap) : String :=
  match ((headers.get "x-forwarded-proto").bind toStr).map (fun v => v.toList.map Char.toLower) with
  | some proto => if proto = "https".toList then "https" else "http"
  | none => "http"

def isHexDigit (c : Char) : Bool :=
  c.isDigit || (('a' ≤ c) && (c ≤ 'f')) || (('A' ≤ c) && (c ≤ 'F'))

def stripBrackets : List Char → Option (List Char)
  | '[' :: rest => if rest.getLast? = some ']' then some rest.dropLast else none
  | _ => none

/-- A bracketed IPv6 literal, or a name and at most one port. -/
def validHost (host : List Char) : Bool :=
  match stripBrackets host with
  | some inner => !inner.isEmpty && inner.all (fun c => isHexDigit c || c == ':')
  | none =>
      let (host, port) := (splitOnce ':' host).elim (host, none) (fun (h, p) => (h, some p))
      if port.any (fun p => p.isEmpty || !p.all Char.isDigit) then false
      else !host.isEmpty && host.all (fun c => c.isAlphanum || c == '.' || c == '-')

/-- The first entry of the forwarded hosts, else the request's own host, else the
default; either counts only when it is valid. -/
def forwardedHost (headers : HeaderMap) : String :=
  let forwarded := (((headers.get "x-forwarded-host").bind toStr).map
    (fun v => trim (v.toList.takeWhile (· ≠ ',')))).filter validHost
  let host := (((headers.get "host").bind toStr).map String.toList).filter validHost
  String.ofList ((forwarded.or host).getD "localhost:8080".toList)

def baseUrl (headers : HeaderMap) : String :=
  forwardedScheme headers ++ "://" ++ forwardedHost headers

def capabilities : List String :=
  ["catalog", "search", "discovery", "llms", "carts", "checkout_sessions", "seed", "health"]

def endpoints (baseUrl : String) : List (String × String) :=
  [("catalog", baseUrl ++ "/catalog/products"),
    ("product_lookup", baseUrl ++ "/catalog/products/\x7bid\x7d"),
    ("search", baseUrl ++ "/catalog/products?search=\x7bquery\x7d"),
    ("discovery", baseUrl ++ "/.well-known/agent-card.json"),
    ("llms", baseUrl ++ "/llms.txt"),
    ("carts", baseUrl ++ "/carts"),
    ("checkout_sessions", baseUrl ++ "/checkout_sessions"),
    ("seed", baseUrl ++ "/seed/catalog"),
    ("health", baseUrl ++ "/agentic/health")]

def agentCard (headers : HeaderMap) : Value :=
  sortedObject [
    ("agent", sortedObject [("name", .string name), ("version", .string version)]),
    ("url", .string "https://github.com/DeathSurfing/aiter-commerce"),
    ("service", .string (baseUrl headers)),
    ("capabilities", .array (capabilities.map .string)),
    ("endpoints", sortedObject ((endpoints (baseUrl headers)).map (fun e => (e.1, .string e.2))))]

def zeroPadded (width : Nat) (n : Int64) : String :=
  let sign := if n < 0 then "-" else ""
  let digits := toString n.toInt.natAbs
  sign ++ String.ofList (List.replicate (width - (sign ++ digits).length) '0') ++ digits

def formatAmount (amount : Amount) : String :=
  let exponent := amount.currency.minorUnitExponent
  let divisor : Int64 := 10 ^ exponent
  let major := amount.units / divisor
  let frac := (amount.units % divisor).abs
  let code := amount.currency.code
  if exponent = 0 then toString major.toInt ++ " " ++ code
  else toString major.toInt ++ "." ++ zeroPadded exponent frac ++ " " ++ code

def llmsHeader : String :=
  "# AITER COMMERCE catalog\n\n" ++
  "> Machine-readable catalog of products available from this merchant.\n" ++
  "> Served in stable (id-ascending) order.\n" ++
  "> - [Browse catalog](/catalog/products)\n" ++
  "> - [Agent card](/.well-known/agent-card.json)\n\n" ++
  "## Products\n\n"

/-- What follows the link of a product: its price when it has no description. -/
def llmsText (product : Product) : String :=
  if product.description = "" then formatAmount product.price else product.description

def llmsTxt (st : AppState) : String :=
  st.products.foldl (fun out product => out ++ ("- [" ++ product.title ++ "](/catalog/products/" ++
    product.id ++ "): " ++ llmsText product ++ "\n")) llmsHeader

end AiterCommerce.Server.Pages
