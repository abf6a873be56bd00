import AiterCommerce.Server.State

namespace AiterCommerce.Server

open AiterCommerce.Core Concurrent
open Fallible (locked mapErr okOr)

def agentIdHeader : String := "x-agent-id"

def signatureHeader : String := "x-request-signature"

def maxBodyBytes : Nat := 64 * 1024

def maxSignatureAgeSecs : UInt64 := 300

/-- Header names in lower case with their raw values, in the order received. -/
abbrev HeaderMap := List (String × Bytes)

def HeaderMap.get (headers : HeaderMap) (name : String) : Option Bytes :=
  (headers.find? (fun h => h.1 = name)).map Prod.snd

def isVisibleAscii (b : UInt8) : Bool := (32 ≤ b.toNat && b.toNat < 127) || b == 9

def toStr (value : Bytes) : Option String :=
  if value.all isVisibleAscii then
    some (String.ofList (value.map (fun b => Char.ofNat b.toNat)))
  else none

structure Uri where
  scheme : Option String
  authority : Option String
  pathAndQuery : Option String
  deriving DecidableEq

/-- The target as the signer saw it: absolute form when there is a scheme and an
authority, otherwise path and query. -/
def targetUri (uri : Uri) : String :=
  match uri.scheme, uri.authority with
  | some scheme, some authority => scheme ++ "://" ++ authority ++ uri.pathAndQuery.getD ""
  | _, _ => uri.pathAndQuery.getD "/"

structure HttpRequest where
  method : String
  uri : Uri
  headers : HeaderMap
  body : Bytes
  deriving DecidableEq

abbrev SignatureReader := String → Option RequestSignature

def extractSignature (reader : SignatureReader) (headers : HeaderMap) :
    Except String (String × RequestSignature) := do
  let agentId ← ((headers.get agentIdHeader).bind toStr).elim
    (.error ("missing " ++ agentIdHeader ++ " header")) .ok
  let signatureJson ← ((headers.get signatureHeader).bind toStr).elim
    (.error ("missing " ++ signatureHeader ++ " header")) .ok
  match reader signatureJson with
  | some signature => .ok (agentId, signature)
  | none => .error ("malformed " ++ signatureHeader ++ " header")

def absDiff (a b : UInt64) : UInt64 := if a < b then b - a else a - b

def unauthorized (message : String) : HttpError := ⟨401, message⟩

def forbidden (message : String) : HttpError := ⟨403, message⟩

/-- The guard of the write routes: the agent it answers is the one the request
is passed on with. -/
def requireSigned (crypto : Crypto) (reader : SignatureReader) (now : UInt64)
    (request : HttpRequest) : Handler HttpError String := do
  let (agentId, signature) ← mapErr unauthorized (extractSignature reader request.headers)
  if maxSignatureAgeSecs < absDiff signature.timestamp now then
    throw (unauthorized "signature timestamp outside acceptable window")
  let identity ← okOr (forbidden ("unknown agent " ++ agentId))
    (← locked .agents (perform (.agentIdentity agentId)))
  if maxBodyBytes < request.body.length then
    throw (unauthorized "failed to read request body")
  mapErr (fun e => unauthorized ("invalid request signature: " ++ e.debug))
    (verifyRequest crypto identity signature request.method (targetUri request.uri) request.body)
  return agentId

end AiterCommerce.Server
