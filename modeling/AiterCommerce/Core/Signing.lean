import AiterCommerce.Encoding.Base64

namespace AiterCommerce.Core

abbrev Bytes := List UInt8

def utf8 (s : String) : Bytes := s.toUTF8.data.toList

structure SigningKey where
  seed : Bytes
  deriving DecidableEq

structure VerifyingKey where
  bytes : Bytes
  deriving DecidableEq

structure Signature where
  bytes : Bytes
  length_eq : bytes.length = 64
  deriving DecidableEq

def Signature.zeros : Signature := ⟨List.replicate 64 0, rfl⟩

/-- The cryptographic library: SHA-256, Ed25519 and HMAC-SHA256. -/
structure Crypto where
  sha256 : Bytes → Bytes
  verifyingKey : SigningKey → VerifyingKey
  sign : SigningKey → Bytes → Signature
  verify : VerifyingKey → Bytes → Signature → Bool
  hmacSha256 : Bytes → Bytes → Bytes

structure AgentIdentity where
  id : String
  publicKey : VerifyingKey
  deriving DecidableEq

/-- The envelope of a signed request: the covered components, spelled out, and
the signature over their canonical form. -/
structure RequestSignature where
  agentId : String
  method : String
  targetUri : String
  contentDigest : String
  timestamp : UInt64
  signature : String
  deriving DecidableEq

inductive SigningError
  | agentMismatch
  | digestMismatch
  | requestMismatch
  | invalidSignature
  deriving DecidableEq

def SigningError.debug : SigningError → String
  | agentMismatch => "AgentMismatch"
  | digestMismatch => "DigestMismatch"
  | requestMismatch => "RequestMismatch"
  | invalidSignature => "InvalidSignature"

variable (crypto : Crypto)

def contentDigest (body : Bytes) : String :=
  "sha-256=:" ++ String.ofList (Encoding.Base64.encode (crypto.sha256 body)) ++ ":"

/-- The canonical string: one component a line. -/
def signingString (method targetUri : String) (timestamp : UInt64)
    (contentDigest agentId : String) : String :=
  "\"@method\": " ++ method ++ "\n\"@target-uri\": " ++ targetUri ++ "\n\"@created\": " ++
    toString timestamp.toNat ++ "\n\"content-digest\": " ++ contentDigest ++
    "\n\"x-agent-id\": " ++ agentId

def SigningKey.identity (key : SigningKey) (id : String) : AgentIdentity :=
  ⟨id, crypto.verifyingKey key⟩

def SigningKey.signRequest (key : SigningKey) (agentId method targetUri : String) (body : Bytes)
    (timestamp : UInt64) : RequestSignature where
  agentId := agentId
  method := method
  targetUri := targetUri
  contentDigest := contentDigest crypto body
  timestamp := timestamp
  signature := String.ofList (Encoding.Base64.encode (crypto.sign key (utf8 (signingString method
    targetUri timestamp (contentDigest crypto body) agentId))).bytes)

def Signature.fromBytes (bytes : Bytes) : Option Signature :=
  if h : bytes.length = 64 then some ⟨bytes, h⟩ else none

def verifyRequest (identity : AgentIdentity) (signature : RequestSignature)
    (method targetUri : String) (body : Bytes) : Except SigningError Unit :=
  if signature.agentId ≠ identity.id then .error .agentMismatch
  else if signature.contentDigest ≠ contentDigest crypto body then .error .digestMismatch
  else if signature.method ≠ method ∨ signature.targetUri ≠ targetUri then .error .requestMismatch
  else
    let base := signingString signature.method signature.targetUri signature.timestamp
      signature.contentDigest signature.agentId
    match (Encoding.Base64.decode signature.signature.toList).bind Signature.fromBytes with
    | none => .error .invalidSignature
    | some sig =>
        if crypto.verify identity.publicKey (utf8 base) sig then .ok ()
        else .error .invalidSignature

theorem utf8_injective : Function.Injective utf8 := by
  intro s t h
  apply String.toByteArray_inj.mp
  exact ByteArray.ext (Array.toList_inj.mp h)

theorem Signature.fromBytes_eq_some {bytes : Bytes} {s : Signature} :
    Signature.fromBytes bytes = some s ↔ bytes = s.bytes := by
  rw [Signature.fromBytes]
  constructor
  · intro h
    split at h
    · cases h; rfl
    · cases h
  · rintro rfl
    rw [dif_pos s.length_eq]

theorem newline_notMem_timestamp (t : UInt64) : '\n' ∉ (toString t.toNat).toList := by
  intro h
  have hd : ('\n').isDigit = true := by
    apply Nat.isDigit_of_mem_toDigits (b := 10) (n := t.toNat) (by omega) (by omega)
    simpa using h
  exact absurd hd (by decide)

theorem newline_notMem_contentDigest (body : Bytes) :
    '\n' ∉ (contentDigest crypto body).toList := by
  have h := Encoding.Base64.encode_no_newline (crypto.sha256 body)
  simp [contentDigest, h]

theorem verifyRequest_eq_ok {identity : AgentIdentity} {signature : RequestSignature}
    {method targetUri : String} {body : Bytes} :
    verifyRequest crypto identity signature method targetUri body = .ok () ↔
      signature.agentId = identity.id ∧ signature.contentDigest = contentDigest crypto body ∧
        signature.method = method ∧ signature.targetUri = targetUri ∧
        ∃ sig : Signature,
          signature.signature = String.ofList (Encoding.Base64.encode sig.bytes) ∧
            crypto.verify identity.publicKey (utf8 (signingString method targetUri
              signature.timestamp (contentDigest crypto body) identity.id)) sig = true := by
  have hsig (sig : Signature) :
      (Encoding.Base64.decode signature.signature.toList).bind Signature.fromBytes = some sig ↔
        signature.signature = String.ofList (Encoding.Base64.encode sig.bytes) := by
    simp only [Option.bind_eq_some_iff, Encoding.Base64.decode_eq_some,
      Signature.fromBytes_eq_some, exists_eq_right, ← String.toList_inj, String.toList_ofList]
  rw [verifyRequest]
  split
  next ha => simp [ha]
  next ha =>
    split
    next hd => simp [hd]
    next hd =>
      split
      next hm => rcases hm with hm | hm <;> simp [hm]
      next hm =>
        simp only [ne_eq, not_not, not_or] at ha hd hm
        obtain ⟨hm, hu⟩ := hm
        simp only [ha, hd, hm, hu, true_and, ← hsig]
        split
        next hn => simp [hn]
        next sig hs => simp [hs]

end AiterCommerce.Core
