import AiterCommerce.Server.Auth
import Mathlib

namespace AiterCommerce.Guarantees.SignedGate

open AiterCommerce.Core Concurrent Server

section Text

theorem line_inj {a b x y : List Char} (ha : '\n' ∉ a) (hb : '\n' ∉ b)
    (h : a ++ '\n' :: x = b ++ '\n' :: y) : a = b ∧ x = y := by
  induction a generalizing b with
  | nil =>
      cases b with
      | nil => exact ⟨rfl, List.tail_eq_of_cons_eq h⟩
      | cons d b => exact absurd (List.head_eq_of_cons_eq h ▸ List.mem_cons_self) hb
  | cons c a ih =>
      cases b with
      | nil => exact absurd (List.head_eq_of_cons_eq h ▸ List.mem_cons_self) ha
      | cons d b =>
          obtain ⟨rfl, htail⟩ := List.cons_eq_cons.mp h
          obtain ⟨rfl, hxy⟩ := ih (fun hm => ha (List.mem_cons_of_mem _ hm))
            (fun hm => hb (List.mem_cons_of_mem _ hm)) htail
          exact ⟨rfl, hxy⟩

theorem contentDigest_injective {crypto : Crypto} (h : Function.Injective crypto.sha256) :
    Function.Injective (contentDigest crypto) := by
  intro x y hxy
  have hb : Encoding.Base64.encode (crypto.sha256 x) = Encoding.Base64.encode (crypto.sha256 y) := by
    have hl := congrArg String.toList hxy
    simpa [contentDigest] using hl
  have hd := congrArg Encoding.Base64.decode hb
  rw [Encoding.Base64.decode_encode, Encoding.Base64.decode_encode] at hd
  exact h (Option.some.inj hd)

theorem five_lines_toList {p₁ p₂ p₃ p₄ p₅ m u t c a : String} {q₂ q₃ q₄ q₅ : List Char}
    (h₂ : p₂.toList = '\n' :: q₂) (h₃ : p₃.toList = '\n' :: q₃) (h₄ : p₄.toList = '\n' :: q₄)
    (h₅ : p₅.toList = '\n' :: q₅) :
    (p₁ ++ m ++ p₂ ++ u ++ p₃ ++ t ++ p₄ ++ c ++ p₅ ++ a).toList =
      p₁.toList ++ (m.toList ++ '\n' :: (q₂ ++ (u.toList ++ '\n' :: (q₃ ++ (t.toList ++
        '\n' :: (q₄ ++ (c.toList ++ '\n' :: (q₅ ++ a.toList)))))))) := by
  simp only [String.toList_append, h₂, h₃, h₄, h₅, List.append_assoc, List.cons_append]

theorem signingString_toList : ∃ p q₂ q₃ q₄ q₅ : List Char, ∀ (m u c a : String) (t : UInt64),
    (signingString m u t c a).toList = p ++ (m.toList ++ '\n' :: (q₂ ++ (u.toList ++
      '\n' :: (q₃ ++ ((toString t.toNat).toList ++ '\n' :: (q₄ ++ (c.toList ++
        '\n' :: (q₅ ++ a.toList)))))))) := by
  have h₂ : "\n\"@target-uri\": ".toList = '\n' :: "\"@target-uri\": ".toList := by decide +kernel
  have h₃ : "\n\"@created\": ".toList = '\n' :: "\"@created\": ".toList := by decide +kernel
  have h₄ : "\n\"content-digest\": ".toList = '\n' :: "\"content-digest\": ".toList := by
    decide +kernel
  have h₅ : "\n\"x-agent-id\": ".toList = '\n' :: "\"x-agent-id\": ".toList := by decide +kernel
  exact ⟨_, _, _, _, _, fun m u c a t => five_lines_toList h₂ h₃ h₄ h₅⟩

/-- The canonical string determines its five components, when no component but
the last can hold a line break. -/
theorem signingString_inj {m m' u u' c c' a a' : String} {t t' : UInt64}
    (hm : '\n' ∉ m.toList) (hm' : '\n' ∉ m'.toList) (hu : '\n' ∉ u.toList)
    (hu' : '\n' ∉ u'.toList) (hc : '\n' ∉ c.toList) (hc' : '\n' ∉ c'.toList)
    (h : signingString m u t c a = signingString m' u' t' c' a') :
    m = m' ∧ u = u' ∧ t = t' ∧ c = c' ∧ a = a' := by
  have hl := congrArg String.toList h
  obtain ⟨p, q₂, q₃, q₄, q₅, hlines⟩ := signingString_toList
  rw [hlines, hlines] at hl
  obtain ⟨h1, hl⟩ := line_inj hm hm' (List.append_cancel_left hl)
  obtain ⟨h2, hl⟩ := line_inj hu hu' (List.append_cancel_left hl)
  obtain ⟨h3, hl⟩ := line_inj (newline_notMem_timestamp t) (newline_notMem_timestamp t')
    (List.append_cancel_left hl)
  obtain ⟨h4, hl⟩ := line_inj hc hc' (List.append_cancel_left hl)
  refine ⟨String.toList_inj.mp h1, String.toList_inj.mp h2, ?_, String.toList_inj.mp h4,
    String.toList_inj.mp (List.append_cancel_left hl)⟩
  exact UInt64.toNat_inj.mp (Nat.repr_injective (String.toList_inj.mp h3))

def VisibleAscii (s : String) : Prop := ∀ c ∈ s.toList, 32 ≤ c.toNat ∧ c.toNat < 127

instance (s : String) : Decidable (VisibleAscii s) :=
  decidable_of_iff (s.toList.all (fun c => 32 ≤ c.toNat && c.toNat < 127) = true)
    (by simp [VisibleAscii])

theorem utf8EncodeChar_of_ascii {c : Char} (h : c.toNat < 127) :
    String.utf8EncodeChar c = [UInt8.ofNat c.toNat] := by
  refine String.utf8EncodeChar_eq_singleton (Char.utf8Size_eq_one_iff.mpr ?_)
  exact UInt32.le_iff_toNat_le.mpr (by change c.toNat ≤ 127; omega)

theorem utf8_eq_flatMap (s : String) : utf8 s = s.toList.flatMap String.utf8EncodeChar := by
  rw [utf8, String.toUTF8_eq_toByteArray, ← String.utf8Encode_toList, List.utf8Encode,
    List.data_toByteArray]

theorem utf8_of_ascii {s : String} (h : VisibleAscii s) :
    utf8 s = s.toList.map (fun c => UInt8.ofNat c.toNat) := by
  rw [utf8_eq_flatMap, List.map_eq_flatMap]
  exact List.flatMap_congr (fun c hc => utf8EncodeChar_of_ascii (h c hc).2)

theorem visible_append {s t : String} (hs : VisibleAscii s) (ht : VisibleAscii t) :
    VisibleAscii (s ++ t) := by
  intro c hc
  rw [String.toList_append] at hc
  exact (List.mem_append.mp hc).elim (hs c) (ht c)

theorem toStr_utf8 {s : String} (h : VisibleAscii s) : toStr (utf8 s) = some s := by
  have hbyte (c : Char) (hc : c ∈ s.toList) : (UInt8.ofNat c.toNat).toNat = c.toNat := by
    obtain ⟨-, hlt⟩ := h c hc
    rw [UInt8.toNat_ofNat']
    omega
  have hvis : (s.toList.map (fun c => UInt8.ofNat c.toNat)).all isVisibleAscii = true := by
    simp only [List.all_map, List.all_eq_true, Function.comp_apply]
    intro c hc
    obtain ⟨hge, hlt⟩ := h c hc
    simp [isVisibleAscii, hbyte c hc, hge, hlt]
  have hback : (s.toList.map (fun c => UInt8.ofNat c.toNat)).map (fun b => Char.ofNat b.toNat) =
      s.toList := by
    rw [List.map_map]
    refine (List.map_congr_left (fun c hc => ?_)).trans (List.map_id s.toList)
    rw [Function.comp_apply, hbyte c hc, Char.ofNat_toNat, id]
  rw [utf8_of_ascii h, toStr, if_pos hvis, hback, String.ofList_toList]

end Text

/-- Verification accepts a signature exactly when a key behind the public one
made it on that very message, and no two bodies share a digest. -/
structure Ideal (crypto : Crypto) : Prop where
  verify_iff : ∀ publicKey message signature, crypto.verify publicKey message signature = true ↔
    ∃ key, crypto.verifyingKey key = publicKey ∧ crypto.sign key message = signature
  sha256_injective : Function.Injective crypto.sha256

def Fresh (timestamp now : UInt64) : Prop := ((timestamp.toNat : Int) - now.toNat).natAbs ≤ 300

instance (timestamp now : UInt64) : Decidable (Fresh timestamp now) :=
  inferInstanceAs (Decidable (_ ≤ _))

theorem absDiff_le_iff (t now : UInt64) : ¬ maxSignatureAgeSecs < absDiff t now ↔ Fresh t now := by
  rw [absDiff, Fresh, UInt64.lt_iff_toNat_lt, show maxSignatureAgeSecs.toNat = 300 by decide]
  split
  next h =>
    rw [UInt64.lt_iff_toNat_lt] at h
    rw [UInt64.toNat_sub_of_le _ _ (UInt64.le_iff_toNat_le.mpr h.le)]
    omega
  next h =>
    rw [UInt64.lt_iff_toNat_lt] at h
    rw [UInt64.toNat_sub_of_le _ _ (UInt64.le_iff_toNat_le.mpr (not_lt.mp h))]
    omega

/-- The signature `sign_request` makes with the key on exactly this agent id and
what is presented. -/
def SignedFor (crypto : Crypto) (publicKey : VerifyingKey) (agentId : String)
    (request : HttpRequest) (timestamp : UInt64) (signature : String) : Prop :=
  ∃ key : SigningKey, crypto.verifyingKey key = publicKey ∧
    signature = (key.signRequest crypto agentId request.method (targetUri request.uri)
      request.body timestamp).signature

section Gate

variable (crypto : Crypto) (reader : SignatureReader) (now : UInt64) (request : HttpRequest)
  (d : Data)

/-- What makes a request of a registered agent authentic, read off the signature
alone. -/
def Signed (agentId : String) (record : AgentRecord) (envelope : RequestSignature) : Prop :=
  d.agents.get agentId = some record ∧
    extractSignature reader request.headers = .ok (agentId, envelope) ∧
    envelope.agentId = agentId ∧ Fresh envelope.timestamp now ∧
    SignedFor crypto record.identity.publicKey agentId request envelope.timestamp
      envelope.signature

def SpelledOut (envelope : RequestSignature) : Prop :=
  envelope.method = request.method ∧ envelope.targetUri = targetUri request.uri ∧
    envelope.contentDigest = contentDigest crypto request.body

theorem requireSigned_run : (requireSigned crypto reader now request).run Op.exec d =
    (match extractSignature reader request.headers with
      | .error message => .error (unauthorized message)
      | .ok (agentId, envelope) =>
          if maxSignatureAgeSecs < absDiff envelope.timestamp now then
            .error (unauthorized "signature timestamp outside acceptable window")
          else match d.agents.get agentId with
            | none => .error (forbidden ("unknown agent " ++ agentId))
            | some record =>
                if maxBodyBytes < request.body.length then
                  .error (unauthorized "failed to read request body")
                else match verifyRequest crypto record.identity envelope request.method
                    (targetUri request.uri) request.body with
                  | .error e => .error (unauthorized ("invalid request signature: " ++ e.debug))
                  | .ok () => .ok agentId, d) := by
  rw [requireSigned, run_mapErr_bind]
  cases extractSignature reader request.headers with
  | error message => rfl
  | ok pair =>
      obtain ⟨agentId, envelope⟩ := pair
      dsimp only
      split
      · rfl
      · rw [run_locked_perform_bind]
        dsimp only [Op.exec]
        rw [run_okOr_bind]
        cases d.agents.get agentId with
        | none => rfl
        | some record =>
            dsimp only [Option.map_some]
            split
            · rfl
            · rw [run_mapErr_bind]
              cases verifyRequest crypto record.identity envelope request.method
                (targetUri request.uri) request.body <;> rfl

variable {crypto} {now} {request} {d}

theorem signedFor_iff (hc : Ideal crypto) {publicKey : VerifyingKey} {agentId signature : String}
    {timestamp : UInt64} :
    (∃ sig : Signature, signature = String.ofList (Encoding.Base64.encode sig.bytes) ∧
      crypto.verify publicKey (utf8 (signingString request.method (targetUri request.uri)
        timestamp (contentDigest crypto request.body) agentId)) sig = true) ↔
      SignedFor crypto publicKey agentId request timestamp signature := by
  simp only [hc.verify_iff, SignedFor, SigningKey.signRequest]
  constructor
  · rintro ⟨sig, hs, key, hk, rfl⟩
    exact ⟨key, hk, hs⟩
  · rintro ⟨key, hk, hs⟩
    exact ⟨_, hs, key, hk, rfl⟩

/-- A request passes the gate for an agent exactly when it is signed for it and
its envelope spells out what is presented. -/
theorem requireSigned_iff (hc : Ideal crypto) (hb : request.body.length ≤ maxBodyBytes)
    (agentId : String) :
    (requireSigned crypto reader now request).run Op.exec d = (.ok agentId, d) ↔
      ∃ record envelope, Signed crypto reader now request d agentId record envelope ∧
        SpelledOut crypto request envelope := by
  rw [requireSigned_run, Prod.mk.injEq, and_iff_left rfl]
  constructor
  · intro h
    split at h
    · cases h
    next id envelope hx =>
      split at h
      · cases h
      next hage =>
        split at h
        · cases h
        next record hr =>
          rw [if_neg (not_lt.mpr hb)] at h
          split at h
          · cases h
          next hv =>
            cases h
            obtain ⟨ha, hd, hm, hu, hs⟩ := (verifyRequest_eq_ok crypto).mp hv
            have hid := (d.agents.wellFormed agentId record hr).1
            rw [hid] at ha hs
            exact ⟨record, envelope, ⟨hr, hx, ha, (absDiff_le_iff _ _).mp hage,
              (signedFor_iff hc).mp hs⟩, hm, hu, hd⟩
  · rintro ⟨record, envelope, ⟨hr, hx, ha, hf, hs⟩, hm, hu, hd⟩
    have hid := (d.agents.wellFormed agentId record hr).1
    have hv : verifyRequest crypto record.identity envelope request.method
        (targetUri request.uri) request.body = .ok () := by
      refine (verifyRequest_eq_ok crypto).mpr ⟨ha.trans hid.symm, hd, hm, hu, ?_⟩
      rw [hid]
      exact (signedFor_iff hc).mpr hs
    simp only [hx, hr, hv, if_neg ((absDiff_le_iff _ _).mpr hf), if_neg (not_lt.mpr hb)]

/-- A request of a registered agent as its own client signs and sends it: the
body is small enough, and the headers arrive as they were sent. -/
structure Honest (crypto : Crypto) (reader : SignatureReader) (now : UInt64)
    (request : HttpRequest) (d : Data) (agentId : String) (record : AgentRecord)
    (key : SigningKey) (timestamp : UInt64) (json : String) : Prop where
  registered : d.agents.get agentId = some record
  owns : crypto.verifyingKey key = record.identity.publicKey
  body : request.body.length ≤ maxBodyBytes
  readable : VisibleAscii agentId ∧ VisibleAscii json
  agentIdSent : request.headers.get agentIdHeader = some (utf8 agentId)
  signatureSent : request.headers.get signatureHeader = some (utf8 json)
  envelope : reader json = some (key.signRequest crypto agentId request.method
    (targetUri request.uri) request.body timestamp)
  fresh : Fresh timestamp now

theorem Honest.extractSignature {reader : SignatureReader} {agentId json : String}
    {record : AgentRecord} {key : SigningKey} {timestamp : UInt64}
    (h : Honest crypto reader now request d agentId record key timestamp json) :
    Server.extractSignature reader request.headers = .ok (agentId,
      key.signRequest crypto agentId request.method (targetUri request.uri) request.body
        timestamp) := by
  simp only [Server.extractSignature, h.agentIdSent, h.signatureSent, Option.bind_some,
    toStr_utf8 h.readable.1, toStr_utf8 h.readable.2, Option.elim_some, bind, Except.bind,
    h.envelope]

theorem Honest.accepted {reader : SignatureReader} {agentId json : String}
    {record : AgentRecord} {key : SigningKey} {timestamp : UInt64} (hc : Ideal crypto)
    (h : Honest crypto reader now request d agentId record key timestamp json) :
    (requireSigned crypto reader now request).run Op.exec d = (.ok agentId, d) := by
  have hs : Signed crypto reader now request d agentId record (key.signRequest crypto agentId
      request.method (targetUri request.uri) request.body timestamp) :=
    ⟨h.registered, h.extractSignature, rfl, h.fresh, key, h.owns, rfl⟩
  exact (requireSigned_iff reader hc h.body agentId).mpr ⟨record, _, hs, rfl, rfl, rfl⟩

end Gate

/-- The gate lets through exactly the signed requests that spell out what they
present; signing strings tell their five components apart; and honest requests
pass. -/
theorem signed_gate {crypto : Crypto} (hc : Ideal crypto) :
    (∀ reader now request d agentId, request.body.length ≤ maxBodyBytes →
      ((requireSigned crypto reader now request).run Op.exec d = (.ok agentId, d) ↔
        ∃ record envelope, Signed crypto reader now request d agentId record envelope ∧
          SpelledOut crypto request envelope)) ∧
    (∀ (m m' u u' a a' : String) (t t' : UInt64) (body body' : Bytes),
      '\n' ∉ m.toList → '\n' ∉ m'.toList → '\n' ∉ u.toList → '\n' ∉ u'.toList →
      signingString m u t (contentDigest crypto body) a =
        signingString m' u' t' (contentDigest crypto body') a' →
      m = m' ∧ u = u' ∧ t = t' ∧ body = body' ∧ a = a') ∧
    ∀ reader now request d agentId record key timestamp json,
      Honest crypto reader now request d agentId record key timestamp json →
        (requireSigned crypto reader now request).run Op.exec d = (.ok agentId, d) := by
  refine ⟨fun reader now request d agentId hb => requireSigned_iff reader hc hb agentId, ?_,
    fun reader now request d agentId record key timestamp json h => h.accepted hc⟩
  intro m m' u u' a a' t t' body body' hm hm' hu hu' h
  obtain ⟨hm, hu, ht, hd, ha⟩ := signingString_inj hm hm' hu hu'
    (newline_notMem_contentDigest crypto body) (newline_notMem_contentDigest crypto body') h
  exact ⟨hm, hu, ht, contentDigest_injective hc.sha256_injective hd, ha⟩

section Recorded

/-- The key, the digest and the signature of one request of the demo agent, as
the real libraries compute them. -/
def recordedKey : SigningKey := ⟨demoAgentSeed⟩

def recordedPublicKey : VerifyingKey :=
  ⟨[222, 253, 249, 231, 220, 111, 114, 159, 160, 40, 183, 243, 104, 143, 134, 190, 190, 75, 191,
    85, 239, 70, 70, 0, 242, 171, 207, 132, 77, 102, 160, 83]⟩

def recordedBody : Bytes := [0x7b, 0x7d]

def recordedDigest : Bytes :=
  [68, 19, 111, 163, 85, 179, 103, 138, 17, 70, 173, 22, 247, 232, 100, 158, 148, 251, 79, 194, 31,
    231, 126, 131, 16, 192, 96, 246, 28, 170, 255, 138]

def recordedMessage : Bytes :=
  utf8 (signingString "POST" "/carts" 1700000000
    "sha-256=:RBNvo1WzZ4oRRq0W9+hknpT7T8If536DEMBg9hyq/4o=:" demoAgentId)

def recordedSignature : Signature :=
  ⟨[100, 134, 125, 115, 47, 178, 134, 135, 50, 46, 196, 123, 232, 200, 89, 30, 151, 114, 78, 212,
    170, 64, 183, 36, 155, 22, 140, 238, 80, 2, 127, 104, 38, 142, 239, 105, 208, 123, 16, 7, 211,
    31, 237, 133, 22, 38, 101, 54, 4, 104, 234, 175, 3, 116, 200, 100, 134, 187, 197, 156, 118, 254,
    136, 10], rfl⟩

def recordedSign (known : Bool) (message : Bytes) : Signature :=
  if known ∧ message = recordedMessage then recordedSignature else .zeros

def recordedCrypto : Crypto where
  sha256 body := if body = recordedBody then recordedDigest else List.replicate 33 0 ++ body
  verifyingKey key := if key = recordedKey then recordedPublicKey else ⟨[]⟩
  sign key message := recordedSign (key = recordedKey) message
  verify publicKey message signature := decide
    ((publicKey = recordedPublicKey ∨ publicKey = ⟨[]⟩) ∧
      signature = recordedSign (publicKey = recordedPublicKey) message)
  hmacSha256 _ body := body

theorem recordedCrypto_ideal : Ideal recordedCrypto where
  verify_iff publicKey message signature := by
    have hne : (⟨[]⟩ : VerifyingKey) ≠ recordedPublicKey := by decide
    have hseed : (⟨[]⟩ : SigningKey) ≠ recordedKey := by decide
    simp only [recordedCrypto, decide_eq_true_eq]
    constructor
    · rintro ⟨rfl | rfl, rfl⟩
      · exact ⟨recordedKey, by simp⟩
      · exact ⟨⟨[]⟩, by simp [hne, hseed]⟩
    · rintro ⟨key, rfl, rfl⟩
      by_cases hk : key = recordedKey <;> simp [hk, hne]
  sha256_injective a b h := by
    have hlen (x : Bytes) : recordedDigest ≠ List.replicate 33 0 ++ x := fun hx => by
      have hl := congrArg List.length hx
      rw [List.length_append, List.length_replicate, show recordedDigest.length = 32 from rfl] at hl
      omega
    simp only [recordedCrypto] at h
    split at h <;> split at h
    next ha hb => rw [ha, hb]
    next => exact absurd h (hlen b)
    next => exact absurd h.symm (hlen a)
    next => exact List.append_cancel_left h

def recordedJson : String :=
  "\x7b\"agent_id\":\"agent-demo\",\"method\":\"POST\",\"target_uri\":\"/carts\"," ++
  "\"content_digest\":\"sha-256=:RBNvo1WzZ4oRRq0W9+hknpT7T8If536DEMBg9hyq/4o=:\"," ++
  "\"timestamp\":1700000000,\"signature\":\"ZIZ9cy+yhocyLsR76MhZHpdyTtSqQLckmxaM7lACf2gm" ++
  "ju9p0HsQB9Mf7YUWJmU2BGjqrwN0yGSGu8Wcdv6ICg==\"\x7d"

def recordedEnvelope : RequestSignature where
  agentId := "agent-demo"
  method := "POST"
  targetUri := "/carts"
  contentDigest := "sha-256=:RBNvo1WzZ4oRRq0W9+hknpT7T8If536DEMBg9hyq/4o=:"
  timestamp := 1700000000
  signature := "ZIZ9cy+yhocyLsR76MhZHpdyTtSqQLckmxaM7lACf2gm" ++
    "ju9p0HsQB9Mf7YUWJmU2BGjqrwN0yGSGu8Wcdv6ICg=="

/-- The recorded header but for the method it spells out, which the signature does
not cover twice. -/
def relabelledJson : String :=
  "\x7b\"agent_id\":\"agent-demo\",\"method\":\"PUT\",\"target_uri\":\"/carts\"," ++
  "\"content_digest\":\"sha-256=:RBNvo1WzZ4oRRq0W9+hknpT7T8If536DEMBg9hyq/4o=:\"," ++
  "\"timestamp\":1700000000,\"signature\":\"ZIZ9cy+yhocyLsR76MhZHpdyTtSqQLckmxaM7lACf2gm" ++
  "ju9p0HsQB9Mf7YUWJmU2BGjqrwN0yGSGu8Wcdv6ICg==\"\x7d"

def relabelledEnvelope : RequestSignature := { recordedEnvelope with method := "PUT" }

def recordedReader : SignatureReader := fun json =>
  if json = recordedJson then some recordedEnvelope
  else if json = relabelledJson then some relabelledEnvelope
  else none

def recordedRequest (json : String) : HttpRequest where
  method := "POST"
  uri := ⟨none, none, some "/carts"⟩
  headers := [(agentIdHeader, utf8 demoAgentId), (signatureHeader, utf8 json)]
  body := recordedBody

theorem recordedJson_visible : VisibleAscii recordedJson := by
  refine visible_append (visible_append (visible_append ?_ ?_) ?_) ?_ <;> decide

theorem recordedEnvelope_eq : recordedEnvelope = recordedKey.signRequest recordedCrypto demoAgentId
    "POST" "/carts" recordedBody 1700000000 := by
  decide +kernel

theorem recorded_registered : (Data.new recordedCrypto).agents.get demoAgentId =
    some ⟨demoAgent recordedCrypto, ⟨demoAgentCap, .USD⟩, Amount.zero .USD⟩ :=
  AgentRegistry.get_register _ _ _ _

theorem recorded_honest : Honest recordedCrypto recordedReader 1700000060
    (recordedRequest recordedJson) (Data.new recordedCrypto) demoAgentId
    ⟨demoAgent recordedCrypto, ⟨demoAgentCap, .USD⟩, Amount.zero .USD⟩ recordedKey 1700000000
    recordedJson where
  registered := recorded_registered
  owns := rfl
  body := by decide
  readable := ⟨by decide, recordedJson_visible⟩
  agentIdSent := by decide +kernel
  signatureSent := by decide +kernel
  envelope := by
    have h : recordedReader recordedJson = some recordedEnvelope := by simp [recordedReader]
    rw [h, recordedEnvelope_eq]
    rfl
  fresh := by decide

end Recorded

theorem signed_gate_recorded :
    (requireSigned recordedCrypto recordedReader 1700000060 (recordedRequest recordedJson)).run
      Op.exec (Data.new recordedCrypto) = (.ok demoAgentId, Data.new recordedCrypto) :=
  (signed_gate recordedCrypto_ideal).2.2 _ _ _ _ _ _ _ _ _ recorded_honest

/-- The signature of the real request is not enough: the gate also wants the
envelope to repeat the method it was made for. -/
theorem signed_not_enough : ¬ ∀ (crypto : Crypto) (reader : SignatureReader) (now : UInt64)
    (request : HttpRequest) (d : Data) (agentId : String), Ideal crypto →
    request.body.length ≤ maxBodyBytes →
      ((requireSigned crypto reader now request).run Op.exec d = (.ok agentId, d) ↔
        ∃ record envelope, Signed crypto reader now request d agentId record envelope) := by
  intro h
  have hx : extractSignature recordedReader (recordedRequest relabelledJson).headers =
      .ok (demoAgentId, relabelledEnvelope) := by
    decide +kernel
  have hs : relabelledEnvelope.signature = (recordedKey.signRequest recordedCrypto demoAgentId
      "POST" "/carts" recordedBody 1700000000).signature :=
    (show _ = recordedEnvelope.signature from rfl).trans
      (congrArg RequestSignature.signature recordedEnvelope_eq)
  have hpass := (h recordedCrypto recordedReader 1700000060 (recordedRequest relabelledJson)
    (Data.new recordedCrypto) demoAgentId recordedCrypto_ideal (by decide)).mpr
      ⟨_, _, recorded_registered, hx, rfl, by decide, recordedKey, rfl, hs⟩
  obtain ⟨record, envelope, hsigned, hm, -⟩ :=
    (requireSigned_iff recordedReader recordedCrypto_ideal (by decide) demoAgentId).mp hpass
  obtain ⟨-, rfl⟩ := Prod.mk.inj (Except.ok.inj (hx.symm.trans hsigned.2.1))
  exact absurd hm (by decide)

end AiterCommerce.Guarantees.SignedGate
