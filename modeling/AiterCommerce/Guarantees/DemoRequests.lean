import AiterCommerce.Guarantees.SignedGate
import AiterCommerce.Server.Client

namespace AiterCommerce.Guarantees.DemoStore

open AiterCommerce.Core Concurrent Server
open Encoding.Json (Value chars_visible)
open SignedGate (VisibleAscii Fresh)

section Signing

theorem visible_base64 (bytes : Bytes) :
    VisibleAscii (String.ofList (Encoding.Base64.encode bytes)) := by
  intro c hc
  rw [String.toList_ofList] at hc
  exact Encoding.Base64.encode_visible bytes c hc

theorem texts_signature (s : RequestSignature) :
    (RequestSignature.format.write .declared s).texts = ["agent_id", s.agentId, "method", s.method,
      "target_uri", s.targetUri, "content_digest", s.contentDigest, "timestamp", "signature",
      s.signature] := rfl

theorem visible_signatureJson (crypto : Crypto) {uri : String} (body : String) (now : Int64)
    (huri : VisibleAscii uri) : VisibleAscii (signatureJson (demoSignature crypto uri body now)) := by
  have hdigest : VisibleAscii (contentDigest crypto (utf8 body)) :=
    SignedGate.visible_append (SignedGate.visible_append (by decide) (visible_base64 _)) (by decide)
  have hsignature : VisibleAscii (demoSignature crypto uri body now).signature := visible_base64 _
  have hagent : VisibleAscii demoAgentId := by decide
  have hpost : VisibleAscii "POST" := by decide
  have hkeys : VisibleAscii "agent_id" ∧ VisibleAscii "method" ∧ VisibleAscii "target_uri" ∧
      VisibleAscii "content_digest" ∧ VisibleAscii "timestamp" ∧ VisibleAscii "signature" := by
    decide
  obtain ⟨h1, h2, h3, h4, h5, h6⟩ := hkeys
  have htexts : ∀ s ∈ (RequestSignature.format.write .declared
      (demoSignature crypto uri body now)).texts, VisibleAscii s := by
    rw [texts_signature]
    simp only [List.forall_mem_cons]
    exact ⟨h1, hagent, h2, hpost, h3, huri, h4, hdigest, h5, h6, hsignature, by simp⟩
  intro c hc
  rw [signatureJson, Value.text, String.toList_ofList] at hc
  exact chars_visible htexts c hc

end Signing

section Exchanges

variable {lib : Libraries} {st : AppState} {d : ServerData} {uri body : String} {v : Visit}

def Verifies (crypto : Crypto) : Prop :=
  ∀ key message, crypto.verify (crypto.verifyingKey key) message (crypto.sign key message) = true

def ReadsBack (lib : Libraries) (uri body : String) (v : Visit) : Prop :=
  lib.readSignature (signatureJson (demoSignature lib.crypto uri body v.sentAt)) =
    some (demoSignature lib.crypto uri body v.sentAt)

/-- The clock of the client and the clock of the server are at most five minutes apart. -/
def Punctual (v : Visit) : Prop := Fresh v.sentAt.toUInt64 v.readings.signedAt

structure Signable (lib : Libraries) (uri body : String) (v : Visit) : Prop where
  verifies : Verifies lib.crypto
  visible : VisibleAscii uri
  readsBack : ReadsBack lib uri body v
  punctual : Punctual v

def Registered (crypto : Crypto) (data : Data) (spent : Amount) : Prop :=
  data.agents.get demoAgentId = some ⟨demoAgent crypto, ⟨demoAgentCap, .USD⟩, spent⟩

def signedHttp (lib : Libraries) (uri body : String) (v : Visit) : HttpRequest :=
  (buildSignedRequest lib.crypto uri body v.sentAt).http

theorem signedHttp_body (lib : Libraries) (uri body : String) (v : Visit) :
    (signedHttp lib uri body v).body = utf8 body := rfl

theorem signatureHeader_http (signed : SignedRequest) :
    signed.http.headers.get signatureHeader = some (utf8 signed.signatureHeader) := by
  rfl

theorem extractSignature_signedHttp (h : Signable lib uri body v) :
    extractSignature lib.readSignature (signedHttp lib uri body v).headers =
      .ok (demoAgentId, demoSignature lib.crypto uri body v.sentAt) := by
  have hagent : (signedHttp lib uri body v).headers.get agentIdHeader = some (utf8 demoAgentId) := by
    rfl
  have hsignature : (signedHttp lib uri body v).headers.get signatureHeader =
      some (utf8 (signatureJson (demoSignature lib.crypto uri body v.sentAt))) :=
    signatureHeader_http (buildSignedRequest lib.crypto uri body v.sentAt)
  have hvisible : VisibleAscii demoAgentId := by decide
  have hread : lib.readSignature (signatureJson (demoSignature lib.crypto uri body v.sentAt)) =
      some (demoSignature lib.crypto uri body v.sentAt) := h.readsBack
  simp only [extractSignature, hagent, hsignature, Option.bind_some,
    SignedGate.toStr_utf8 hvisible,
    SignedGate.toStr_utf8 (visible_signatureJson lib.crypto body v.sentAt h.visible),
    Option.elim_some, bind, Except.bind, hread]

/-- The gate looks at the size of the body and at nothing else that could fail. -/
theorem requireSigned_signedHttp (h : Signable lib uri body v) {spent : Amount}
    (hreg : Registered lib.crypto d.data spent) :
    (requireSigned lib.crypto lib.readSignature v.readings.signedAt
      (signedHttp lib uri body v)).run Op.exec d.data =
    (if maxBodyBytes < (utf8 body).length then .error (unauthorized "failed to read request body")
      else .ok demoAgentId, d.data) := by
  have hverify : verifyRequest lib.crypto (demoAgent lib.crypto)
      (demoSignature lib.crypto uri body v.sentAt) "POST" uri (utf8 body) = .ok () :=
    (verifyRequest_eq_ok lib.crypto).mpr ⟨rfl, rfl, rfl, rfl, _, rfl, h.verifies _ _⟩
  have hage : ¬ maxSignatureAgeSecs <
      absDiff (demoSignature lib.crypto uri body v.sentAt).timestamp v.readings.signedAt :=
    (SignedGate.absDiff_le_iff _ _).mpr h.punctual
  have hreg' : d.data.agents.get demoAgentId = _ := hreg
  rw [SignedGate.requireSigned_run, extractSignature_signedHttp h]
  dsimp only
  rw [if_neg hage, hreg']
  dsimp only
  split
  next hlong =>
    rw [if_pos (show maxBodyBytes < (utf8 body).length from hlong)]
  next hshort =>
    rw [if_neg (show ¬ maxBodyBytes < (utf8 body).length from hshort)]
    rw [show verifyRequest lib.crypto (demoAgent lib.crypto)
      (demoSignature lib.crypto uri body v.sentAt) (signedHttp lib uri body v).method
      (targetUri (signedHttp lib uri body v).uri) (signedHttp lib uri body v).body = .ok () from
        hverify]

theorem postSigned_tooLong (h : Signable lib uri body v) {spent : Amount}
    (hreg : Registered lib.crypto d.data spent)
    (ht : (route lib (signedHttp lib uri body v) v.readings).tier = .signed)
    (hlong : maxBodyBytes < (utf8 body).length) :
    (postSigned lib st uri body v).run d = (.error (.http 401), d) := by
  have hgate := requireSigned_signedHttp h hreg
  rw [if_pos hlong] at hgate
  have hrun : (serveHttp lib st (signedHttp lib uri body v) v.peer v.readings).run ServerData.exec
      d = (.refused (unauthorized "failed to read request body"), d) := by
    rw [serveHttp, ht]
    dsimp only
    rw [Service.run_requireSigned, hgate]
  exact run_send hrun

def Left (d : ServerData) (n : Nat) : Prop :=
  ∃ used, d.writeLimiter.Used (writeKey demoAgentId) used ∧ used + n ≤ d.writeLimiter.limit.toNat

theorem Left.hit {n : Nat} (h : Left d (n + 1)) (now : UInt64) :
    (d.writeLimiter.check (writeKey demoAgentId) now).1 = true ∧
      Left { d with writeLimiter := (d.writeLimiter.check (writeKey demoAgentId) now).2 } n := by
  obtain ⟨used, hused, hle⟩ := h
  obtain ⟨hok, hlimit, hused'⟩ := RateLimiter.check_of_used hused (by omega) now
  exact ⟨hok, used + 1, hused', by rw [hlimit]; omega⟩

/-- Any other write reaches its handler, and the client sees how it went by the status. -/
theorem postSigned_run (h : Signable lib uri body v) {spent : Amount}
    (hreg : Registered lib.crypto d.data spent) {call : Call} {n : Nat} (hleft : Left d (n + 1))
    (hroute : route lib (signedHttp lib uri body v) v.readings = .handler call)
    (ht : call.tier = .signed) (hshort : ¬ maxBodyBytes < (utf8 body).length) {r : Reply}
    {data : Data} (hrun : (handler lib.toPlatform st ⟨some demoAgentId, call⟩).run Op.exec d.data =
      (r, data)) :
    ∃ d', d'.data = data ∧ Left d' n ∧ (postSigned lib st uri body v).run d =
      (if (Response.reply r).isSuccess then .ok (.reply r) else .error (.http r.status), d') := by
  obtain ⟨hadmitted, hleft'⟩ := hleft.hit v.readings.hitAt
  have hgate := requireSigned_signedHttp h hreg
  rw [if_neg hshort] at hgate
  refine ⟨⟨data, (d.writeLimiter.check (writeKey demoAgentId) v.readings.hitAt).2, d.readLimiter⟩,
    rfl, hleft', ?_⟩
  have hserve : (serveHttp lib st (signedHttp lib uri body v) v.peer v.readings).run ServerData.exec
      d = (.reply r, ⟨data, (d.writeLimiter.check (writeKey demoAgentId) v.readings.hitAt).2,
        d.readLimiter⟩) := by
    rw [serveHttp, hroute]
    dsimp only [Endpoint.tier]
    rw [ht]
    dsimp only
    rw [Service.run_requireSigned, hgate]
    dsimp only
    rw [Service.run_limitWrites hadmitted, run_answer_handler, hrun]
  exact run_send hserve

end Exchanges

end AiterCommerce.Guarantees.DemoStore
