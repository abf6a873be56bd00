import AiterCommerce.Concurrent.Own
import AiterCommerce.Guarantees.SignedGate
import AiterCommerce.Server.Client
import AiterCommerce.Server.Footprint

namespace AiterCommerce.Guarantees.Mediation

open AiterCommerce.Core Concurrent Server
open Fallible (Always Respects)

def acts : Op → Bool
  | .carts (.get _) | .sessions (.get _) | .orders (.get _) | .consents (.get _)
  | .cartCancelled _ | .agentIdentity _ => false
  | _ => true

theorem exec_of_not_acts {o : Op} (h : acts o = false) (d : Data) : (o.exec d).2 = d := by
  cases o with
  | carts o | sessions o | orders o | consents o =>
      cases o with
      | get key => rfl
      | create key item | update key item => cases h
  | cartCancelled id | agentIdentity id => rfl
  | _ => cases h

variable {lib : Libraries} {st : AppState} {request : HttpRequest} {r : Readings}

section Routes

theorem extracted_handler {α : Type} {tier : Tier} {f : α → Endpoint} {x : Except HttpError α}
    {call : Call} (h : extracted tier f x = .handler call) : ∃ a, f a = .handler call := by
  cases x with
  | error e => cases h
  | ok a => exact ⟨a, h⟩

/-- The deliveries of the payment gateway are the one write that no agent signs. -/
def delivery (request : HttpRequest) (r : Readings) : Call :=
  .razorpayWebhook ((request.headers.get "x-razorpay-signature").bind toStr) request.body r.now

theorem webhookRoute_handler {call : Call} (h : webhookRoute request r = .handler call) :
    call = delivery request r := by
  rw [webhookRoute] at h
  split at h
  · cases h
  · cases h
    rfl

theorem get_handler {path : Path} {call : Call}
    (h : (router lib request r path).get = some (.handler call)) : ∃ id, call = .getCart id := by
  cases path with
  | cart id =>
      obtain ⟨id', h⟩ := extracted_handler (Option.some.inj h)
      cases h
      exact ⟨id', rfl⟩
  | products | product id =>
      obtain ⟨x, h⟩ := extracted_handler (Option.some.inj h)
      cases h
  | _ => cases h

theorem post_handler {path : Path} {call : Call}
    (h : (router lib request r path).post = some (.handler call)) :
    call.tier = .signed ∨ call = delivery request r := by
  cases path with
  | carts | cancelCart id | checkoutSessions | completeCheckout id | cancelCheckout id | consent
  | debit | paymentLink id =>
      obtain ⟨x, h⟩ := extracted_handler (Option.some.inj h)
      cases h
      exact .inl rfl
  | webhook => exact .inr (webhookRoute_handler (Option.some.inj h))
  | _ => cases h

theorem put_handler {path : Path} {call : Call}
    (h : (router lib request r path).put = some (.handler call)) : call.tier = .signed := by
  cases path with
  | cart id =>
      obtain ⟨id', h⟩ := extracted_handler (Option.some.inj h)
      obtain ⟨items, h⟩ := extracted_handler h
      cases h
      rfl
  | _ => cases h

theorem route_handler {call : Call} (h : route lib request r = .handler call) :
    ((request.method = "GET" ∨ request.method = "HEAD") ∧ ∃ id, call = .getCart id) ∨
      (¬ (request.method = "GET" ∨ request.method = "HEAD") ∧
        (call.tier = .signed ∨ call = delivery request r)) := by
  have found {e : Option Endpoint}
      (h : e.getD (.refusal .unguarded ⟨405, ""⟩) = .handler call) : e = some (.handler call) := by
    cases e with
    | none => cases h
    | some e => exact congrArg some h
  rw [route] at h
  split at h
  next => cases h
  next path hpath =>
    have h := found h
    split at h
    next hget => exact .inl ⟨hget, get_handler h⟩
    next hget =>
      refine .inr ⟨hget, ?_⟩
      split at h
      · exact post_handler h
      · split at h
        · exact .inl (put_handler h)
        · cases h

end Routes

section Gate

/-- The request carries a fresh signature of the agent that verifies under the identity. -/
def Signs (lib : Libraries) (request : HttpRequest) (r : Readings) (agentId : String)
    (identity : AgentIdentity) : Prop :=
  ∃ signature, extractSignature lib.readSignature request.headers = .ok (agentId, signature) ∧
    absDiff signature.timestamp r.signedAt ≤ maxSignatureAgeSecs ∧
    request.body.length ≤ maxBodyBytes ∧
    verifyRequest lib.crypto identity signature request.method (targetUri request.uri)
      request.body = .ok ()

/-- What the gate has done when it answers: it answers an agent only if the identity found in
the registry verifies the request. -/
structure Gated (lib : Libraries) (request : HttpRequest) (r : Readings)
    (past : List (Done appSignature)) (x : Except HttpError String) : Prop where
  idle : ∀ d ∈ past, acts d.op = false
  signed : ∀ agentId, x = .ok agentId → ∃ identity,
    past = [⟨Op.agentIdentity agentId, some identity⟩] ∧ Signs lib request r agentId identity
  refused : ∀ e, x = .error e → e.status = 401 ∨ e.status = 403

theorem gated_error {past : List (Done appSignature)} (h : ∀ d ∈ past, acts d.op = false)
    {e : HttpError} (he : e.status = 401 ∨ e.status = 403) :
    Gated lib request r past (.error e) where
  idle := h
  signed _ hx := by cases hx
  refused e' hx := by
    cases hx
    exact he

theorem requireSigned_always (lib : Libraries) (request : HttpRequest) (r : Readings) :
    Always (fun _ o => acts o = false) (Gated lib request r) []
      (Server.requireSigned lib.crypto lib.readSignature r.signedAt request) := by
  rw [Server.requireSigned, Fallible.always_mapErr_bind]
  cases hx : extractSignature lib.readSignature request.headers with
  | error message => exact gated_error (by simp) (.inl rfl)
  | ok presented =>
      obtain ⟨agentId, signature⟩ := presented
      dsimp only
      split
      next => exact gated_error (by simp) (.inl rfl)
      next hfresh =>
        rw [Fallible.always_locked_perform_bind]
        refine ⟨rfl, fun found => ?_⟩
        rw [Fallible.always_okOr_bind]
        have hpast : ∀ d ∈ [(⟨Op.agentIdentity agentId, found⟩ : Done appSignature)], acts d.op = false := by
          simp [acts]
        cases found with
        | none => exact gated_error hpast (.inr rfl)
        | some identity =>
            dsimp only
            split
            next => exact gated_error hpast (.inl rfl)
            next hbody =>
              rw [Fallible.always_mapErr_bind]
              cases hv : verifyRequest lib.crypto identity signature request.method
                  (targetUri request.uri) request.body with
              | error e => exact gated_error hpast (.inl rfl)
              | ok u =>
                  refine ⟨hpast, fun agentId' h => ?_, fun e h => by cases h⟩
                  cases h
                  exact ⟨identity, rfl, signature, hx, UInt64.not_lt.mp hfresh,
                    Nat.not_lt.mp hbody, hv⟩

end Gate

section Service

def Quiet (past : List (Done serverSignature)) : Prop :=
  ∀ d ∈ past, ∀ o, d.op = Sum.inl o → acts o = false

/-- The first two things done: the agent that signed was found in the registry, and one hit
was then admitted under its quota. -/
def Cleared (lib : Libraries) (request : HttpRequest) (r : Readings) (agentId : String)
    (past : List (Done serverSignature)) : Prop :=
  ∃ later identity, past = later ++ [⟨Sum.inr (.hit .writes (writeKey agentId) r.hitAt), true⟩,
      ⟨Sum.inl (.agentIdentity agentId), some identity⟩] ∧
    Signs lib request r agentId identity

/-- The delivery verifies under the configured secret, and its first hit was admitted. -/
def Delivered (lib : Libraries) (st : AppState) (request : HttpRequest) (peer : Option String)
    (r : Readings) (past : List (Done serverSignature)) : Prop :=
  ∃ later text client,
    past = later ++ [⟨Sum.inr (.hit .reads (readKey peer request.headers) r.hitAt), true⟩] ∧
    (request.headers.get "x-razorpay-signature").bind toStr = some text ∧
    razorpayForState lib.toPlatform st = .ok client ∧
    verifyWebhookSignature lib.crypto client request.body text = .ok ()

/-- What lets a request over HTTP act. -/
def Authorised (lib : Libraries) (st : AppState) (request : HttpRequest) (peer : Option String)
    (r : Readings) (past : List (Done serverSignature)) (o : Op) : Prop :=
  (∃ agentId call, route lib request r = .handler call ∧ call.tier = .signed ∧
    Request.performs ⟨some agentId, call⟩ o ∧ Cleared lib request r agentId past) ∨
  (route lib request r = .handler (delivery request r) ∧
    Request.performs ⟨none, delivery request r⟩ o ∧ Delivered lib st request peer r past)

/-- The answer is what the request is routed to, or one of the guards there has refused it. -/
def Routed (lib : Libraries) (st : AppState) (request : HttpRequest) (r : Readings) :
    Response → Prop
  | .reply _ => ∃ call, route lib request r = .handler call
  | .feed f => ∃ params, route lib request r = .listProducts params ∧
      f = listProducts lib.toLowercase st params
  | .page => ∃ tier, route lib request r = .page tier
  | .refused e => (∃ tier, route lib request r = .refusal tier e) ∨
      (route lib request r).tier ≠ .unguarded ∧ e = rateLimited ∨
      (route lib request r).tier = .signed ∧ (e.status = 401 ∨ e.status = 403)
  | .checkout _ | .order _ | .audit _ => False

def conduct (lib : Libraries) (st : AppState) : Conduct serverSignature Arrival Response where
  may
    | .http request peer r, past, op => ∀ o, op = Sum.inl o → acts o →
        Authorised lib st request peer r past o
    | _, _, _ => True
  post
    | .http request _ r, past, response =>
        Routed lib st request r response ∧ ∀ e, response = .refused e → Quiet past
    | _, _, _ => True

variable {peer : Option String}

theorem answer_always {agent : Option String} {base : List (Done serverSignature)}
    (hbase : Quiet base) (hcall : ∀ call, route lib request r = .handler call →
      (handler lib.toPlatform st ⟨agent, call⟩).All (fun o => acts o →
        ∀ later, Authorised lib st request peer r (later ++ base) o)) :
    (answer lib st agent (route lib request r)).Always
      ((conduct lib st).may (.http request peer r))
      ((conduct lib st).post (.http request peer r)) base := by
  cases hroute : route lib request r with
  | page tier => exact ⟨⟨tier, hroute⟩, fun e h => by cases h⟩
  | refusal tier e => exact ⟨.inl ⟨tier, hroute⟩, fun _ _ => hbase⟩
  | listProducts params => exact ⟨⟨params, hroute, rfl⟩, fun e h => by cases h⟩
  | handler call =>
      refine (Prog.always_bind _ _ base).mpr ?_
      refine (Prog.always_inl base _ []).mpr ?_
      apply Prog.All.always (hcall call hroute)
      · intro past o ho o' heq hacts
        obtain rfl := Sum.inl.inj heq
        exact ho hacts _
      · exact fun past x => ⟨⟨call, hroute⟩, fun e h => by cases h⟩

theorem razorpayWebhook_all {ext : Platform} {signature : Option String} {body : Bytes}
    {now : Int64} : (ExceptT.run (razorpayWebhook ext st signature body now)).All (fun _ =>
      ∃ text client, signature = some text ∧ razorpayForState ext st = .ok client ∧
        verifyWebhookSignature ext.crypto client body text = .ok ()) := by
  by_cases hv : ∃ text client, signature = some text ∧ razorpayForState ext st = .ok client ∧
      verifyWebhookSignature ext.crypto client body text = .ok ()
  · have hall : Respects (fun _ _ => True) ∅ (razorpayWebhook ext st signature body now) :=
      razorpayWebhook_respects (fun _ => trivial) (fun _ _ => trivial) trivial
    exact Prog.Respects.all (fun _ _ _ => hv) hall
  · cases signature with
    | none => exact trivial
    | some text =>
        have hrest : razorpayWebhook ext st (some text) body now =
            (Fallible.mapErr razorpayErrorResponse (razorpayForState ext st) >>= fun client => do
              let outcome ← Fallible.adaptErr webhookErrorResponse
                (processPaymentWebhook ext.crypto ext.readEnvelope client body text now)
              perform .webhookVerified
              return outcome.response) := rfl
        rw [hrest]
        cases hclient : razorpayForState ext st with
        | error e => exact trivial
        | ok client =>
            cases hs : verifyWebhookSignature ext.crypto client body text with
            | ok u => exact absurd ⟨text, client, rfl, hclient, hs⟩ hv
            | error e =>
                have hthrow : (ExceptT.run (processPaymentWebhook ext.crypto ext.readEnvelope client
                    body text now)) = .ret (.error (.ofRazorpay e)) := by
                  rw [processPaymentWebhook, hs]
                  rfl
                change Prog.All _ (Prog.bind (Prog.bind (ExceptT.run (processPaymentWebhook
                  ext.crypto ext.readEnvelope client body text now)) _) _)
                rw [hthrow]
                exact trivial

theorem handler_delivery (lib : Libraries) (st : AppState) (request : HttpRequest)
    (r : Readings) : (handler lib.toPlatform st ⟨none, delivery request r⟩).All (fun o =>
      Request.performs ⟨none, delivery request r⟩ o ∧ ∃ text client,
        (request.headers.get "x-razorpay-signature").bind toStr = some text ∧
        razorpayForState lib.toPlatform st = .ok client ∧
        verifyWebhookSignature lib.crypto client request.body text = .ok ()) := by
  apply (handler_all lib.toPlatform st ⟨none, delivery request r⟩).and
  exact razorpayWebhook_all.bind (fun _ => trivial)

theorem quiet_hit (quota : Quota) (key : String) (now : UInt64) (admitted : Bool)
    {past : List (Done serverSignature)} (h : Quiet past) :
    Quiet (⟨Sum.inr (.hit quota key now), admitted⟩ :: past) := by
  intro d hd o ho
  rcases List.mem_cons.mp hd with rfl | hd
  · cases ho
  · exact h d hd o ho

theorem limited_always (htier : (route lib request r).tier ≠ .unguarded) {quota : Quota}
    {key : String} {now : UInt64} {next : Service} {past : List (Done serverSignature)}
    (h : Quiet past)
    (hnext : next.Always ((conduct lib st).may (.http request peer r))
      ((conduct lib st).post (.http request peer r))
      (⟨Sum.inr (.hit quota key now), true⟩ :: past)) :
    Prog.Always ((conduct lib st).may (.http request peer r))
      ((conduct lib st).post (.http request peer r)) past (do
        if ← check quota key now then next
        else return .refused rateLimited : Service) := by
  refine (Prog.always_bind _ _ past).mpr ?_
  rw [check, Prog.always_locked]
  constructor
  · intro o ho
    cases ho
  · intro admitted
    cases admitted with
    | true => exact hnext
    | false => exact ⟨.inr (.inl ⟨htier, rfl⟩), fun _ _ => quiet_hit quota key now false h⟩

theorem signed_always (htier : (route lib request r).tier = .signed) {agentId : String}
    {identity : AgentIdentity} (hs : Signs lib request r agentId identity) :
    (Service.limitWrites (some agentId) r.hitAt
        (answer lib st (some agentId) (route lib request r))).Always
      ((conduct lib st).may (.http request peer r)) ((conduct lib st).post (.http request peer r))
      [⟨Sum.inl (.agentIdentity agentId), some identity⟩] := by
  have hquiet : Quiet [⟨Sum.inl (.agentIdentity agentId), some identity⟩] := by
    intro d hd o ho
    obtain rfl := List.mem_singleton.mp hd
    cases ho
    rfl
  apply limited_always (by simp [htier]) hquiet
  apply answer_always
  · exact quiet_hit _ _ _ _ hquiet
  · intro call hcall
    apply (handler_all lib.toPlatform st ⟨some agentId, call⟩).mono
    intro o ho _ later
    exact .inl ⟨agentId, call, hcall, by rw [hcall] at htier; exact htier, ho, later, identity,
      rfl, hs⟩

theorem unsigned_always (htier : (route lib request r).tier = .limited) :
    (Service.limitReads peer request.headers r.hitAt
        (answer lib st none (route lib request r))).Always
      ((conduct lib st).may (.http request peer r)) ((conduct lib st).post (.http request peer r))
      [] := by
  have hquiet : Quiet [] := by
    intro d hd
    cases hd
  apply limited_always (by simp [htier]) hquiet
  apply answer_always
  · exact quiet_hit _ _ _ _ hquiet
  · intro call hcall
    rcases route_handler hcall with ⟨-, id, rfl⟩ | ⟨-, hs | rfl⟩
    · apply (handler_all lib.toPlatform st ⟨none, .getCart id⟩).mono
      rintro o (rfl | rfl) hacts
      · cases hacts
      · cases hacts
    · rw [hcall] at htier
      cases htier.symm.trans hs
    · apply (handler_delivery lib st request r).mono
      rintro o ⟨hperforms, text, client, hverified⟩ _ later
      exact .inr ⟨hcall, hperforms, later, text, client, rfl, hverified⟩

theorem serveHttp_always (lib : Libraries) (st : AppState) (request : HttpRequest)
    (peer : Option String) (r : Readings) :
    (serveHttp lib st request peer r).Always ((conduct lib st).may (.http request peer r))
      ((conduct lib st).post (.http request peer r)) [] := by
  rw [serveHttp]
  cases htier : (route lib request r).tier with
  | signed =>
      refine (Prog.always_bind _ _ []).mpr ?_
      refine (Prog.always_inl [] _ []).mpr ?_
      apply (requireSigned_always lib request r).mono
      · intro past o ho o' heq hacts
        obtain rfl := Sum.inl.inj heq
        exact absurd (ho.symm.trans hacts) (by simp)
      · intro past x hgated
        cases x with
        | error e =>
            refine ⟨.inr (.inr ⟨htier, hgated.refused e rfl⟩), fun _ _ d hd o ho => ?_⟩
            rw [List.append_nil] at hd
            obtain ⟨d', hd', rfl⟩ := List.mem_map.mp hd
            obtain rfl := Sum.inl.inj ho
            exact hgated.idle d' hd'
        | ok agentId =>
            obtain ⟨identity, rfl, hs⟩ := hgated.signed agentId rfl
            exact signed_always htier hs
  | limited => exact unsigned_always htier
  | unguarded =>
      apply answer_always
      · intro d hd
        cases hd
      · intro call hcall
        rw [hcall] at htier
        rcases route_handler hcall with ⟨-, id, rfl⟩ | ⟨-, hs | rfl⟩
        · cases htier
        · cases htier.symm.trans hs
        · cases htier

theorem along {c : World serverSignature ServerData Arrival Response} {d : ServerData}
    (h : (server lib st).Runs (fun _ _ => True) (.start d) c) :
    System.Along (conduct lib st) c := by
  apply h.along
  intro a
  cases a with
  | http request peer r => exact serveHttp_always lib st request peer r
  | _ =>
      apply (Prog.all_of_forall (A := fun _ => True) (fun _ => trivial) _).always
      · exact fun _ _ _ => trivial
      · exact fun _ _ => trivial

end Service

/-- In every run, whoever else is served meanwhile: where a request over HTTP writes something
or calls the gateway, it has been authorised before. Either its route is a signed one, the
first thing it did was to find the agent that signed it in the registry, the next to be
admitted under that agent's quota, and the signature is fresh, covers this very request and
verifies under the identity found; or it is a delivery of the payment gateway, admitted under
the quota of its client, whose signature verifies under the configured secret. -/
theorem acts_authorised (lib : Libraries) (st : AppState) (d : ServerData)
    (c : World serverSignature ServerData Arrival Response)
    (h : (server lib st).Runs (fun _ _ => True) (.start d) c)
    (newer older : List (Event serverSignature ServerData Arrival))
    (e : Event serverSignature ServerData Arrival) (he : c.shared.history = newer ++ e :: older)
    (request : HttpRequest) (peer : Option String) (r : Readings)
    (hrequest : e.actor.request = .http request peer r) (o : Op) (ho : e.op = Sum.inl o)
    (hacts : acts o) : Authorised lib st request peer r (own e.actor older) o ∧
      ∀ agentId identity, (⟨Sum.inl (.agentIdentity agentId), some identity⟩ :
        Done serverSignature) ∈ own e.actor older → ∃ found ∈ older, found.actor = e.actor ∧
          (found.before.data.agents.get agentId).map AgentRecord.identity = some identity := by
  constructor
  · have hmay := (along h).events newer e older he
    rw [hrequest] at hmay
    exact hmay o ho hacts
  · intro agentId identity hd
    obtain ⟨found, hfound, hactor, heq⟩ := mem_own.mp hd
    have hanswer := h.answered found (by rw [he]; simp [hfound])
    refine ⟨found, hfound, hactor, ?_⟩
    obtain ⟨i, op, resp, before⟩ := found
    cases heq
    exact hanswer.symm

def recordedLibraries : Libraries :=
  { Libraries.bare with
    crypto := SignedGate.recordedCrypto
    readSignature := SignedGate.recordedReader
    cartBody := fun _ => .ok ⟨none, []⟩ }

def recordedArrival : Arrival :=
  .http (SignedGate.recordedRequest SignedGate.recordedJson) none
    ⟨1700000060, 1700000060, 1700000060, 1700000060, .ok ""⟩

def drewId (c : World serverSignature ServerData Arrival Response) : Bool :=
  match c.shared.history with
  | ⟨i, .inl .fetchId, _, _⟩ :: _ => i = ⟨0, recordedArrival⟩
  | _ => false

theorem drewId_iff {c : World serverSignature ServerData Arrival Response} (h : drewId c = true) :
    ∃ e older, c.shared.history = e :: older ∧ e.actor = ⟨0, recordedArrival⟩ ∧
      e.op = Sum.inl .fetchId := by
  rw [drewId] at h
  split at h
  next i resp before older hh => exact ⟨_, older, hh, of_decide_eq_true h, rfl⟩
  next => cases h

theorem acts_authorised_cart :
    ∃ (c : World serverSignature ServerData Arrival Response) (e : _) (older : _),
    c.shared.history = e :: older ∧
    e.op = Sum.inl Op.fetchId ∧
    Authorised recordedLibraries .shop (SignedGate.recordedRequest SignedGate.recordedJson) none
      ⟨1700000060, 1700000060, 1700000060, 1700000060, .ok ""⟩ (own e.actor older) .fetchId := by
  have hplay : ((server recordedLibraries .shop).play (fun _ _ => True)
      (.start (.new SignedGate.recordedCrypto 60 120)) (System.enter 0 recordedArrival 7)).map
        drewId = some true := by
    decide +kernel
  obtain ⟨c, hc, hdrew⟩ := Option.map_eq_some_iff.mp hplay
  obtain ⟨e, older, hh, hactor, ho⟩ := drewId_iff hdrew
  have hrequest : e.actor.request = recordedArrival := by rw [hactor]
  exact ⟨c, e, older, hh, ho, (acts_authorised recordedLibraries .shop _ c (System.play_runs hc) []
    older e hh _ _ _ hrequest .fetchId ho rfl).1⟩

end AiterCommerce.Guarantees.Mediation
