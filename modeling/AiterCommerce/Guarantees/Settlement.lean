import AiterCommerce.Concurrent.Moments
import AiterCommerce.Guarantees.Lifecycle

namespace AiterCommerce.Guarantees.Settlement

open AiterCommerce.Core Concurrent Server Books Stages

section Conduct

/-- What a delivery that reports a payment answers, by what its own accesses answered it. -/
inductive Reconciles (key : String) (entity : WebhookPaymentEntity) (now : Int64)
    (did : (o : Op) → o.Resp → Prop) : Except WebhookError WebhookOutcome → Prop
  | unknown (hget : did (.orders (.get key)) none) :
      Reconciles key entity now did (.error (.orderNotFound key))
  | already (order : Order) (reference : String) (hget : did (.orders (.get key)) (some order))
      (hpaid : order.paymentReference = some reference) :
      Reconciles key entity now did (.ok (.alreadyPaid key reference))
  | mismatch (order : Order) (hget : did (.orders (.get key)) (some order))
      (hset : ¬ Settles entity order) : Reconciles key entity now did
        (.error (.amountMismatch order.totals.total.units entity.amount))
  | refused (order : Order) (e : OrderError) (hget : did (.orders (.get key)) (some order))
      (hunpaid : order.paymentReference = none) (hconfirm : order.applyEvent .confirm now = .error e) :
      Reconciles key entity now did (.error (.orderState e.debug))
  | lost (paid : Order) (e : StoreError) (hupdate : did (.orders (.update key paid)) (.error e)) :
      Reconciles key entity now did (.error (.store e))
  | paid (order confirmed : Order) (hget : did (.orders (.get key)) (some order))
      (hset : Settles entity order) (hconfirm : order.applyEvent .confirm now = .ok confirmed)
      (hupdate : did (.orders (.update key
        { confirmed with paymentReference := some entity.id })) (.ok ())) :
      Reconciles key entity now did (.ok (.paid key entity.id))

variable {key : String} {entity : WebhookPaymentEntity} {now : Int64}
  {past : List (Done appSignature)}

theorem Reconciles.mono {did did' : (o : Op) → o.Resp → Prop} (hd : ∀ o x, did o x → did' o x)
    {r : Except WebhookError WebhookOutcome} (h : Reconciles key entity now did r) :
    Reconciles key entity now did' r := by
  cases h with
  | unknown hget => exact .unknown (hd _ _ hget)
  | already order reference hget hpaid => exact .already order reference (hd _ _ hget) hpaid
  | mismatch order hget hset => exact .mismatch order (hd _ _ hget) hset
  | refused order e hget hunpaid hconfirm => exact .refused order e (hd _ _ hget) hunpaid hconfirm
  | lost paid e hupdate => exact .lost paid e (hd _ _ hupdate)
  | paid order confirmed hget hset hconfirm hupdate =>
      exact .paid order confirmed (hd _ _ hget) hset hconfirm (hd _ _ hupdate)

abbrev anything : List (Done appSignature) → Op → Prop := fun _ _ => True

theorem reconcilePayment_always (key : String) (entity : WebhookPaymentEntity) (now : Int64)
    (past : List (Done appSignature)) : Fallible.Always anything
      (fun past => Reconciles key entity now (fun o x => ⟨o, x⟩ ∈ past)) past
      (reconcilePayment key entity.id entity now) := by
  refine (Prog.always_locked _ _ past).mpr ⟨trivial, fun found => ?_⟩
  change Fallible.Always anything _ _ (Fallible.okOr _ found >>= _)
  rw [Fallible.always_okOr_bind]
  cases found with
  | none => exact .unknown List.mem_cons_self
  | some order =>
      dsimp only
      cases hr : order.paymentReference with
      | some existing => exact .already order existing List.mem_cons_self hr
      | none =>
          dsimp only
          split
          next hset => exact .mismatch order List.mem_cons_self (fun h => settles_iff.mp h hset)
          next hset =>
            rw [Fallible.always_mapErr_bind]
            cases hconfirm : order.applyEvent .confirm now with
            | error e => exact .refused order e List.mem_cons_self hr hconfirm
            | ok confirmed =>
                refine ⟨trivial, fun stored => ?_⟩
                change Fallible.Always anything _ _ (Fallible.mapErr _ stored >>= _)
                rw [Fallible.always_mapErr_bind]
                cases stored with
                | error e => exact .lost _ e List.mem_cons_self
                | ok u =>
                    exact .paid order confirmed (List.mem_cons_of_mem _ List.mem_cons_self)
                      (settles_iff.mpr hset) hconfirm List.mem_cons_self

def replyOf (r : Except WebhookError WebhookOutcome) : Reply :=
  .webhook ((r.mapError webhookErrorResponse).map WebhookOutcome.response)

variable {ext : Platform} {st : AppState}

theorem razorpayWebhook_always {signature : String} {body : Bytes} {client : RazorpayConfig}
    (hclient : razorpayForState ext st = .ok client)
    (hrep : reported ext.crypto ext.readEnvelope client body signature = .ok (some (key, entity))) :
    Fallible.Always anything (fun past r => ∃ o, Reply.webhook r = replyOf o ∧
      Reconciles key entity now (fun o x => ⟨o, x⟩ ∈ past) o) past (razorpayWebhook ext st (some signature) body now) := by
  rw [razorpayWebhook, Fallible.always_okOr_bind]
  dsimp only
  rw [Fallible.always_mapErr_bind, hclient]
  dsimp only
  rw [Fallible.always_adaptErr_bind, processPaymentWebhook, Fallible.always_mapErr_bind]
  rw [reported] at hrep
  cases hs : verifyWebhookSignature ext.crypto client body signature with
  | error e =>
      rw [hs] at hrep
      cases hrep
  | ok u =>
      rw [hs] at hrep
      dsimp only at hrep ⊢
      rw [Fallible.always_mapErr_bind]
      cases he : ext.readEnvelope body with
      | error e =>
          rw [he] at hrep
          cases hrep
      | ok envelope =>
          rw [he] at hrep
          dsimp only at hrep ⊢
          split at hrep
          next => cases hrep
          next hp =>
            rw [if_neg hp, Fallible.always_okOr_bind]
            cases hk : envelope.payload.payment.entity.notes.lookup "order_id" with
            | none =>
                rw [hk] at hrep
                cases hrep
            | some key' =>
                rw [hk] at hrep
                cases hrep
                apply Prog.Always.mono (fun _ _ h => h) ?_ (reconcilePayment_always _ _ _ _)
                intro past r h
                cases r with
                | error e => exact ⟨.error e, rfl, h⟩
                | ok outcome =>
                    refine ⟨trivial, fun _ => ⟨.ok outcome, rfl, h.mono (fun o x hx => ?_)⟩⟩
                    exact List.mem_cons_of_mem _ hx

end Conduct

section Service

variable (lib : Libraries) (st : AppState)

/-- The request is a verified delivery that reports the payment of an order. -/
def Reports (request : HttpRequest) (r : Readings) (key : String) (entity : WebhookPaymentEntity) :
    Prop :=
  ∃ signature client,
    route lib request r = .handler (.razorpayWebhook (some signature) request.body r.now) ∧
    razorpayForState lib.toPlatform st = .ok client ∧
    reported lib.crypto lib.readEnvelope client request.body signature = .ok (some (key, entity))

/-- A delivery is refused by the quota, or answered by what it did. -/
def Delivers (r : Readings) (key : String) (entity : WebhookPaymentEntity)
    (past : List (Done serverSignature)) (response : Response) : Prop :=
  response = .refused rateLimited ∨ ∃ o, response = .reply (replyOf o) ∧
    Reconciles key entity r.now (fun op x => (⟨.inl op, x⟩ : Done serverSignature) ∈ past) o

def conduct : Conduct serverSignature Arrival Response where
  may _ _ _ := True
  post
    | .http request _ r, past, response => ∀ key entity, Reports lib st request r key entity →
        Delivers r key entity past response
    | _, _, _ => True

variable {lib st} {request : HttpRequest} {peer : Option String} {r : Readings} {key : String}
  {entity : WebhookPaymentEntity}

theorem Reports.unique {key' : String} {entity' : WebhookPaymentEntity}
    (h : Reports lib st request r key entity) (h' : Reports lib st request r key' entity') :
    key' = key ∧ entity' = entity := by
  obtain ⟨signature, client, hroute, hclient, hrep⟩ := h
  obtain ⟨signature', client', hroute', hclient', hrep'⟩ := h'
  cases hroute.symm.trans hroute'
  cases hclient.symm.trans hclient'
  cases hrep.symm.trans hrep'
  exact ⟨rfl, rfl⟩

theorem serveHttp_delivers (h : Reports lib st request r key entity) :
    (serveHttp lib st request peer r).Always (fun _ _ => True) (Delivers r key entity) [] := by
  obtain ⟨signature, client, hroute, hclient, hrep⟩ := h
  rw [serveHttp, hroute]
  refine (Prog.always_bind _ _ []).mpr ?_
  rw [check, Prog.always_locked]
  refine ⟨trivial, fun admitted => ?_⟩
  cases admitted with
  | false => exact .inl rfl
  | true =>
      refine (Prog.always_bind _ _ _).mpr ?_
      refine (Prog.always_inl _ _ []).mpr ?_
      refine (Prog.always_bind _ _ []).mpr ?_
      refine Prog.Always.mono (fun _ _ h => h) (fun past x hx => ?_)
        (razorpayWebhook_always hclient hrep)
      obtain ⟨o, ho, hreconciles⟩ := hx
      refine .inr ⟨o, congrArg Response.reply ho, hreconciles.mono (fun op y hy => ?_)⟩
      exact List.mem_append_left _ (List.mem_map.mpr ⟨_, hy, rfl⟩)

theorem serve_always (a : Arrival) :
    (serve lib st a).Always ((conduct lib st).may a) ((conduct lib st).post a) [] := by
  have hall : (serve lib st a).All (fun _ => True) := Prog.all_of_forall (fun _ => trivial) _
  cases a with
  | http request peer r =>
      by_cases hq : ∃ key entity, Reports lib st request r key entity
      · obtain ⟨key, entity, hrep⟩ := hq
        refine Prog.Always.mono (fun _ _ h => h) (fun past x hx => ?_) (serveHttp_delivers hrep)
        intro key' entity' hrep'
        obtain ⟨rfl, rfl⟩ := hrep.unique hrep'
        exact hx
      · refine hall.always (fun _ _ _ => trivial) (fun past x key entity hrep => ?_) []
        exact absurd ⟨key, entity, hrep⟩ hq
  | _ => exact hall.always (fun _ _ _ => trivial) (fun _ _ => trivial) []

end Service

section Paid

open Lifecycle (stageIn)

variable {lib : Libraries} {st : AppState} {writes reads : UInt32} {k : String}
  {c c' : World serverSignature ServerData Arrival Response}

theorem order_of_paid {d : Data} {total : Amount} {reference : String}
    (h : stageOf d k = .paid total reference) : ∃ o, d.orders.get (orderKey k) = some o ∧
      o.totals.total = total ∧ o.paymentReference = some reference := by
  rw [stageOf, stage] at h
  cases ho : d.orders.get (orderKey k) with
  | none =>
      rw [ho] at h
      dsimp only at h
      split at h
      · rw [Stage.ofSession] at h
        split at h <;> cases h
      · cases h
  | some o =>
      rw [ho] at h
      dsimp only [Stage.ofOrder] at h
      split at h
      next reference' hr =>
        cases h
        exact ⟨o, rfl, rfl, hr⟩
      next => cases h

theorem paid_of_order {d : Data} {o : Order} {reference : String}
    (ho : d.orders.get (orderKey k) = some o) (hr : o.paymentReference = some reference) :
    stageOf d k = .paid o.totals.total reference := by
  rw [stageOf, stage_of_order ho, Stage.ofOrder, hr]

/-- From any moment of a run on, what is paid stays paid: no move leads on. -/
theorem paid_lasts (h : (server lib st).Runs (fun _ _ => True)
    (.start (.new lib.crypto writes reads)) c) (h' : (server lib st).Runs (fun _ _ => True) c c')
    {total : Amount} {reference : String} (hp : stageIn c.shared.data k = .paid total reference) :
    stageIn c'.shared.data k = .paid total reference := by
  have hleads := (Lifecycle.tracked (h.trans h')).leads h' k
  rw [Lifecycle.Forward, hp] at hleads
  rcases hleads.cases_head with hsame | ⟨y, ⟨e, -, q, -, hmove⟩, -⟩
  · exact hsame.symm
  · cases hmove

theorem order_of_runs (h : (server lib st).Runs (fun _ _ => True)
    (.start (.new lib.crypto writes reads)) c) (h' : (server lib st).Runs (fun _ _ => True) c c')
    {key : String} {o : Order} {reference : String} (ho : c.shared.data.data.orders.get key = some o)
    (hr : o.paymentReference = some reference) :
    ∃ o', c'.shared.data.data.orders.get key = some o' ∧ o'.paymentReference = some reference ∧
      o'.totals.total = o.totals.total := by
  obtain ⟨k, -, rfl, -⟩ := (Lifecycle.tracked h).consistent.order key o ho
  obtain ⟨o', ho', ht, hr'⟩ := order_of_paid (paid_lasts h h' (paid_of_order ho hr))
  exact ⟨o', ho', hr', ht⟩

end Paid

section Linked

variable {ext : Platform} {st : AppState}

theorem linked {c : Configuration}
    (h : (app ext st).Runs (fun _ _ => True) (.start (Data.new ext.crypto)) c)
    {e : Happening} (he : e ∈ c.shared.history) {link : PaymentLinkRequest}
    (hpost : e.op = .postPaymentLink link) {key : String} (hid : link.orderId = some key) :
    ∃ o, c.shared.data.orders.get key = some o ∧ o.totals.total = ⟨link.amount, link.currency⟩ := by
  have hcall : ∃ k answer, e.actor.request.call = .orderPaymentLink k answer := by
    have hperf : e.actor.request.performs e.op := h.performs (handler_all ext st) e he
    rw [hpost, Request.performs] at hperf
    cases hc : e.actor.request.call with
    | orderPaymentLink k answer => exact ⟨k, answer, rfl⟩
    | _ => simp [hc] at hperf
  obtain ⟨k, answer, hcall⟩ := hcall
  have hmoney := Spec.Sound.runs Money.admits
    (Spec.sound_start (P := Money.spec ext st) (Money.kept_start _)) h
  have hkept : Money.Kept ext st c.shared := hmoney.inv
  obtain ⟨o, ho, hamount, hcurrency, horder⟩ := hkept.linked e he link hpost k answer hcall
  obtain ⟨-, -, -, hoid, -⟩ := hkept.placed k o ho
  have hkey : k = key := by
    rw [horder, hoid] at hid
    exact Option.some.inj hid
  subst hkey
  refine ⟨o, ho, ?_⟩
  rw [hamount, hcurrency]

theorem server_linked {lib : Libraries} {writes reads : UInt32}
    {c : World serverSignature ServerData Arrival Response}
    (h : (server lib st).Runs (fun _ _ => True) (.start (.new lib.crypto writes reads)) c)
    {e : Event serverSignature ServerData Arrival} (he : e ∈ c.shared.history)
    {link : PaymentLinkRequest} (hpost : e.op = Sum.inl (.postPaymentLink link)) {key : String}
    (hid : link.orderId = some key) : ∃ o, c.shared.data.data.orders.get key = some o ∧
      o.totals.total = ⟨link.amount, link.currency⟩ := by
  obtain ⟨w, place, hruns, hshows⟩ := Shown.shown_run h
  have hdata : w.shared.data = c.shared.data.data := hshows.data
  obtain ⟨i, op, x, d⟩ := e
  cases hpost
  have hmem := List.mem_filter.mpr ⟨he, (rfl : (Shown.shell lib st).shows _ = true)⟩
  obtain ⟨e', he', hmatch⟩ := Shell.exists_matches hmem hshows.history
  rw [← hdata]
  cases hmatch with
  | intro o x d hcalls =>
      exact linked (hruns.mono (fun _ _ _ => trivial)) (List.mem_of_mem_filter he') rfl hid

section Later

variable {lib : Libraries} {writes reads : UInt32}
  {c c' : World serverSignature ServerData Arrival Response}
  {e : Event serverSignature ServerData Arrival} {link : PaymentLinkRequest} {key : String}

theorem linked_later (h : (server lib st).Runs (fun _ _ => True)
    (.start (.new lib.crypto writes reads)) c) (h' : (server lib st).Runs (fun _ _ => True) c c')
    (he : e ∈ c.shared.history) (hpost : e.op = Sum.inl (.postPaymentLink link))
    (hid : link.orderId = some key) : ∃ o, c'.shared.data.data.orders.get key = some o ∧
      o.totals.total = ⟨link.amount, link.currency⟩ := by
  obtain ⟨news, hhist, -⟩ := h'.leads (G := fun _ => True) (fun _ _ _ _ _ _ _ => trivial)
  exact server_linked (h.trans h') (hhist ▸ List.mem_append_right _ he) hpost hid

/-- Who comes after the link and looks its order up finds it, with the totals of the link. -/
theorem found_linked (h : (server lib st).Runs (fun _ _ => True)
    (.start (.new lib.crypto writes reads)) c) (h' : (server lib st).Runs (fun _ _ => True) c c')
    (he : e ∈ c.shared.history) (hpost : e.op = Sum.inl (.postPaymentLink link))
    (hid : link.orderId = some key) {n : Nat} {a : Arrival} (hn : c.procs.length ≤ n)
    {found : Option Order} (hget : (⟨Sum.inl (.orders (.get key)), found⟩ :
      Done serverSignature) ∈ own ⟨n, a⟩ c'.shared.history) :
    ∃ w order, (server lib st).Runs (fun _ _ => True) (.start (.new lib.crypto writes reads)) w ∧
      (server lib st).Runs (fun _ _ => True) w c' ∧
        w.shared.data.data.orders.get key = some order ∧ found = some order ∧
          order.totals.total = ⟨link.amount, link.currency⟩ := by
  obtain ⟨w, w', hw, hresp, hww', -, hw'⟩ := System.Runs.moment_of_own h h' hn hget
  obtain ⟨order, ho, htotal⟩ := linked_later h hw he hpost hid
  exact ⟨w, order, h.trans hw, hww'.trans hw', ho, hresp.trans ho, htotal⟩

end Later

end Linked

section Delivered

variable {lib : Libraries} {st : AppState} {writes reads : UInt32}
  {c c' : World serverSignature ServerData Arrival Response}

/-- Whoever pays by a link is taken at his word: a verified delivery that comes after the link
was asked for, and reports its amount and its currency under its order, is refused by the quota
of the reads, or answered that the order is paid, by this payment or by one before. The order
then stays paid with it. -/
theorem echoed_link_settles (lib : Libraries) (st : AppState) (writes reads : UInt32)
    (h : (server lib st).Runs (fun _ _ => True) (.start (.new lib.crypto writes reads)) c)
    (h' : (server lib st).Runs (fun _ _ => True) c c')
    {e : Event serverSignature ServerData Arrival} (he : e ∈ c.shared.history)
    {link : PaymentLinkRequest} (hpost : e.op = Sum.inl (.postPaymentLink link)) {n : Nat}
    {request : HttpRequest} {peer : Option String} {r : Readings} {response : Response}
    (hn : c.procs.length ≤ n) (hret : c'.returned n = some (.http request peer r, response))
    {key : String} {entity : WebhookPaymentEntity} (hrep : Reports lib st request r key entity)
    (hid : link.orderId = some key) (hamount : entity.amount = link.amount)
    (hcurrency : currencyMatches entity.currency link.currency = true) :
    response = .refused rateLimited ∨ ∃ reference,
      (response = .reply (.webhook (.ok ⟨some reference, "already_paid"⟩)) ∨
        reference = entity.id ∧ response = .reply (.webhook (.ok ⟨some reference, "paid"⟩))) ∧
      ∀ c'', (server lib st).Runs (fun _ _ => True) c' c'' → ∃ o,
        c''.shared.data.data.orders.get key = some o ∧ o.paymentReference = some reference ∧
          o.totals.total = ⟨link.amount, link.currency⟩ := by
  have hall : (server lib st).Runs (fun _ _ => True) (.start (.new lib.crypto writes reads)) c' :=
    h.trans h'
  have hdelivers : Delivers r key entity _ response :=
    (hall.along (K := conduct lib st) serve_always).returned hret key entity hrep
  refine hdelivers.imp_right ?_
  rintro ⟨x, rfl, hx⟩
  have hsettles {order : Order} (ht : order.totals.total = ⟨link.amount, link.currency⟩) :
      Settles entity order := by
    rw [Settles, ht]
    exact ⟨hamount, hcurrency⟩
  cases hx with
  | unknown hget =>
      obtain ⟨w, order, -, -, -, hsome, -⟩ := found_linked h h' he hpost hid hn hget
      cases hsome
  | mismatch order hget hset =>
      obtain ⟨w, order', -, -, -, hsome, htotal⟩ := found_linked h h' he hpost hid hn hget
      cases hsome
      exact absurd (hsettles htotal) hset
  | refused order e' hget hunpaid hconfirm =>
      obtain ⟨w, order', hw, -, ho, hsome, -⟩ := found_linked h h' he hpost hid hn hget
      cases hsome
      obtain ⟨k, -, -, hshape, -⟩ := (Lifecycle.tracked hw).consistent.order key order ho
      obtain ⟨confirmed, hok, -⟩ := hshape.confirm hunpaid r.now entity.id
      cases hconfirm.symm.trans hok
  | lost paid e' hupdate =>
      obtain ⟨w, w', hw, hresp, -, -, -⟩ := System.Runs.moment_of_own h h' hn hupdate
      obtain ⟨order, ho, -⟩ := linked_later h hw he hpost hid
      have hexec := congrArg Prod.fst (Lifecycle.updateOrder_exec ho paid)
      cases hresp.trans hexec
  | already order reference hget hpaid =>
      obtain ⟨w, order', hw, hwc', ho, hsome, htotal⟩ := found_linked h h' he hpost hid hn hget
      cases hsome
      refine ⟨reference, .inl rfl, fun c'' h'' => ?_⟩
      exact htotal ▸ order_of_runs hw (hwc'.trans h'') ho hpaid
  | paid order confirmed hget hset hconfirm hupdate =>
      obtain ⟨w, w', hw, hresp, hww', hafter, hw'⟩ := System.Runs.moment_of_own h h' hn hupdate
      obtain ⟨found, ho, -⟩ := linked_later h hw he hpost hid
      obtain ⟨-, order', -, -, -, hsome, htotal⟩ := found_linked h h' he hpost hid hn hget
      cases hsome
      have ho' : w'.shared.data.data.orders.get key =
          some { confirmed with paymentReference := some entity.id } := by
        rw [hafter]
        have hexec := congrArg Prod.snd (Lifecycle.updateOrder_exec ho
          { confirmed with paymentReference := some entity.id })
        exact (congrArg (fun d : Data => d.orders.get key) hexec).trans
          (InMemoryStore.get_insert_self _ _ _)
      refine ⟨entity.id, .inr ⟨rfl, rfl⟩, fun c'' h'' => ?_⟩
      obtain ⟨-, -, htotals, -⟩ := Order.applyEvent_frame hconfirm
      have hlast := order_of_runs (h.trans (hw.trans hww')) (hw'.trans h'') ho' rfl
      rwa [htotals, htotal] at hlast

end Delivered

section Example

def linkOf (e : Event serverSignature ServerData Arrival) : Option PaymentLinkRequest :=
  match e.op with
  | .inl (.postPaymentLink r) => some r
  | _ => none

theorem linkOf_eq_some {e : Event serverSignature ServerData Arrival} {r : PaymentLinkRequest}
    (h : linkOf e = some r) : e.op = Sum.inl (.postPaymentLink r) := by
  rw [linkOf] at h
  split at h
  next hop =>
    cases h
    exact hop
  next => cases h

def link : PaymentLinkRequest :=
  ⟨"https://api.razorpay.com/v1/payment_links", "rzp_test_1", "key-secret", 1000, .USD, false,
    some "ord-cs-1"⟩

def trusting : Crypto := { Money.paying.crypto with verify := fun _ _ _ => true }

def linkPath : String := "/orders/ord-cs-1/payment_link"

def linkLibraries : Libraries :=
  { Lifecycle.shopLibraries with
    toPlatform := { Money.paying with crypto := trusting }
    readSignature := fun _ => some (demoSignature trusting linkPath "\x7b\x7d" 0) }

def delivery : HttpRequest :=
  ⟨"POST", ⟨none, none, some "/webhooks/razorpay"⟩,
    [("x-razorpay-signature", utf8 (toHex (trusting.hmacSha256 (utf8 "s") [1])))], [1]⟩

def asked : List (Action Arrival) :=
  System.enter 0 (.tool (.createCart ⟨none, [⟨"p-1", 2⟩]⟩)) 4 ++
  System.enter 1 (.toolCheckout "cart-0" 0 0 0) 19 ++
  System.enter 2 (.http (buildSignedRequest trusting linkPath "\x7b\x7d" 0).http none
    ⟨0, 0, 0, 0, .ok "https://rzp.io/i/1"⟩) 10

def played : Option (World serverSignature ServerData Arrival Response ×
    World serverSignature ServerData Arrival Response) :=
  ((server linkLibraries Money.payingShop).play (fun _ _ => True)
    (.start (.new linkLibraries.crypto 60 120)) asked).bind (fun c =>
      ((server linkLibraries Money.payingShop).play (fun _ _ => True) c
        (System.enter 3 (.http delivery none ⟨0, 0, 5, 0, .ok ""⟩) 8)).map (Prod.mk c))

def replied : Arrival × Response → Option (Arrival × Except HttpError WebhookResponse)
  | (a, .reply (.webhook r)) => some (a, r)
  | _ => none

theorem echoed_link_settles_bought :
    ∃ (c : World serverSignature ServerData Arrival Response) (o : Order),
      c.shared.data.data.orders.get "ord-cs-1" = some o ∧ o.paymentReference = some "pay-1" ∧
        o.totals.total = ⟨1000, .USD⟩ := by
  have hplay : played.map (fun x => (x.1.procs.length, x.1.shared.history.filterMap linkOf,
      (x.2.returned 3).bind replied)) = some (3, [link],
        some (.http delivery none ⟨0, 0, 5, 0, .ok ""⟩, .ok ⟨some "pay-1", "paid"⟩)) := by
    decide +kernel
  obtain ⟨⟨c, c'⟩, hplayed, hfacts⟩ := Option.map_eq_some_iff.mp hplay
  obtain ⟨d, hc, hd⟩ := Option.bind_eq_some_iff.mp hplayed
  obtain ⟨d', hc', heq⟩ := Option.map_eq_some_iff.mp hd
  cases heq
  simp only [Prod.mk.injEq] at hfacts
  obtain ⟨hlength, hlinks, hret⟩ := hfacts
  obtain ⟨⟨a, response⟩, hreturned, hreply⟩ := Option.bind_eq_some_iff.mp hret
  obtain ⟨rfl, rfl⟩ : a = .http delivery none ⟨0, 0, 5, 0, .ok ""⟩ ∧
      response = .reply (.webhook (.ok ⟨some "pay-1", "paid"⟩)) := by
    cases response with
    | reply r =>
        cases r with
        | webhook x =>
            cases hreply
            exact ⟨rfl, rfl⟩
        | _ => cases hreply
    | _ => cases hreply
  have hmem : link ∈ c.shared.history.filterMap linkOf := by
    rw [hlinks]
    exact List.mem_singleton.mpr rfl
  obtain ⟨e, he, hlink⟩ := List.mem_filterMap.mp hmem
  have hrep : Reports linkLibraries Money.payingShop delivery ⟨0, 0, 5, 0, .ok ""⟩ "ord-cs-1"
      ⟨"pay-1", 1000, some "usd", Finmap.singleton "order_id" "ord-cs-1"⟩ :=
    ⟨toHex (trusting.hmacSha256 (utf8 "s") [1]), _, by decide +kernel, rfl, rfl⟩
  rcases echoed_link_settles linkLibraries Money.payingShop 60 120 (System.play_runs hc)
      (System.play_runs hc') he (linkOf_eq_some hlink) hlength.le hreturned hrep rfl rfl
      (by decide) with hrefused | ⟨reference, hanswer, hpaid⟩
  · cases hrefused
  · obtain rfl : reference = "pay-1" := by
      rcases hanswer with h | ⟨h, -⟩
      · simp at h
      · exact h
    obtain ⟨o, ho, hr, ht⟩ := hpaid c' .refl
    exact ⟨c', o, ho, hr, ht⟩

end Example

end AiterCommerce.Guarantees.Settlement
