import AiterCommerce.Concurrent.Bounded
import AiterCommerce.Guarantees.Deadlock

namespace AiterCommerce.Guarantees.Rest

open AiterCommerce.Core Concurrent Server
open Fallible (Takes locked)

variable {ε : Type} {st : AppState} {ext : Platform} {lib : Libraries} {n : Nat}

theorem genId_bind_takes {α : Type} (kind : String) {f : String → Handler ε α}
    (hf : ∀ id, Takes n (f id)) : Takes (n + 1) (genId kind >>= f) :=
  fun x => hf (kind ++ "-" ++ toString (UInt64.toNat x))

theorem createCart_takes (body : CreateCartRequest) : Takes 4 (createCart st body) := by
  apply Takes.mapErr_bind
  intro _
  apply genId_bind_takes
  intro id
  apply Takes.locked_perform_bind
  intro _
  exact .mapErr_bind _ _ (fun _ => .pure _)

theorem getCart_takes (id : String) : Takes 6 (getCart st id) := by
  apply Takes.locked_perform_bind
  intro _
  apply Takes.okOr_bind
  intro _
  exact .locked_perform_bind _ _ (fun _ => .pure _)

theorem updateCart_takes (id : String) (items : List LineItem) :
    Takes 10 (updateCart st id items) := by
  apply Takes.locked
  apply Takes.perform_bind
  intro _
  apply Takes.okOr_bind
  intro cart
  apply Takes.locked_perform_bind
  intro cancelled
  cases cancelled with
  | true => exact .throw _
  | false =>
      apply Takes.mapErr_bind
      intro _
      apply Takes.perform_bind
      intro _
      apply Takes.mapErr_bind
      intro _
      exact .locked_perform_bind _ _ (fun _ => .pure _)

theorem cancelCart_takes (id : String) : Takes 6 (cancelCart st id) := by
  apply Takes.locked_perform_bind
  intro _
  apply Takes.okOr_bind
  intro _
  exact .locked_perform_bind _ _ (fun _ => .pure _)

theorem createCheckoutSession_takes (body : CreateSessionRequest) (now : Int64) :
    Takes 10 (createCheckoutSession st body now) := by
  apply Takes.locked_perform_bind
  intro _
  apply Takes.okOr_bind
  intro cart
  apply Takes.locked_perform_bind
  intro cancelled
  cases cancelled with
  | true => exact .throw _
  | false =>
      apply Takes.mapErr_bind
      intro totals
      apply genId_bind_takes
      intro id
      apply Takes.locked_perform_bind
      intro _
      exact .mapErr_bind _ _ (fun _ => .pure _)

theorem storeOrder_takes (id : String) (session : CheckoutSession) (now : Int64) :
    Takes 3 (storeOrder id session now) := by
  apply Takes.mapErr_bind
  intro paid
  apply Takes.perform_bind
  intro _
  apply Takes.mapErr_bind
  intro _
  apply Takes.perform_bind
  intro _
  apply Takes.mapErr_bind
  intro _
  exact .perform_bind _ (fun _ => .pure _)

theorem placeOrder_takes (agent : Option String) (id : String) (session : CheckoutSession)
    (now issuedAt : Int64) : Takes 9 (placeOrder agent id session now issuedAt) := by
  cases agent with
  | none =>
      rw [placeOrder_none]
      exact (storeOrder_takes id session now).mono (by omega)
  | some a =>
      have hcharge : Takes 3 (chargeAgent a session.totals.total) :=
        .locked_perform_bind _ _ (fun _ => .mapErr _ _)
      have hissue (order : Order) : Takes 3 (issueReceipt a order session.totals.total issuedAt) :=
        .locked_perform_bind _ _ (fun _ => .pure _)
      rw [placeOrder_some]
      apply Takes.bind (n := 6) hcharge
      intro _
      apply Takes.bind (n := 3) (storeOrder_takes id session now)
      intro order
      exact Takes.bind (n := 0) (hissue order) (fun _ => .pure _)

theorem completeCheckout_takes (agent : Option String) (id : String) (now issuedAt : Int64) :
    Takes 15 (completeCheckout agent id now issuedAt) := by
  apply Takes.locked
  apply Takes.locked
  apply Takes.perform_bind
  intro order
  cases order with
  | some order => exact .pure _
  | none =>
      apply Takes.perform_bind
      intro _
      apply Takes.okOr_bind
      intro session
      dsimp only
      split
      · exact .throw _
      · exact placeOrder_takes agent id session now issuedAt

theorem cancelCheckout_takes (id : String) : Takes 4 (cancelCheckout id) := by
  apply Takes.locked
  apply Takes.perform_bind
  intro _
  apply Takes.okOr_bind
  intro session
  split
  · apply Takes.mapErr_bind
    intro _
    apply Takes.perform_bind
    intro _
    exact .mapErr_bind _ _ (fun _ => .pure _)
  · exact .pure _

theorem createConsent_takes (body : ConsentRequest) (now : Int64) :
    Takes 4 (createConsent body now) := by
  apply Takes.mapErr_bind
  intro _
  apply genId_bind_takes
  intro id
  apply Takes.locked_perform_bind
  intro _
  exact .mapErr_bind _ _ (fun _ => .pure _)

theorem debit_takes (confirm : Bool) (body : DebitRequest) : Takes 5 (debit confirm body) := by
  apply Takes.mapErr_bind
  intro _
  apply Takes.locked
  apply Takes.perform_bind
  intro _
  apply Takes.okOr_bind
  intro _
  apply Takes.mapErr_bind
  intro _
  apply Takes.perform_bind
  intro _
  apply Takes.mapErr_bind
  intro _
  exact .perform_bind _ (fun _ => .pure _)

theorem orderPaymentLink_takes (id : String) (reply : Except RazorpayError String) :
    Takes 4 (orderPaymentLink ext st id reply) := by
  apply Takes.locked_perform_bind
  intro _
  apply Takes.okOr_bind
  intro order
  dsimp only
  split
  · exact .throw _
  · apply Takes.mapErr_bind
    intro client
    have hlink : Takes 1 (createPaymentLink ext client order.totals.total.units
        order.totals.total.currency (some order.id) reply) := by
      apply Takes.mapErr_bind
      intro _
      exact .perform_bind _ (fun _ => .mapErr _ _)
    exact Takes.bind hlink.adaptErr (fun _ => .pure (n := 0) _)

theorem reconcilePayment_takes (orderId paymentId : String) (payment : WebhookPaymentEntity)
    (now : Int64) : Takes 4 (reconcilePayment orderId paymentId payment now) := by
  apply Takes.locked
  apply Takes.perform_bind
  intro _
  apply Takes.okOr_bind
  intro order
  cases order.paymentReference with
  | some existing => exact .pure _
  | none =>
      dsimp only
      split
      · exact .throw _
      · apply Takes.mapErr_bind
        intro _
        apply Takes.perform_bind
        intro _
        exact .mapErr_bind _ _ (fun _ => .pure _)

theorem razorpayWebhook_takes (signature : Option String) (body : Bytes) (now : Int64) :
    Takes 5 (razorpayWebhook ext st signature body now) := by
  apply Takes.okOr_bind
  intro text
  apply Takes.mapErr_bind
  intro client
  have hprocess : Takes 4 (processPaymentWebhook ext.crypto ext.readEnvelope client body text now) := by
    apply Takes.mapErr_bind
    intro _
    apply Takes.mapErr_bind
    intro envelope
    dsimp only
    split
    · exact .pure _
    · exact .okOr_bind _ _ (fun _ => reconcilePayment_takes _ _ _ _)
  exact Takes.bind hprocess.adaptErr (fun _ => .perform_bind (n := 0) _ (fun _ => .pure _))

theorem requireSigned_takes (now : UInt64) (request : HttpRequest) :
    Takes 3 (requireSigned lib.crypto lib.readSignature now request) := by
  apply Takes.mapErr_bind
  rintro ⟨agentId, signature⟩
  dsimp only
  split
  · exact .throw _
  · apply Takes.locked_perform_bind
    intro _
    apply Takes.okOr_bind
    intro identity
    split
    · exact .throw _
    · exact .mapErr_bind _ _ (fun _ => .pure _)

theorem replyTo_takes {α : Type} {f : Except ε α → Reply} {m : Handler ε α} (h : Takes n m) :
    (replyTo f m).Takes n := by
  have hreply : (replyTo f m).Takes (0 + n) :=
    Prog.Takes.bind h (fun r => Prog.takes_ret 0 (f r))
  rwa [Nat.zero_add] at hreply

/-- The longest is the completion of a checkout that charges an agent. -/
theorem handler_takes (q : Request) : (handler ext st q).Takes 15 := by
  obtain ⟨agent, call⟩ := q
  cases call with
  | createCart body => exact (replyTo_takes (createCart_takes body)).mono (by omega)
  | getCart id => exact (replyTo_takes (getCart_takes id)).mono (by omega)
  | updateCart id items => exact (replyTo_takes (updateCart_takes id items)).mono (by omega)
  | cancelCart id => exact (replyTo_takes (cancelCart_takes id)).mono (by omega)
  | createCheckoutSession body now =>
      exact (replyTo_takes (createCheckoutSession_takes body now)).mono (by omega)
  | completeCheckout id now issuedAt =>
      exact replyTo_takes (completeCheckout_takes agent id now issuedAt)
  | cancelCheckout id => exact (replyTo_takes (cancelCheckout_takes id)).mono (by omega)
  | createConsent body now => exact (replyTo_takes (createConsent_takes body now)).mono (by omega)
  | debit confirm body => exact (replyTo_takes (debit_takes confirm body)).mono (by omega)
  | orderPaymentLink id reply =>
      exact (replyTo_takes (orderPaymentLink_takes id reply)).mono (by omega)
  | razorpayWebhook signature body now =>
      exact (replyTo_takes (razorpayWebhook_takes signature body now)).mono (by omega)
  | registerAgent identity spendLimit => exact fun _ => trivial

theorem answer_takes (agent : Option String) (endpoint : Endpoint) :
    (answer lib st agent endpoint).Takes 15 := by
  cases endpoint with
  | page tier | refusal tier e | listProducts params => exact Prog.takes_ret 15 _
  | handler call =>
      have hcall : (handler lib.toPlatform st ⟨agent, call⟩).Takes 15 := handler_takes _
      have hanswer := hcall.inl.bind
        (fun r => (Prog.takes_ret 0 _ : (Prog.ret (Response.reply r) : Service).Takes 0))
      exact hanswer

theorem limited_takes {quota : Quota} {key : String} {now : UInt64} {next : Service}
    (h : next.Takes n) : Prog.Takes (n + 3) (do
      if ← check quota key now then next
      else return .refused rateLimited : Service) := by
  have hcheck : (check quota key now).Takes 3 := fun _ => trivial
  apply Prog.Takes.bind hcheck
  intro admitted
  cases admitted with
  | true => exact h
  | false => exact Prog.takes_ret n _

theorem toolCheckout_takes (cartId : String) (now completedAt issuedAt : Int64) :
    Takes 19 (toolCheckout st cartId now completedAt issuedAt) := by
  apply Takes.bind (createCheckoutSession_takes _ _)
  intro session
  -- without an agent there is neither a charge nor a receipt
  apply Takes.locked
  apply Takes.locked
  apply Takes.perform_bind
  intro order
  cases order with
  | some order => exact .pure _
  | none =>
      apply Takes.perform_bind
      intro _
      apply Takes.okOr_bind
      intro session
      dsimp only
      split
      · exact .throw _
      · exact placeOrder_none _ _ _ _ ▸ storeOrder_takes _ _ _

theorem serveHttp_takes (request : HttpRequest) (peer : Option String) (r : Readings) :
    (serveHttp lib st request peer r).Takes 21 := by
  rw [serveHttp]
  cases (route lib request r).tier with
  | signed =>
      apply Prog.Takes.bind (n := 18) (requireSigned_takes r.signedAt request).inl
      intro agent
      cases agent with
      | ok agentId => exact limited_takes (answer_takes _ _)
      | error e => exact Prog.takes_ret 18 _
  | limited => exact (limited_takes (answer_takes _ _)).mono (by omega)
  | unguarded => exact (answer_takes _ _).mono (by omega)

theorem serve_takes (a : Arrival) : (serve lib st a).Takes 21 := by
  cases a with
  | http request peer r => exact serveHttp_takes request peer r
  | tool call => exact (answer_takes none (.handler call)).mono (by omega)
  | toolCheckout cartId now completedAt issuedAt =>
      have hcalls : Takes 19 (toolCheckout st cartId now completedAt issuedAt) :=
        toolCheckout_takes _ _ _ _
      have hserve := hcalls.inl.bind
        (fun r => (Prog.takes_ret 0 _ : (Prog.ret (Response.checkout r) : Service).Takes 0))
      exact Prog.Takes.mono hserve (by omega)
  | registerAgent identity spendLimit =>
      exact (answer_takes none (.handler (.registerAgent identity spendLimit))).mono (by omega)
  | order id => exact fun _ => trivial
  | auditEntries => exact fun _ => trivial

/-- From any point of any run, the server that is let alone comes to rest. However its tasks
take turns, and whichever of them are given up while they wait, all are through after at most
21 steps each; then every request has its answer or was given up, and every lock is free. If
none is given up, all that were there have their answer. -/
theorem comes_to_rest (lib : Libraries) (st : AppState) (d : ServerData)
    (c : World serverSignature ServerData Arrival Response)
    (h : (server lib st).Runs (fun _ _ => True) (.start d) c) :
    (∀ as c', (server lib st).play (fun _ a => a.isSpawn = false) c as = some c' →
      as.length ≤ 21 * c.procs.length ∧
        ((∀ m, (server lib st).next c' (.step m) = none) → System.AtRest c')) ∧
      ∃ as c', (server lib st).play (fun _ a => a.isStep = true) c as = some c' ∧
        System.AtRest c' ∧ ∀ n a t, c.procs[n]? = some ⟨a, some t⟩ →
          ∃ r, c'.returned n = some (a, r) := by
  have hordered : ∀ a, ((server lib st).handler a).Ordered Deadlock.serverRank ∅ ∅ :=
    Deadlock.serve_ordered
  have hc : System.Orderly Deadlock.serverRank c := h.orderly hordered (System.orderly_start d)
  have hb : System.Budget (fun _ => 21) c := h.budget serve_takes
  constructor
  · intro as c' has
    constructor
    · have hlen := hb.length_le has
      rw [Finset.sum_const, Finset.card_range, nsmul_eq_mul, Nat.mul_comm] at hlen
      exact hlen
    · exact ((System.play_runs has).orderly hordered hc).atRest_of_stuck
  · obtain ⟨as, c', has, hrest⟩ := hc.settles hordered hb
    refine ⟨as, c', has, hrest, ?_⟩
    intro n a t hp
    obtain ⟨t', ht'⟩ := System.alive_of_steps has hp
    have hret : ∃ r, t' = .ret r := by
      by_contra hne
      exact hrest.finished n ⟨a, t', ht', fun r hr => hne ⟨r, hr⟩⟩
    obtain ⟨r, rfl⟩ := hret
    exact ⟨r, by simp only [World.returned, ht']⟩

theorem comes_to_rest_contended : ∃ c, Deadlock.waits c 1 = true ∧ ∃ as c',
    (server .bare .shop).play (fun _ a => a.isStep = true) c as = some c' ∧ System.AtRest c' := by
  have hplay : ((server .bare .shop).play (fun _ _ => True)
      (.start (.new Libraries.bare.crypto 60 120)) Deadlock.contended).map
        (fun c => Deadlock.waits c 1) = some true := by
    decide +kernel
  obtain ⟨c, hc, hw⟩ := Option.map_eq_some_iff.mp hplay
  obtain ⟨as, c', has, hrest, -⟩ := (comes_to_rest .bare .shop _ c (System.play_runs hc)).2
  exact ⟨c, hw, as, c', has, hrest⟩

end AiterCommerce.Guarantees.Rest
