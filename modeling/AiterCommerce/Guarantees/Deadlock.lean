import AiterCommerce.Concurrent.Progress
import AiterCommerce.Server.Router
import Mathlib.Data.Fintype.EquivFin
import Mathlib.Order.Fin.Basic

namespace AiterCommerce.Guarantees.Deadlock

open AiterCommerce.Core Concurrent Server
open Fallible (Ordered locked)

/-- The order in which locks are taken: orders before sessions, both before the agents and
the log; carts before the set of cancelled ones. The others are never held together. -/
def rank : Lock → Fin 3
  | .orders | .carts | .consents => 0
  | .sessions | .cancelledCarts => 1
  | .agents | .audit => 2

variable {ε : Type} {st : AppState} {ext : Platform} {lib : Libraries}

theorem genId_ordered (kind : String) : Ordered rank ∅ (genId kind : Handler ε String) :=
  .bind (.perform _) (fun _ => .pure _)

theorem locked_perform_ordered {H : Set Lock} {l : Lock} (hl : ∀ m ∈ H, rank m < rank l) (o : Op) :
    Ordered rank H (locked l (perform o) : Handler ε o.Resp) :=
  .locked hl (.perform _)

theorem createCart_ordered (body : CreateCartRequest) : Ordered rank ∅ (createCart st body) := by
  apply Ordered.bind (.mapErr _ _)
  intro _
  apply Ordered.bind (genId_ordered _)
  intro id
  apply Ordered.bind (locked_perform_ordered (by simp) _)
  intro _
  exact .bind (.mapErr _ _) (fun _ => .pure _)

theorem getCart_ordered (id : String) : Ordered rank ∅ (getCart st id) := by
  apply Ordered.bind (locked_perform_ordered (by simp) _)
  intro _
  apply Ordered.bind (.okOr _ _)
  intro _
  exact .bind (locked_perform_ordered (by simp) _) (fun _ => .pure _)

theorem updateCart_ordered (id : String) (items : List LineItem) :
    Ordered rank ∅ (updateCart st id items) := by
  apply Ordered.locked (by simp)
  apply Ordered.bind (.perform _)
  intro _
  apply Ordered.bind (.okOr _ _)
  intro cart
  apply Ordered.bind (locked_perform_ordered (by simp [rank]) _)
  intro cancelled
  cases cancelled with
  | true => exact .throw _
  | false =>
      apply Ordered.bind (.mapErr _ _)
      intro _
      apply Ordered.bind (.perform _)
      intro _
      apply Ordered.bind (.mapErr _ _)
      intro _
      exact .bind (locked_perform_ordered (by simp [rank]) _) (fun _ => .pure _)

theorem cancelCart_ordered (id : String) : Ordered rank ∅ (cancelCart st id) := by
  apply Ordered.bind (locked_perform_ordered (by simp) _)
  intro _
  apply Ordered.bind (.okOr _ _)
  intro _
  exact .bind (locked_perform_ordered (by simp) _) (fun _ => .pure _)

theorem createCheckoutSession_ordered (body : CreateSessionRequest) (now : Int64) :
    Ordered rank ∅ (createCheckoutSession st body now) := by
  apply Ordered.bind (locked_perform_ordered (by simp) _)
  intro _
  apply Ordered.bind (.okOr _ _)
  intro cart
  apply Ordered.bind (locked_perform_ordered (by simp) _)
  intro cancelled
  cases cancelled with
  | true => exact .throw _
  | false =>
      apply Ordered.bind (.mapErr _ _)
      intro totals
      apply Ordered.bind (genId_ordered _)
      intro id
      apply Ordered.bind (locked_perform_ordered (by simp) _)
      intro _
      exact .bind (.mapErr _ _) (fun _ => .pure _)

theorem storeOrder_ordered (H : Set Lock) (id : String) (session : CheckoutSession) (now : Int64) :
    Ordered rank H (storeOrder id session now) := by
  apply Ordered.bind (.mapErr _ _)
  intro paid
  apply Ordered.bind (.perform _)
  intro _
  apply Ordered.bind (.mapErr _ _)
  intro _
  apply Ordered.bind (.perform _)
  intro _
  apply Ordered.bind (.mapErr _ _)
  intro _
  exact .bind (.perform _) (fun _ => .pure _)

theorem placeOrder_ordered {H : Set Lock} (ha : ∀ m ∈ H, rank m < rank .agents)
    (hau : ∀ m ∈ H, rank m < rank .audit) (agent : Option String) (id : String)
    (session : CheckoutSession) (now issuedAt : Int64) :
    Ordered rank H (placeOrder agent id session now issuedAt) := by
  cases agent with
  | none => exact placeOrder_none id session now issuedAt ▸ storeOrder_ordered H id session now
  | some a =>
      rw [placeOrder_some]
      apply Ordered.bind
      · exact .bind (locked_perform_ordered ha _) (fun _ => .mapErr _ _)
      intro _
      apply Ordered.bind (storeOrder_ordered H id session now)
      intro order
      apply Ordered.bind
      · exact .bind (locked_perform_ordered hau _) (fun _ => .pure _)
      intro _
      exact .pure _

theorem completeCheckout_ordered (agent : Option String) (id : String) (now issuedAt : Int64) :
    Ordered rank ∅ (completeCheckout agent id now issuedAt) := by
  apply Ordered.locked (by simp)
  apply Ordered.locked (by simp [rank])
  apply Ordered.bind (.perform _)
  intro order
  cases order with
  | some order => exact .pure _
  | none =>
      apply Ordered.bind (.perform _)
      intro _
      apply Ordered.bind (.okOr _ _)
      intro session
      dsimp only
      split
      · exact .throw _
      · exact placeOrder_ordered (by simp [rank]) (by simp [rank]) agent id session now issuedAt

theorem cancelCheckout_ordered (id : String) : Ordered rank ∅ (cancelCheckout id) := by
  apply Ordered.locked (by simp)
  apply Ordered.bind (.perform _)
  intro _
  apply Ordered.bind (.okOr _ _)
  intro session
  dsimp only
  split
  · apply Ordered.bind (.mapErr _ _)
    intro _
    apply Ordered.bind (.perform _)
    intro _
    exact .bind (.mapErr _ _) (fun _ => .pure _)
  · exact .pure _

theorem createConsent_ordered (body : ConsentRequest) (now : Int64) :
    Ordered rank ∅ (createConsent body now) := by
  apply Ordered.bind (.mapErr _ _)
  intro _
  apply Ordered.bind (genId_ordered _)
  intro id
  apply Ordered.bind (locked_perform_ordered (by simp) _)
  intro _
  exact .bind (.mapErr _ _) (fun _ => .pure _)

theorem debit_ordered (confirm : Bool) (body : DebitRequest) :
    Ordered rank ∅ (debit confirm body) := by
  apply Ordered.bind (.mapErr _ _)
  intro _
  apply Ordered.locked (by simp)
  apply Ordered.bind (.perform _)
  intro _
  apply Ordered.bind (.okOr _ _)
  intro _
  apply Ordered.bind (.mapErr _ _)
  intro _
  apply Ordered.bind (.perform _)
  intro _
  apply Ordered.bind (.mapErr _ _)
  intro _
  exact .bind (.perform _) (fun _ => .pure _)

theorem orderPaymentLink_ordered (id : String) (reply : Except RazorpayError String) :
    Ordered rank ∅ (orderPaymentLink ext st id reply) := by
  apply Ordered.bind (locked_perform_ordered (by simp) _)
  intro _
  apply Ordered.bind (.okOr _ _)
  intro order
  dsimp only
  split
  · exact .throw _
  · apply Ordered.bind (.mapErr _ _)
    intro client
    apply Ordered.bind
    · apply Ordered.adaptErr
      apply Ordered.bind (.mapErr _ _)
      intro _
      exact .bind (.perform _) (fun _ => .mapErr _ _)
    intro _
    exact .pure _

theorem reconcilePayment_ordered (orderId paymentId : String) (payment : WebhookPaymentEntity)
    (now : Int64) : Ordered rank ∅ (reconcilePayment orderId paymentId payment now) := by
  apply Ordered.locked (by simp)
  apply Ordered.bind (.perform _)
  intro _
  apply Ordered.bind (.okOr _ _)
  intro order
  cases order.paymentReference with
  | some existing => exact .pure _
  | none =>
      dsimp only
      split
      · exact .throw _
      · apply Ordered.bind (.mapErr _ _)
        intro _
        apply Ordered.bind (.perform _)
        intro _
        exact .bind (.mapErr _ _) (fun _ => .pure _)

theorem razorpayWebhook_ordered (signature : Option String) (body : Bytes) (now : Int64) :
    Ordered rank ∅ (razorpayWebhook ext st signature body now) := by
  apply Ordered.bind (.okOr _ _)
  intro text
  apply Ordered.bind (.mapErr _ _)
  intro client
  apply Ordered.bind
  · apply Ordered.adaptErr
    apply Ordered.bind (.mapErr _ _)
    intro _
    apply Ordered.bind (.mapErr _ _)
    intro envelope
    dsimp only
    split
    · exact .pure _
    · exact .bind (.okOr _ _) (fun _ => reconcilePayment_ordered _ _ _ _)
  intro _
  exact .bind (.perform _) (fun _ => .pure _)

theorem requireSigned_ordered (now : UInt64) (request : HttpRequest) :
    Ordered rank ∅ (requireSigned lib.crypto lib.readSignature now request) := by
  apply Ordered.bind (.mapErr _ _)
  rintro ⟨agentId, signature⟩
  dsimp only
  split
  · exact .throw _
  · apply Ordered.bind (locked_perform_ordered (by simp) _)
    intro _
    apply Ordered.bind (.okOr _ _)
    intro identity
    split
    · exact .throw _
    · exact .bind (.mapErr _ _) (fun _ => .pure _)

theorem replyTo_ordered {α : Type} {f : Except ε α → Reply} {m : Handler ε α}
    (h : Ordered rank ∅ m) : (replyTo f m).Ordered rank ∅ ∅ :=
  Prog.Ordered.bind h (fun _ => rfl)

theorem handler_ordered (q : Request) : (handler ext st q).Ordered rank ∅ ∅ := by
  obtain ⟨agent, call⟩ := q
  cases call with
  | createCart body => exact replyTo_ordered (createCart_ordered body)
  | getCart id => exact replyTo_ordered (getCart_ordered id)
  | updateCart id items => exact replyTo_ordered (updateCart_ordered id items)
  | cancelCart id => exact replyTo_ordered (cancelCart_ordered id)
  | createCheckoutSession body now =>
      exact replyTo_ordered (createCheckoutSession_ordered body now)
  | completeCheckout id now issuedAt =>
      exact replyTo_ordered (completeCheckout_ordered agent id now issuedAt)
  | cancelCheckout id => exact replyTo_ordered (cancelCheckout_ordered id)
  | createConsent body now => exact replyTo_ordered (createConsent_ordered body now)
  | debit confirm body => exact replyTo_ordered (debit_ordered confirm body)
  | orderPaymentLink id reply => exact replyTo_ordered (orderPaymentLink_ordered id reply)
  | razorpayWebhook signature body now =>
      exact replyTo_ordered (razorpayWebhook_ordered signature body now)
  | registerAgent identity spendLimit =>
      exact Prog.Ordered.locked (by simp) (fun _ => rfl)

/-- The quotas have locks of their own, which are held alone. -/
def serverRank : serverSignature.Lock → Fin 3 := Sum.elim rank (fun _ => 0)

theorem inl_ordered {R : Type} {t : Prog appSignature R} (h : t.Ordered rank ∅ ∅) :
    (t.inl : Prog serverSignature R).Ordered serverRank ∅ ∅ := by
  have hinl : (t.inl : Prog serverSignature R).Ordered serverRank (Set.image Sum.inl ∅)
      (Set.image Sum.inl ∅) :=
    h.inl
  rwa [Set.image_empty] at hinl

theorem check_ordered (quota : Quota) (key : String) (now : UInt64) :
    (check quota key now).Ordered serverRank ∅ ∅ :=
  Prog.Ordered.locked (by simp) (fun _ => rfl)

theorem answer_ordered (agent : Option String) (endpoint : Endpoint) :
    (answer lib st agent endpoint).Ordered serverRank ∅ ∅ := by
  cases endpoint with
  | page tier => rfl
  | refusal tier e => rfl
  | listProducts params => rfl
  | handler call => exact Prog.Ordered.bind (inl_ordered (handler_ordered _)) (fun _ => rfl)

theorem limited_ordered {quota : Quota} {key : String} {now : UInt64} {next : Service}
    (h : next.Ordered serverRank ∅ ∅) :
    Prog.Ordered serverRank ∅ ∅ (do
      if ← check quota key now then next
      else return .refused rateLimited : Service) := by
  apply Prog.Ordered.bind (check_ordered quota key now)
  intro admitted
  cases admitted with
  | true => exact h
  | false => rfl

theorem toolCheckout_ordered (cartId : String) (now completedAt issuedAt : Int64) :
    Ordered rank ∅ (toolCheckout st cartId now completedAt issuedAt) :=
  .bind (createCheckoutSession_ordered _ _) (fun _ => completeCheckout_ordered _ _ _ _)

theorem serveHttp_ordered (request : HttpRequest) (peer : Option String) (r : Readings) :
    (serveHttp lib st request peer r).Ordered serverRank ∅ ∅ := by
  rw [serveHttp]
  cases (route lib request r).tier with
  | signed =>
      apply Prog.Ordered.bind (inl_ordered (requireSigned_ordered r.signedAt request))
      intro agent
      cases agent with
      | ok agentId => exact limited_ordered (answer_ordered _ _)
      | error e => rfl
  | limited => exact limited_ordered (answer_ordered _ _)
  | unguarded => exact answer_ordered _ _

theorem serve_ordered (a : Arrival) : (serve lib st a).Ordered serverRank ∅ ∅ := by
  cases a with
  | http request peer r => exact serveHttp_ordered request peer r
  | tool call => exact answer_ordered none (.handler call)
  | toolCheckout cartId now completedAt issuedAt =>
      exact Prog.Ordered.bind (inl_ordered (toolCheckout_ordered _ _ _ _)) (fun _ => rfl)
  | registerAgent identity spendLimit =>
      exact answer_ordered none (.handler (.registerAgent identity spendLimit))
  | order id =>
      apply Prog.Ordered.bind
      · apply inl_ordered
        exact Prog.Ordered.locked (by simp) (fun _ => rfl)
      · exact fun _ => rfl
  | auditEntries =>
      apply Prog.Ordered.bind
      · exact Prog.Ordered.locked (by simp) (fun _ => rfl)
      · exact fun _ => rfl

/-- Whatever requests arrive and however their steps come one after the other, with some of
them given up while they wait: as long as one is unfinished, one takes its next step, and
none waits for a lock that it holds. -/
theorem never_stuck (lib : Libraries) (st : AppState) (d : ServerData)
    (c : World serverSignature ServerData Arrival Response)
    (h : (server lib st).Runs (fun _ _ => True) (.start d) c) :
    (∀ n, System.Unfinished c n → ∃ m c', (server lib st).next c (.step m) = some c') ∧
      ∀ n a l k, c.procs[n]? = some ⟨a, some (.lock l k)⟩ → c.shared.held l ≠ some ⟨n, a⟩ := by
  have hc : System.Orderly serverRank c :=
    h.orderly (fun a => serve_ordered a) (System.orderly_start d)
  constructor
  · intro n hn
    exact hc.progress hn
  · intro n a l k hp
    exact hc.not_held hp

/-- A completion that holds the orders and the sessions, and the cancellation of the same
session, which waits. -/
def contended : List (Action Arrival) :=
  [.spawn (.tool (.completeCheckout "cs-0" 0 0)), .spawn (.tool (.cancelCheckout "cs-0")),
    .step 0, .step 0]

def waits (c : World serverSignature ServerData Arrival Response) (n : Nat) : Bool :=
  match c.procs[n]? with
  | some ⟨_, some (.lock _ _)⟩ => true
  | _ => false

theorem unfinished_of_waits {c : World serverSignature ServerData Arrival Response} {n : Nat}
    (h : waits c n = true) : System.Unfinished c n := by
  rw [waits] at h
  split at h
  next a l k hp => exact ⟨a, _, hp, fun r hr => by cases hr⟩
  next => cases h

theorem never_stuck_contended :
    ∃ c, waits c 1 = true ∧ (server .bare .shop).next c (.step 1) = none ∧
      ∃ m c', (server .bare .shop).next c (.step m) = some c' := by
  have hplay : ((server .bare .shop).play (fun _ _ => True)
      (.start (.new Libraries.bare.crypto 60 120)) contended).map (fun c =>
        waits c 1 && ((server .bare .shop).next c (.step 1)).isNone) =
          some true := by
    decide +kernel
  obtain ⟨c, hc, heq⟩ := Option.map_eq_some_iff.mp hplay
  obtain ⟨hw, hn⟩ := Bool.and_eq_true_iff.mp heq
  exact ⟨c, hw, Option.isNone_iff_eq_none.mp hn,
    (never_stuck .bare .shop _ c (System.play_runs hc)).1 1
      (unfinished_of_waits hw)⟩

end AiterCommerce.Guarantees.Deadlock
