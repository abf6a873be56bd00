import AiterCommerce.Concurrent.Tally
import AiterCommerce.Guarantees.Lifecycle
import AiterCommerce.Guarantees.Monitored
import AiterCommerce.Guarantees.Sold
import Mathlib.Algebra.Group.Pi.Lemmas

namespace AiterCommerce.Guarantees.Counted

open AiterCommerce.Core Concurrent Server
open Fallible (Tallies)

abbrev Amounts := Gauge → Nat

def one (g : Gauge) : Amounts := Pi.single g 1

/-- What an operation of the handlers adds. The completed checkouts are told by the orders, so
they are left out here. -/
def weighApp : Op → Amounts
  | .webhookVerified => one .webhooksVerified
  | .reserveDebited => one .reserveDebits
  | _ => 0

def weigh : monitoredSignature.Op → Amounts
  | .inl (.inl o) => weighApp o
  | .inl (.inr _) | .inr (.load _) => 0
  | .inr (.fetchAdd counter) => one (.requests counter)

/-- A request is counted before its status is. -/
structure Mid (m : Amounts) : Prop where
  statuses : m (.requests .requests4xx) + m (.requests .requests5xx) ≤ m (.requests .requestsTotal)
  once : ∀ g, m g ≤ 1

def verifiedIn : Response → Nat
  | .reply (.webhook (.ok _)) => 1
  | _ => 0

def debitedIn : Response → Nat
  | .reply (.debit (.ok _)) => 1
  | _ => 0

structure Served (m : Amounts) (r : Response) : Prop where
  requests : ∀ counter, m (.requests counter) = 0
  completed : m .checkoutsCompleted = 0
  verified : m .webhooksVerified = verifiedIn r
  debited : m .reserveDebits = debitedIn r

theorem mid_zero : Mid 0 := ⟨le_rfl, fun _ => Nat.zero_le _⟩

theorem mid_one {g : Gauge} (hg : ∀ counter, g ≠ .requests counter) : Mid (one g) := by
  constructor
  · simp [one, (hg _).symm]
  · intro g'
    rw [one, Pi.single_apply]
    split
    · exact le_rfl
    · exact Nat.zero_le 1

section Handlers

variable {ext : Platform} {st : AppState} {α : Type}

abbrev account (post : Amounts → α → Prop) : Account appSignature α Amounts :=
  ⟨weighApp, Mid, fun m => m = 0, post⟩

def Idle (o : Op) : Prop := weighApp o = 0

theorem debit_tallies {confirm : Bool} {body : DebitRequest}
    {post : Amounts → Except ApiError DebitResponse → Prop}
    (hok : ∀ r, post (one .reserveDebits) (.ok r)) (herr : ∀ e, post 0 (.error e)) :
    Tallies (account post) 0 (debit confirm body) := by
  have hmid : Mid (one .reserveDebits) := mid_one (by simp)
  rw [debit, Fallible.tallies_mapErr_bind]
  cases validatePositiveMinor body.amountMinor "amount_minor" with
  | error e => exact herr e
  | ok u =>
      dsimp only
      rw [Fallible.tallies_locked]
      refine ⟨mid_zero, rfl, ?_⟩
      rw [Fallible.tallies_perform_bind]
      refine ⟨mid_zero, fun consent => ?_⟩
      rw [Fallible.tallies_okOr_bind]
      cases consent with
      | none => exact ⟨mid_zero, herr _⟩
      | some consent =>
          dsimp only
          rw [Fallible.tallies_mapErr_bind]
          cases checkDebit consent confirm body with
          | error e => exact ⟨mid_zero, herr e⟩
          | ok remaining =>
              dsimp only
              rw [Fallible.tallies_perform_bind]
              refine ⟨mid_zero, fun x => ?_⟩
              rw [Fallible.tallies_mapErr_bind]
              cases x with
              | error e => exact ⟨mid_zero, herr _⟩
              | ok u =>
                  change Tallies (account _) ((0 : Amounts) + 0) _
                  rw [add_zero, Fallible.tallies_perform_bind]
                  refine ⟨mid_zero, fun _ => ?_⟩
                  change Mid (0 + one .reserveDebits) ∧
                    post (0 + one .reserveDebits) _
                  rw [zero_add]
                  exact ⟨hmid, hok _⟩

theorem all_idle {ε : Type} {m : Handler ε α} (h : Fallible.Respects (fun _ o => Idle o) ∅ m) :
    (ExceptT.run m).All Idle := by
  have hprog : Prog.Respects (fun (_ : Set Lock) (o : Op) => Idle o) ∅ ∅ (ExceptT.run m) := h
  refine Prog.Respects.all ?_ hprog
  exact fun _ _ ho => ho

theorem processPaymentWebhook_idle {crypto : Crypto} {reader : EnvelopeReader}
    {client : RazorpayConfig} {body : Bytes} {signature : String} {now : Int64} :
    (ExceptT.run (processPaymentWebhook crypto reader client body signature now)).All Idle := by
  apply all_idle
  refine .bind (.mapErr _ _) (fun _ => .bind (.mapErr _ _) (fun envelope => ?_))
  dsimp only
  split
  · exact .pure _
  · refine .bind (.okOr _ _) (fun orderId => .locked (by simp) ?_)
    refine .bind (.perform rfl) (fun _ => .bind (.okOr _ _) (fun order => ?_))
    cases order.paymentReference with
    | some existing => exact .pure _
    | none =>
        dsimp only
        split
        · exact .throw _
        · refine .bind (.mapErr _ _) (fun _ => .bind (.perform rfl) (fun _ => ?_))
          exact .bind (.mapErr _ _) (fun _ => .pure _)

theorem razorpayWebhook_tallies {signature : Option String} {body : Bytes} {now : Int64}
    {post : Amounts → Except HttpError WebhookResponse → Prop}
    (hok : ∀ r, post (one .webhooksVerified) (.ok r)) (herr : ∀ e, post 0 (.error e)) :
    Tallies (account post) 0 (razorpayWebhook ext st signature body now) := by
  rw [razorpayWebhook, Fallible.tallies_okOr_bind]
  cases signature with
  | none => exact herr _
  | some text =>
      dsimp only
      rw [Fallible.tallies_mapErr_bind]
      cases razorpayForState ext st with
      | error e => exact herr _
      | ok client =>
          dsimp only
          rw [Fallible.tallies_adaptErr_bind]
          refine Prog.All.tallies processPaymentWebhook_idle mid_zero rfl (fun r => ?_)
          cases r with
          | error e => exact herr _
          | ok outcome =>
              refine ⟨mid_zero, fun _ => ?_⟩
              change post (0 + one .webhooksVerified) _
              rw [zero_add]
              exact hok _

theorem replyTo_tallies {ε : Type} {f : Except ε α → Reply} {x : Handler ε α}
    {post : Amounts → Reply → Prop} (h : Tallies (account (fun m r => post m (f r))) 0 x) :
    (replyTo f x).Tallies (account post) 0 :=
  (Prog.tallies_bind _ _ 0).mpr h

theorem served_zero {r : Response} (hv : verifiedIn r = 0) (hd : debitedIn r = 0) : Served 0 r where
  requests _ := rfl
  completed := rfl
  verified := hv.symm
  debited := hd.symm

theorem idle_of_performs {q : Request} {o : Op} (h : q.performs o)
    (hdebit : ∀ confirm body, q.call ≠ .debit confirm body)
    (hwebhook : ∀ signature body now, q.call ≠ .razorpayWebhook signature body now) : Idle o := by
  obtain ⟨agent, call⟩ := q
  cases o with
  | webhookVerified | reserveDebited => cases call <;> simp_all [Request.performs]
  | _ => rfl

theorem handler_tallies (q : Request) :
    (handler ext st q).Tallies (account (fun m r => Served m (.reply r))) 0 := by
  have hall := handler_all ext st q
  obtain ⟨agent, call⟩ := q
  cases call with
  | debit confirm body =>
      refine replyTo_tallies (debit_tallies (fun r => ?_) (fun e => served_zero rfl rfl))
      refine ⟨fun counter => ?_, ?_, ?_, ?_⟩ <;> simp [one, verifiedIn, debitedIn]
  | razorpayWebhook signature body now =>
      refine replyTo_tallies (razorpayWebhook_tallies (fun r => ?_) (fun e => served_zero rfl rfl))
      refine ⟨fun counter => ?_, ?_, ?_, ?_⟩ <;> simp [one, verifiedIn, debitedIn]
  | registerAgent identity spendLimit =>
      exact ⟨mid_zero, rfl, mid_zero, fun _ => ⟨mid_zero, served_zero rfl rfl⟩⟩
  | _ =>
      have hidle := hall.mono (fun o ho => idle_of_performs ho (by simp) (by simp))
      exact replyTo_tallies (hidle.of_bind.tallies mid_zero rfl (fun r => served_zero rfl rfl))

theorem requireSigned_idle {crypto : Crypto} {reader : SignatureReader} {now : UInt64}
    {request : HttpRequest} :
    (ExceptT.run (Server.requireSigned crypto reader now request)).All Idle := by
  apply all_idle
  refine .bind (.mapErr _ _) (fun ⟨agentId, signature⟩ => ?_)
  dsimp only
  split
  · exact .throw _
  · refine .bind (.locked (by simp) (.perform rfl)) (fun _ => .bind (.okOr _ _) ?_)
    intro identity
    split
    · exact .throw _
    · exact .bind (.mapErr _ _) (fun _ => .pure _)

end Handlers

section Service

variable {lib : Libraries} {st : AppState} {α : Type}

abbrev service (post : Amounts → α → Prop) : Account serverSignature α Amounts :=
  ⟨fun o => weigh (.inl o), Mid, fun m => m = 0, post⟩

theorem answer_tallies {post : Amounts → Response → Prop} (h : ∀ m r, Served m r → post m r)
    {agent : Option String} {endpoint : Endpoint} :
    (answer lib st agent endpoint).Tallies (service post) 0 := by
  cases endpoint with
  | page tier | refusal tier e | listProducts params => exact h _ _ (served_zero rfl rfl)
  | handler call =>
      apply (Prog.tallies_bind _ _ 0).mpr
      apply (Prog.tallies_inl _ 0).mpr
      exact (handler_tallies ⟨agent, call⟩).mono (fun m r hm => h m _ hm)

theorem limited_tallies {post : Amounts → Response → Prop} (h : ∀ m r, Served m r → post m r)
    {quota : Quota} {key : String} {now : UInt64} {next : Service}
    (hnext : next.Tallies (service post) 0) :
    (do if ← check quota key now then next
        else return .refused rateLimited : Service).Tallies (service post) 0 := by
  refine ⟨mid_zero, rfl, mid_zero, fun admitted => ⟨mid_zero, ?_⟩⟩
  cases admitted with
  | true => exact hnext
  | false => exact h _ _ (served_zero rfl rfl)

theorem serveHttp_tallies {post : Amounts → Response → Prop} (h : ∀ m r, Served m r → post m r)
    {request : HttpRequest} {peer : Option String} {r : Readings} :
    (serveHttp lib st request peer r).Tallies (service post) 0 := by
  rw [serveHttp]
  cases (route lib request r).tier with
  | signed =>
      apply (Prog.tallies_bind _ _ 0).mpr
      apply (Prog.tallies_inl _ 0).mpr
      refine requireSigned_idle.tallies mid_zero rfl (fun x => ?_)
      cases x with
      | error e => exact h _ _ (served_zero rfl rfl)
      | ok agentId => exact limited_tallies h (answer_tallies h)
  | limited => exact limited_tallies h (answer_tallies h)
  | unguarded => exact answer_tallies h

theorem toolCheckout_tallies {post : Amounts → Response → Prop} (h : ∀ m r, Served m r → post m r)
    {cartId : String} {now completedAt issuedAt : Int64} :
    (serve lib st (.toolCheckout cartId now completedAt issuedAt)).Tallies (service post) 0 := by
  have idle (q : Request) (hdebit : ∀ confirm body, q.call ≠ .debit confirm body)
      (hwebhook : ∀ signature body now, q.call ≠ .razorpayWebhook signature body now) :
      (handler lib.toPlatform st q).All Idle :=
    (handler_all lib.toPlatform st q).mono (fun o ho => idle_of_performs ho hdebit hwebhook)
  apply (Prog.tallies_bind _ _ 0).mpr
  apply (Prog.tallies_inl _ 0).mpr
  refine (Fallible.tallies_bind _ _).mpr ?_
  have hsession := idle ⟨none, .createCheckoutSession ⟨cartId, none⟩ now⟩ (by simp) (by simp)
  refine hsession.of_bind.tallies mid_zero rfl (fun x => ?_)
  cases x with
  | error e => exact h _ _ (served_zero rfl rfl)
  | ok session =>
      have horder := idle ⟨none, .completeCheckout session.id completedAt issuedAt⟩ (by simp) (by simp)
      exact horder.of_bind.tallies mid_zero rfl (fun x => h _ _ (served_zero rfl rfl))

theorem serve_tallies {post : Amounts → Response → Prop} (h : ∀ m r, Served m r → post m r)
    (a : Arrival) : (serve lib st a).Tallies (service post) 0 := by
  cases a with
  | http request peer r => exact serveHttp_tallies h
  | tool call =>
      change (answer lib st none (.handler call)).Tallies (service post) 0
      exact answer_tallies h
  | toolCheckout cartId now completedAt issuedAt => exact toolCheckout_tallies h
  | registerAgent identity spendLimit =>
      change (answer lib st none (.handler (.registerAgent identity spendLimit))).Tallies
        (service post) 0
      exact answer_tallies h
  | order id => exact ⟨mid_zero, rfl, mid_zero, fun _ => ⟨mid_zero, h _ _ (served_zero rfl rfl)⟩⟩
  | auditEntries =>
      exact ⟨mid_zero, rfl, mid_zero, fun _ => ⟨mid_zero, h _ _ (served_zero rfl rfl)⟩⟩

end Service

section Monitor

variable {lib : HttpLibraries} {st : AppState} {α : Type}

def counts : Gauge → Answer → Nat
  | .requests .requestsTotal, .http _ => 1
  | .requests .requests4xx, .http exchange => if exchange.sent.isClientError then 1 else 0
  | .requests .requests5xx, .http exchange => if exchange.sent.isServerError then 1 else 0
  | .requests _, .direct _ | .checkoutsCompleted, _ => 0
  | .webhooksVerified, answer => verifiedIn answer.inner
  | .reserveDebits, answer => debitedIn answer.inner

/-- The answer to HEAD counts as the one it is the head of. -/
theorem counts_sentFor (g : Gauge) (exchange : Exchange) (request : HttpRequest) :
    counts g (.http (exchange.sentFor request)) = counts g (.http exchange) := by
  rcases g with (counter | - | -)
  · cases counter <;> simp [counts, Exchange.sentFor, HttpResponse.isClientError,
      HttpResponse.isServerError]
  all_goals rfl

abbrev whole (post : Amounts → α → Prop) : Account monitoredSignature α Amounts :=
  ⟨weigh, Mid, fun m => m = 0, post⟩

abbrev Accounted (m : Amounts) (answer : Answer) : Prop := ∀ g, m g = counts g answer

variable {m : Amounts}

theorem Served.mid {r : Response} (h : Served m r) : Mid m := by
  have hv : verifiedIn r ≤ 1 := by
    unfold verifiedIn
    split <;> simp
  have hd : debitedIn r ≤ 1 := by
    unfold debitedIn
    split <;> simp
  constructor
  · rw [h.requests, h.requests]
    exact Nat.zero_le _
  · intro g
    cases g with
    | requests counter => rw [h.requests]; exact Nat.zero_le 1
    | checkoutsCompleted => rw [h.completed]; exact Nat.zero_le 1
    | webhooksVerified => rw [h.verified]; exact hv
    | reserveDebits => rw [h.debited]; exact hd

theorem Served.page_eq_zero (h : Served m .page) : m = 0 := by
  funext g
  cases g with
  | requests counter => exact h.requests counter
  | checkoutsCompleted => exact h.completed
  | webhooksVerified => exact h.verified
  | reserveDebits => exact h.debited

theorem loads_all (gs : List Gauge) : (loads gs).All (fun o => weigh o = 0) := by
  induction gs with
  | nil => trivial
  | cons g gs ih => exact ⟨rfl, fun _ => ih.bind (fun _ => trivial)⟩

theorem respondTo_tallies {request : HttpRequest} {inner : Response} (h : Served m inner) :
    (respondTo lib st request inner).Tallies (whole (fun m x => Served m x.inner)) m := by
  unfold respondTo
  split
  · apply (Prog.tallies_bind _ _ m).mpr
    have hall : metricsHandler.All (fun o => weigh o = 0) :=
      (loads_all _).bind (fun _ => trivial)
    exact hall.tallies h.mid h.page_eq_zero (fun _ => h)
  · exact h

/-- The middleware adds the request and its status to what the service has counted. -/
theorem Served.accounted {m' : Amounts} {exchange : Exchange} (h : Served m exchange.inner)
    (hrequests : ∀ counter, m' (.requests counter) = counts (.requests counter) (.http exchange))
    (hothers : ∀ g, (∀ counter, g ≠ .requests counter) → m' g = m g) :
    Accounted m' (.http exchange) := by
  intro g
  cases g with
  | requests counter => exact hrequests counter
  | checkoutsCompleted => exact (hothers _ (by simp)).trans h.completed
  | webhooksVerified => exact (hothers _ (by simp)).trans h.verified
  | reserveDebits => exact (hothers _ (by simp)).trans h.debited

theorem not_isServerError {response : HttpResponse} (h : response.isClientError = true) :
    response.isServerError = false := by
  simp only [HttpResponse.isClientError, Bool.and_eq_true, decide_eq_true_eq] at h
  simp only [HttpResponse.isServerError, Bool.and_eq_false_iff, decide_eq_false_iff_not]
  omega

/-- The total is raised first, then the status is counted. -/
theorem traced_tallies {exchange : Exchange} (h : Served m exchange.inner) :
    (do fetchAdd .requestsTotal
        traceStatus exchange.sent
        return exchange : Monitored Exchange).Tallies
      (whole (fun m x => Accounted m (.http x))) m := by
  have hmid : Mid (m + one (.requests .requestsTotal)) := by
    constructor
    · simp [one, h.requests]
    · intro g
      rw [Pi.add_apply, one, Pi.single_apply]
      split
      next hg => rw [hg, h.requests]
      next => exact h.mid.once g
  refine ⟨h.mid, fun _ => ?_⟩
  change (Prog.bind (traceStatus exchange.sent) (fun _ => .ret exchange)).Tallies _
    (m + one (.requests .requestsTotal))
  rw [traceStatus]
  split
  next hclient =>
    refine ⟨hmid, fun _ => ?_⟩
    change Accounted (m + one (.requests .requestsTotal) +
      one (.requests .requests4xx)) (.http exchange)
    refine h.accounted (fun counter => ?_) (fun g hg => ?_)
    · cases counter <;> simp [one, counts, h.requests, hclient, not_isServerError]
    · simp [one, hg]
  next hclient =>
    split
    next hserver =>
      refine ⟨hmid, fun _ => ?_⟩
      change Accounted (m + one (.requests .requestsTotal) +
        one (.requests .requests5xx)) (.http exchange)
      refine h.accounted (fun counter => ?_) (fun g hg => ?_)
      · cases counter <;> simp [one, counts, h.requests, hclient, hserver]
      · simp [one, hg]
    next hserver =>
      refine h.accounted (fun counter => ?_) (fun g hg => ?_)
      · cases counter <;> simp [one, counts, h.requests, hclient, hserver]
      · simp [one, hg]

theorem Served.direct {r : Response} (h : Served m r) : Accounted m (.direct r) := by
  intro g
  cases g with
  | requests counter =>
      rw [h.requests]
      cases counter <;> rfl
  | checkoutsCompleted => exact h.completed
  | webhooksVerified => exact h.verified
  | reserveDebits => exact h.debited

theorem monitor_tallies (a : Arrival) :
    (monitor lib st a).Tallies (whole Accounted) 0 := by
  have direct (a : Arrival) : (do
      let inner ← (serve lib.toLibraries st a).inl
      return .direct inner : Monitored Answer).Tallies (whole Accounted) 0 := by
    apply (Prog.tallies_bind _ _ 0).mpr
    apply (Prog.tallies_inl _ 0).mpr
    exact serve_tallies (fun m r h => h.direct) a
  cases a with
  | http request peer r =>
      apply (Prog.tallies_bind _ _ 0).mpr
      apply (Prog.tallies_bind _ _ 0).mpr
      apply (Prog.tallies_bind _ _ 0).mpr
      apply (Prog.tallies_inl _ 0).mpr
      refine serveHttp_tallies (fun m inner h => ?_)
      refine Prog.Tallies.mono (K := whole (fun m x => Served m x.inner)) (fun m x hx => ?_)
        (respondTo_tallies h)
      refine Prog.Tallies.mono (K := whole (fun m x => Accounted m (.http x))) (fun m x hm g => ?_)
        (traced_tallies hx)
      rw [hm g, counts_sentFor]
  | _ => exact direct _

end Monitor

section Runs

variable {lib : HttpLibraries} {st : AppState}
  {c : World monitoredSignature MonitoredData Arrival Answer}

def ShownBy (d : MonitoredData) (m : Amounts) : Prop :=
  ∀ g, g ≠ .checkoutsCompleted → d.load g = UInt64.ofNat (m g)

theorem load_exec (o : monitoredSignature.Op) (d : MonitoredData) {g : Gauge}
    (hg : g ≠ .checkoutsCompleted) :
    (MonitoredData.exec o d).2.load g = d.load g + UInt64.ofNat (weigh o g) := by
  have same {d' : MonitoredData} (h : d'.load g = d.load g) : d'.load g = d.load g + UInt64.ofNat 0 := by
    rw [h, show UInt64.ofNat 0 = 0 from rfl, UInt64.add_zero]
  rcases o with (o | o) | o
  · cases o with
    | webhookVerified | reserveDebited => cases g <;> simp_all [MonitoredData.load, MonitoredData.exec,
        ServerData.exec, Op.exec, weigh, weighApp, one]
    | _ => cases g with
      | checkoutsCompleted => exact absurd rfl hg
      | requests counter | webhooksVerified | reserveDebits => exact same rfl
  · cases g with
    | checkoutsCompleted => exact absurd rfl hg
    | requests counter => exact same rfl
    | webhooksVerified | reserveDebits =>
        rcases o with ⟨quota, key, now⟩ | -
        · cases quota <;> exact same rfl
        · exact same rfl
  · cases o with
    | load gauge => exact same rfl
    | fetchAdd counter =>
        cases g with
        | requests other =>
            change (d.metrics.raise counter).get other = d.metrics.get other + _
            rw [Metrics.get_raise, weigh, one, Pi.single_apply]
            by_cases h : other = counter
            · simp [h]
            · simp [h]
        | checkoutsCompleted => exact absurd rfl hg
        | webhooksVerified | reserveDebits => simp [MonitoredData.load, MonitoredData.exec, weigh, one]

theorem ShownBy.exec {d : MonitoredData} {m : Amounts} (h : ShownBy d m) (o : monitoredSignature.Op) :
    ShownBy (MonitoredData.exec o d).2 (m + weigh o) := by
  intro g hg
  rw [load_exec o d hg, h g hg, Pi.add_apply, UInt64.ofNat_add]

/-- The completed checkouts are as many as the stored orders, unless somebody holds them. -/
theorem completed_eq_len {writes reads : UInt32} (h : (monitored lib st).Runs (fun _ _ => True)
    (.start (.new lib.crypto writes reads)) c) (hf : c.shared.held (.inl (.inl Lock.orders)) = none) :
    c.shared.data.server.data.checkoutsCompleted = c.shared.data.server.data.orders.len := by
  obtain ⟨w, place, hw, hshows⟩ := Monitored.shown_run h
  obtain ⟨v, place', hv, hshows'⟩ := Shown.shown_run hw
  have hfree : v.shared.held Lock.orders = none := by
    cases hl : v.shared.held Lock.orders with
    | none => rfl
    | some j =>
        obtain ⟨n, a, -, hl'⟩ := hshows'.held _ j hl
        obtain ⟨m, b, -, hl''⟩ := hshows.held _ _ hl'
        cases hf.symm.trans hl''
  have hdata : v.shared.data = c.shared.data.server.data :=
    hshows'.data.trans (congrArg ServerData.data hshows.data)
  rw [← hdata]
  exact Sold.orders_counted hv hfree

/-- The numbers behind what the counters show. -/
structure Counting (c : World monitoredSignature MonitoredData Arrival Answer) (n : Amounts) :
    Prop where
  shown : ∀ g, c.shared.data.load g = UInt64.ofNat (n g)
  answered : ∀ g, g ≠ .checkoutsCompleted → c.answered (fun _ => counts g) ≤ n g ∧
    n g ≤ c.answered (fun _ => counts g) + c.underWay
  statuses : n (.requests .requests4xx) + n (.requests .requests5xx) ≤ n (.requests .requestsTotal)
  completed : c.shared.held (.inl (.inl Lock.orders)) = none →
    n .checkoutsCompleted = c.shared.data.server.data.orders.len

/-- No task has raised the counters of the statuses above the total. -/
theorem statuses_of_keeps {p : Proc monitoredSignature Arrival Answer} {m : Amounts}
    (h : p.Keeps (fun _ => whole Accounted) m) :
    m (.requests .requests4xx) + m (.requests .requests5xx) ≤ m (.requests .requestsTotal) := by
  obtain ⟨a, rest⟩ := p
  cases rest with
  | none =>
      have hm : m = 0 := h
      rw [hm]
      exact le_rfl
  | some t =>
      cases t with
      | op o k | lock l k | unlock l k =>
          have hmid : Mid m := h.1
          exact hmid.statuses
      | ret answer =>
          have hm : Accounted m answer := h
          rw [hm, hm, hm]
          cases answer with
          | direct inner => exact le_rfl
          | http exchange =>
              simp only [counts]
              split
              next hclient => simp [not_isServerError hclient]
              next => split <;> simp

theorem counting_of_tallied {parts : List Amounts}
    (hc : Tallied (fun _ => whole Accounted) ShownBy c parts)
    (hcompleted : c.shared.held (.inl (.inl Lock.orders)) = none →
      c.shared.data.server.data.checkoutsCompleted = c.shared.data.server.data.orders.len) :
    ∃ n, Counting c n := by
  let n : Amounts := Function.update parts.sum .checkoutsCompleted
    c.shared.data.server.data.checkoutsCompleted
  have hn {g : Gauge} (hg : g ≠ .checkoutsCompleted) : n g = parts.sum g :=
    Function.update_of_ne hg _ _
  refine ⟨n, ?_, ?_, ?_, ?_⟩
  · intro g
    by_cases hg : g = .checkoutsCompleted
    · subst hg
      rfl
    · rw [hn hg]
      exact hc.shown g hg
  · intro g hg
    rw [hn hg]
    exact hc.counted (Pi.evalAddMonoidHom _ g) (fun _ _ hm => hm.once g) (fun _ _ hm => congrFun hm g)
      (fun _ _ _ hm => hm g)
  · rw [hn (by simp), hn (by simp), hn (by simp)]
    exact hc.le (Pi.evalAddMonoidHom _ (.requests .requests4xx) +
      Pi.evalAddMonoidHom _ (.requests .requests5xx))
      (Pi.evalAddMonoidHom _ (.requests .requestsTotal)) (fun p m _ => statuses_of_keeps)
  · exact hcompleted

theorem exists_counting {writes reads : UInt32} (h : (monitored lib st).Runs (fun _ _ => True)
    (.start (.new lib.crypto writes reads)) c) : ∃ n, Counting c n := by
  have hstart : ShownBy (.new lib.crypto writes reads) 0 := by
    intro g hg
    cases g with
    | requests counter => cases counter <;> rfl
    | checkoutsCompleted => exact absurd rfl hg
    | webhooksVerified | reserveDebits => rfl
  obtain ⟨parts, hparts⟩ := System.Runs.tallied (K := fun _ => whole Accounted) (fun _ => rfl)
    monitor_tallies (fun o d m hd => hd.exec o) hstart h
  exact counting_of_tallied hparts (completed_eq_len h)

def shopPages : HttpLibraries :=
  { Lifecycle.shopLibraries with quoted := fun s => s }

def getPage (path : String) : Arrival :=
  .http ⟨"GET", ⟨none, none, some path⟩, [], []⟩ none ⟨0, 0, 5, 0, .ok ""⟩

/-- A cart that a tool checks out, the delivery that reports its payment, a request for what is
not there, and one for the counters. -/
def scraped : List (Action Arrival) :=
  System.enter 0 (.tool (.createCart ⟨none, [⟨"p-1", 2⟩]⟩)) 4 ++
  System.enter 1 (.toolCheckout "cart-0" 0 0 0) 19 ++
  System.enter 2 (.http ⟨"POST", ⟨none, none, some "/webhooks/razorpay"⟩,
    [("x-razorpay-signature", utf8 (toHex (Money.paying.crypto.hmacSha256 (utf8 "s") [1])))], [1]⟩
    none ⟨0, 0, 5, 0, .ok ""⟩) 9 ++
  System.enter 3 (getPage "/nowhere") 2 ++
  System.enter 4 (getPage "/metrics") 7

/-- In every run of the server, whatever arrives and whoever gives up: there are numbers behind
the counters, which show them in 64 bits. Of the requests, the verified deliveries and the debits
these are at least the answers given, and at most as many more as there are tasks under way; no
more requests have failed than were counted; and unless a completion is under way the completed
checkouts are the stored orders. Once nothing is under way, all are exact. -/
theorem counters_true (lib : HttpLibraries) (st : AppState) (writes reads : UInt32)
    (h : (monitored lib st).Runs (fun _ _ => True) (.start (.new lib.crypto writes reads)) c) :
    ∃ n, Counting c n ∧ ((∀ i, ¬ System.Unfinished c i) →
      ∀ g, g ≠ .checkoutsCompleted → n g = c.answered (fun _ => counts g)) := by
  obtain ⟨n, hn⟩ := exists_counting h
  refine ⟨n, hn, fun hall g hg => ?_⟩
  obtain ⟨hle, hge⟩ := hn.answered g hg
  rw [World.underWay_eq_zero hall] at hge
  exact le_antisymm hge hle

theorem counters_true_scraped :
    ∃ (c : World monitoredSignature MonitoredData Arrival Answer) (n : Amounts), Counting c n ∧
      gauges.map (fun g => c.shared.data.load g.2) = [3, 1, 0, 1, 1, 0] ∧
      c.answered (fun _ => counts (.requests .requestsTotal)) = 3 := by
  have hplay : (((monitored shopPages Money.payingShop).play (fun _ _ => True)
      (.start (.new shopPages.crypto 60 120)) scraped).map
        (fun c => (gauges.map (fun g => c.shared.data.load g.2),
          c.answered (fun _ => counts (.requests .requestsTotal))))) =
            some ([3, 1, 0, 1, 1, 0], 3) := by
    decide +kernel
  obtain ⟨c, hc, hread⟩ := Option.map_eq_some_iff.mp hplay
  obtain ⟨hloads, hanswered⟩ := Prod.mk.inj hread
  obtain ⟨n, hn, -⟩ := counters_true shopPages Money.payingShop 60 120 (System.play_runs hc)
  exact ⟨c, n, hn, hloads, hanswered⟩

end Runs

end AiterCommerce.Guarantees.Counted
