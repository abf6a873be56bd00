import AiterCommerce.Server.System

namespace AiterCommerce.Server

open AiterCommerce.Core Concurrent
open Fallible (locked Respects)

variable {ε : Type} {may : Set Lock → Op → Prop} {st : AppState} {ext : Platform}

theorem genId_respects {H : Set Lock} (h : may H .fetchId) (kind : String) :
    Respects may H (genId kind : Handler ε String) :=
  .bind (.perform h) (fun _ => .pure _)

theorem locked_perform_respects {H : Set Lock} {l : Lock} {o : Op} (hl : l ∉ H)
    (h : may (insert l H) o) : Respects may H (locked l (perform o) : Handler ε o.Resp) :=
  .locked hl (.perform h)

theorem createCart_respects {body : CreateCartRequest} (hid : may ∅ .fetchId)
    (hc : validateCatalogItems st (body.currency.getD .USD) body.items = .ok () →
      ∀ id, may {.carts}
        (.carts (.create id (fillCart (body.currency.getD .USD) body.items)))) :
    Respects may ∅ (createCart st body) := by
  refine .mapErr_bind _ _ (fun _ hv => .bind (genId_respects hid _) (fun id => ?_))
  exact .bind (locked_perform_respects (by simp) (by simpa using hc hv _))
    (fun _ => .bind (.mapErr _ _) (fun _ => .pure _))

theorem getCart_respects {id : String} (hg : may {.carts} (.carts (.get id)))
    (hc : may {.cancelledCarts} (.cartCancelled id)) : Respects may ∅ (getCart st id) := by
  refine .bind (locked_perform_respects (by simp) (by simpa using hg)) (fun _ => ?_)
  refine .bind (.okOr _ _) (fun _ => ?_)
  exact .bind (locked_perform_respects (by simp) (by simpa using hc)) (fun _ => .pure _)

theorem updateCart_respects {id : String} {items : List LineItem}
    (hg : may {.carts} (.carts (.get id)))
    (hc : may {.cancelledCarts, .carts} (.cartCancelled id))
    (hu : ∀ cart : Cart, may {.carts} (.carts (.update id (fillCart cart.currency items)))) :
    Respects may ∅ (updateCart st id items) := by
  refine .locked (by simp) (.bind (.perform (by simpa using hg)) (fun _ => ?_))
  refine .bind (.okOr _ _) (fun cart => ?_)
  refine .bind (locked_perform_respects (by simp) (by simpa using hc)) (fun cancelled => ?_)
  cases cancelled with
  | true => exact .throw _
  | false =>
      refine .bind (.mapErr _ _) (fun _ => .bind (.perform (by simpa using hu _)) (fun _ => ?_))
      refine .bind (.mapErr _ _) (fun _ => ?_)
      exact .bind (locked_perform_respects (by simp) (by simpa using hc)) (fun _ => .pure _)

theorem cancelCart_respects {id : String} (hg : may {.carts} (.carts (.get id)))
    (hc : may {.cancelledCarts} (.cancelCart id)) : Respects may ∅ (cancelCart st id) := by
  refine .bind (locked_perform_respects (by simp) (by simpa using hg)) (fun _ => ?_)
  refine .bind (.okOr _ _) (fun _ => ?_)
  exact .bind (locked_perform_respects (by simp) (by simpa using hc)) (fun _ => .pure _)

theorem createCheckoutSession_respects {body : CreateSessionRequest} {now : Int64}
    (hg : may {.carts} (.carts (.get body.cartId)))
    (hf : may {.cancelledCarts} (.cartCancelled body.cartId)) (hid : may ∅ .fetchId)
    (hc : ∀ id cart totals, computeTotals cart st.priceOf noTax = .ok totals →
      may {.sessions} (.sessions (.create id (CheckoutSession.new id cart
        (body.fulfillment.getD .pickup) (now + 3600) totals)))) :
    Respects may ∅ (createCheckoutSession st body now) := by
  refine .bind (locked_perform_respects (by simp) (by simpa using hg)) (fun _ => ?_)
  refine .bind (.okOr _ _) (fun cart => ?_)
  refine .bind (locked_perform_respects (by simp) (by simpa using hf)) (fun cancelled => ?_)
  cases cancelled with
  | true => exact .throw _
  | false =>
      refine .mapErr_bind _ _ (fun totals ht => .bind (genId_respects hid _) (fun id => ?_))
      exact .bind (locked_perform_respects (by simp) (by simpa using hc id cart totals ht))
        (fun _ => .bind (.mapErr _ _) (fun _ => .pure _))

theorem storeOrder_respects {H : Set Lock} {id : String} {session : CheckoutSession} {now : Int64}
    (hoc : may H (.orders (.create (orderKey id) (Order.new (orderKey id) id session.totals now))))
    (hsu : may H (.sessions (.update id { session with status := .paid })))
    (hcc : may H .checkoutCompleted) : Respects may H (storeOrder id session now) := by
  refine .mapErr_bind _ _ (fun paid hs => ?_)
  obtain rfl := markPaid_ok hs
  refine .bind (.perform hoc) (fun _ => .bind (.mapErr _ _) (fun _ => ?_))
  refine .bind (.perform hsu) (fun _ => .bind (.mapErr _ _) (fun _ => ?_))
  exact .bind (.perform hcc) (fun _ => .pure _)

theorem placeOrder_respects {H : Set Lock} {agent : Option String} {id : String}
    {session : CheckoutSession} {now issuedAt : Int64} (ha : .agents ∉ H) (hau : .audit ∉ H)
    (hch : ∀ a, agent = some a → may (insert .agents H) (.chargeAgent a session.totals.total))
    (hoc : may H (.orders (.create (orderKey id) (Order.new (orderKey id) id session.totals now))))
    (hsu : may H (.sessions (.update id { session with status := .paid })))
    (hcc : may H .checkoutCompleted)
    (hp : ∀ a, agent = some a → may (insert .audit H) (.pushReceipt
      ⟨receiptId (orderKey id), a, orderKey id, session.totals.total, issuedAt⟩)) :
    Respects may H (placeOrder agent id session now issuedAt) := by
  cases agent with
  | none => exact placeOrder_none id session now issuedAt ▸ storeOrder_respects hoc hsu hcc
  | some a =>
      rw [placeOrder_some, storeOrder]
      simp only [bind_assoc, pure_bind]
      refine .bind (.bind (locked_perform_respects ha (hch a rfl)) (fun _ => .mapErr _ _))
        (fun _ => ?_)
      refine .mapErr_bind _ _ (fun paid hs => ?_)
      obtain rfl := markPaid_ok hs
      refine .bind (.perform hoc) (fun _ => .bind (.mapErr _ _) (fun _ => ?_))
      refine .bind (.perform hsu) (fun _ => .bind (.mapErr _ _) (fun _ => ?_))
      refine .bind (.perform hcc) (fun _ => .bind ?_ (fun _ => .pure _))
      exact .bind (locked_perform_respects hau (hp a rfl)) (fun _ => .pure _)

theorem completeCheckout_respects {agent : Option String} {id : String} {now issuedAt : Int64}
    (hog : may {.sessions, .orders} (.orders (.get (orderKey id))))
    (hsg : may {.sessions, .orders} (.sessions (.get id)))
    (hch : ∀ a amount, agent = some a →
      may {.agents, .sessions, .orders} (.chargeAgent a amount))
    (hoc : ∀ order, may {.sessions, .orders} (.orders (.create (orderKey id) order)))
    (hsu : ∀ session, may {.sessions, .orders} (.sessions (.update id session)))
    (hcc : may {.sessions, .orders} .checkoutCompleted)
    (hp : ∀ a receipt, agent = some a →
      may {.audit, .sessions, .orders} (.pushReceipt receipt)) :
    Respects may ∅ (completeCheckout agent id now issuedAt) := by
  refine .locked (by simp) (.locked (by simp) ?_)
  rw [show insert Lock.sessions (insert Lock.orders ∅) = ({.sessions, .orders} : Set Lock) by simp]
  refine .bind (.perform hog) (fun order => ?_)
  cases order with
  | some order => exact .pure _
  | none =>
      refine .bind (.perform hsg) (fun session => .bind (.okOr _ _) (fun session => ?_))
      dsimp only
      split
      · exact .throw _
      · exact placeOrder_respects (by simp) (by simp) (fun a => hch a _) (hoc _) (hsu _) hcc
          (fun a => hp a _)

theorem cancelCheckout_respects {id : String} (hg : may {.sessions} (.sessions (.get id)))
    (hu : ∀ session, may {.sessions} (.sessions (.update id session))) :
    Respects may ∅ (cancelCheckout id) := by
  refine .locked (by simp) (.bind (.perform (by simpa using hg)) (fun _ => ?_))
  refine .bind (.okOr _ _) (fun session => ?_)
  dsimp only
  split
  · refine .bind (.mapErr _ _) (fun _ => .bind (.perform (by simpa using hu _)) (fun _ => ?_))
    exact .bind (.mapErr _ _) (fun _ => .pure _)
  · exact .pure _

theorem createConsent_respects {body : ConsentRequest} {now : Int64} (hid : may ∅ .fetchId)
    (hc : validatePositiveMinor body.spendLimitMinor "spend_limit_minor" = .ok () →
      ∀ id, may {.consents} (.consents (.create id (Consent.new id body.userId body.agentId
        ⟨body.spendLimitMinor, body.currency.getD .USD⟩ body.device now)))) :
    Respects may ∅ (createConsent body now) := by
  refine .mapErr_bind _ _ (fun _ hv => .bind (genId_respects hid _) (fun id => ?_))
  exact .bind (locked_perform_respects (by simp) (by simpa using hc hv id))
    (fun _ => .bind (.mapErr _ _) (fun _ => .pure _))

theorem debit_respects {confirm : Bool} {body : DebitRequest}
    (hg : may {.consents} (.consents (.get body.consentId)))
    (hu : ∀ consent, may {.consents} (.consents (.update body.consentId consent)))
    (hd : may {.consents} .reserveDebited) : Respects may ∅ (debit confirm body) := by
  refine .bind (.mapErr _ _) (fun _ => .locked (by simp) ?_)
  refine .bind (.perform (by simpa using hg)) (fun _ => .bind (.okOr _ _) (fun _ => ?_))
  refine .bind (.mapErr _ _) (fun _ => .bind (.perform (by simpa using hu _)) (fun _ => ?_))
  exact .bind (.mapErr _ _) (fun _ => .bind (.perform (by simpa using hd)) (fun _ => .pure _))

theorem orderPaymentLink_respects {id : String} {answer : Except RazorpayError String}
    (hg : may {.orders} (.orders (.get id)))
    (hp : ∀ request, may ∅ (.postPaymentLink request)) :
    Respects may ∅ (orderPaymentLink ext st id answer) := by
  refine .bind (locked_perform_respects (by simp) (by simpa using hg)) (fun _ => ?_)
  refine .bind (.okOr _ _) (fun order => ?_)
  dsimp only
  split
  · exact .throw _
  · refine .bind (.mapErr _ _) (fun _ => .bind (.adaptErr ?_) (fun _ => .pure _))
    exact .bind (.mapErr _ _) (fun _ => .bind (.perform (hp _)) (fun _ => .mapErr _ _))

theorem razorpayWebhook_respects {signature : Option String} {body : Bytes} {now : Int64}
    (hg : ∀ id, may {.orders} (.orders (.get id)))
    (hu : ∀ id order, may {.orders} (.orders (.update id order))) (hv : may ∅ .webhookVerified) :
    Respects may ∅ (razorpayWebhook ext st signature body now) := by
  refine .bind (.okOr _ _) (fun _ => .bind (.mapErr _ _) (fun _ => ?_))
  refine .bind (.adaptErr ?_) (fun _ => .bind (.perform hv) (fun _ => .pure _))
  refine .bind (.mapErr _ _) (fun _ => .bind (.mapErr _ _) (fun envelope => ?_))
  dsimp only
  split
  · exact .pure _
  · refine .bind (.okOr _ _) (fun _ => .locked (by simp) ?_)
    refine .bind (.perform (by simpa using hg _)) (fun _ => .bind (.okOr _ _) (fun order => ?_))
    cases order.paymentReference with
    | some existing => exact .pure _
    | none =>
        dsimp only
        split
        · exact .throw _
        · refine .bind (.mapErr _ _) (fun _ => .bind (.perform (by simpa using hu _ _)) (fun _ => ?_))
          exact .bind (.mapErr _ _) (fun _ => .pure _)

/-- What is left to a webhook request past its checks: the reconciliation of
the payment that its delivery reports. -/
theorem razorpayWebhook_ensures {P : Spec (app ext st)} {i : Name Request} {s : State}
    (hP : P.Harmless i (fun _ => True) may) (hv : may ∅ .webhookVerified)
    {signature : Option String} {body : Bytes} {now : Int64}
    (hr : ∀ text client key entity, signature = some text → razorpayForState ext st = .ok client →
      reported ext.crypto ext.readEnvelope client body text = .ok (some (key, entity)) →
        P.Ensures i (fun _ _ => True) (reconcilePayment key entity.id entity now) s) :
    P.Ensures i (fun _ _ => True) (razorpayWebhook ext st signature body now) s := by
  rw [razorpayWebhook, Spec.ensures_okOr_bind (P := P)]
  cases signature with
  | none => trivial
  | some text =>
      dsimp only
      rw [Spec.ensures_mapErr_bind (P := P)]
      cases hclient : razorpayForState ext st with
      | error e => trivial
      | ok client =>
          dsimp only
          rw [Spec.ensures_bind (P := P), Spec.ensures_adaptErr (P := P)]
          refine Spec.Ensures.mono (p := fun _ _ => True) (fun r u _ => ?_) ?_
          · cases r with
            | error e => trivial
            | ok outcome =>
                exact Spec.Ensures.perform_bind (H := ∅) hP hv trivial (by simp)
                  (fun _ _ _ _ _ _ => trivial)
          · specialize hr text client
            rw [reported] at hr
            rw [processPaymentWebhook, Spec.ensures_mapErr_bind (P := P)]
            cases hs : verifyWebhookSignature ext.crypto client body text with
            | error e => trivial
            | ok u =>
                dsimp only
                rw [Spec.ensures_mapErr_bind (P := P)]
                cases he : ext.readEnvelope body with
                | error e => trivial
                | ok envelope =>
                    dsimp only
                    split
                    · trivial
                    next hp =>
                      rw [Spec.ensures_okOr_bind (P := P)]
                      cases hk : envelope.payload.payment.entity.notes.lookup "order_id" with
                      | none => trivial
                      | some key =>
                          refine hr key _ rfl hclient ?_
                          simp only [hs, he, if_neg hp, hk]

theorem debitWrites_ensures {P : Spec (app ext st)} {i : Name Request} {body : DebitRequest}
    {consent : Consent} {remaining : Int64} {L : State → Prop}
    {post : Except ApiError DebitResponse → State → Prop} {s : State}
    (hlocks : P.locks = discipline ext st) (hL : P.Harmless i L may)
    (hd : may {.consents} .reserveDebited) (hh : s.held .consents = some i)
    (hc : s.data.consents.get body.consentId = some consent)
    (hu : ∀ s', P.Rely i s s' → P.inv s' →
      s'.data.consents.get body.consentId = some consent →
      P.Good s' (s'.perform Op.exec i
        (.consents (.update body.consentId (debited consent body.amountMinor)))) ∧
      L (s'.perform Op.exec i
        (.consents (.update body.consentId (debited consent body.amountMinor)))))
    (hok : ∀ u, L u → post (.ok ⟨body.consentId, remaining - body.amountMinor⟩) u) :
    P.Ensures i (fun x u => ∀ u', P.Rely i u u' → P.inv u' → u'.held Lock.consents = some i ∧
      P.inv (u'.release Lock.consents) ∧ post x (u'.release Lock.consents)) (do
        Fallible.mapErr (fun _ => .consentNotFound)
          (← perform (.consents (.update body.consentId (debited consent body.amountMinor))))
        perform .reserveDebited
        return ⟨body.consentId, remaining - body.amountMinor⟩) s := by
  rw [Spec.ensures_perform_bind (P := P)]
  intro s3 hr3 hi3 _
  have hh3 : s3.held .consents = some i := (hr3.held _).mpr hh
  have hsame := hr3.same .consents hh
  rw [hlocks] at hsame
  have hc3 : s3.data.consents.get body.consentId = some consent := by
    rw [hsame.1]
    exact hc
  obtain ⟨hg3, hl3⟩ := hu s3 hr3 hi3 hc3
  refine ⟨?_, hg3, ?_⟩
  · rw [hlocks]
    rintro l rfl
    exact hh3
  have hresp : ((app ext st).exec (Op.consents (.update body.consentId
      (debited consent body.amountMinor))) s3.data).1 = .ok () := by
    simp only [app, Op.exec, StoreOp.exec, InMemoryStore.update_of_some hc3, StoreOp.written]
  rw [hresp, Spec.ensures_mapErr_bind (P := P)]
  dsimp only
  rw [Spec.ensures_perform_bind (P := P)]
  intro s4 hr4 hi4 hallow4
  have hh4 : s4.held .consents = some i := (hr4.held _).mpr hh3
  obtain ⟨hn4, hg4, hl4⟩ := hL.perform {.consents} _ s4 hd
    (fun l hl => Set.mem_singleton_iff.mp hl ▸ hh4) hi4 (hL.stable _ s4 hr4 hl3) hallow4
  exact ⟨hn4, hg4, hL.unlock hok hh4 hl4⟩

/-- A debit knows `K` until it writes, and then `L`. What is left to prove of it
is the write itself, of the consent that its checks have passed. -/
theorem debit_ensures {P : Spec (app ext st)} {i : Name Request} {confirm : Bool}
    {body : DebitRequest} {K : State → Prop} {L : Consent → State → Prop}
    {post : Except ApiError DebitResponse → State → Prop} {s : State}
    (hlocks : P.locks = discipline ext st) (hK : P.Harmless i K may)
    (hL : ∀ consent, P.Harmless i (L consent) may)
    (hg : may {.consents} (.consents (.get body.consentId))) (hd : may {.consents} .reserveDebited)
    (hu : ∀ s s' consent remaining,
      validatePositiveMinor body.amountMinor "amount_minor" = .ok () →
      P.allow i (.consents (.get body.consentId)) s →
      s.data.consents.get body.consentId = some consent →
      checkDebit consent confirm body = .ok remaining → P.inv s' → K s' →
      s'.data.consents.get body.consentId = some consent →
      P.Good s' (s'.perform Op.exec i
        (.consents (.update body.consentId (debited consent body.amountMinor)))) ∧
      L consent (s'.perform Op.exec i
        (.consents (.update body.consentId (debited consent body.amountMinor)))))
    (herr : ∀ e u, K u → post (.error e) u)
    (hok : ∀ consent remaining u, checkDebit consent confirm body = .ok remaining → L consent u →
      post (.ok ⟨body.consentId, remaining - body.amountMinor⟩) u)
    (h0 : K s) : P.Ensures i post (debit confirm body) s := by
  rw [debit, Spec.ensures_mapErr_bind (P := P)]
  cases hv : validatePositiveMinor body.amountMinor "amount_minor" with
  | error e => exact herr _ s h0
  | ok _ =>
      dsimp only
      rw [Spec.ensures_locked (P := P)]
      intro s1 hr1 hi1
      have hk1 := hK.stable s s1 hr1 h0
      refine ⟨hK.waiting _ s1 hi1 hk1, fun hf => ?_⟩
      obtain ⟨hi1', hk1'⟩ := hK.acquire Lock.consents s1 hi1 hk1 hf
      refine ⟨hi1', ?_⟩
      rw [Spec.ensures_perform_bind (P := P)]
      intro s2 hr2 hi2 hallow
      have hh2 : s2.held .consents = some i := (hr2.held _).mpr (s1.acquire_held_self i _)
      obtain ⟨hn2, hg2, hk2⟩ := hK.perform {.consents} _ s2 hg
        (fun l hl => Set.mem_singleton_iff.mp hl ▸ hh2) hi2 (hK.stable _ s2 hr2 hk1') hallow
      refine ⟨hn2, hg2, ?_⟩
      rw [show ((app ext st).exec (Op.consents (.get body.consentId)) s2.data).1 =
        s2.data.consents.get body.consentId from rfl, Spec.ensures_okOr_bind (P := P)]
      cases hc : s2.data.consents.get body.consentId with
      | none => exact hK.unlock (herr _) hh2 hk2
      | some consent =>
          dsimp only
          rw [Spec.ensures_mapErr_bind (P := P)]
          cases hchk : checkDebit consent confirm body with
          | error e => exact hK.unlock (herr _) hh2 hk2
          | ok remaining =>
              refine debitWrites_ensures hlocks (hL consent) hd hh2 hc
                (fun s' hr hi hc' => ?_) (fun u hu => hok consent remaining u hchk hu)
              exact hu s2 s' consent remaining hv hallow hc hchk hi (hK.stable _ s' hr hk2) hc'

theorem completion_ensures {P : Spec (app ext st)} {i : Name Request} {K : State → Prop}
    {agent : Option String} {id : String} {now issuedAt : Int64} {s : State}
    (hP : P.Harmless i K may) (hog : may {.sessions, .orders} (.orders (.get (orderKey id))))
    (hsg : may {.sessions, .orders} (.sessions (.get id)))
    (hplace : ∀ d s' session, d.orders.get (orderKey id) = none → P.locks.same .orders d s'.data →
      P.inv s' → K (s'.perform Op.exec i (.sessions (.get id))) →
      (∀ l ∈ ({.sessions, .orders} : Set Lock), s'.held l = some i) →
      s'.data.sessions.get id = some session → P.allow i (.sessions (.get id)) s' →
      ¬ (session.status ≠ .paid ∧ session.status.isTerminal = true) →
      P.Ensures i (fun _ u => K u ∧ ∀ l ∈ ({.sessions, .orders} : Set Lock), u.held l = some i)
        (placeOrder agent id session now issuedAt) (s'.perform Op.exec i (.sessions (.get id))))
    (hK : K s) : P.Ensures i (fun _ u => K u) (completeCheckout agent id now issuedAt) s := by
  have hset : insert Lock.sessions (insert Lock.orders ∅) = ({.sessions, .orders} : Set Lock) := by
    simp
  refine (Spec.Ensures.locked_body hP (Set.notMem_empty Lock.orders) hK (by simp)
    (fun s1 _ hK1 hH1 => ?_)).mono (fun _ _ h => h.1)
  refine Spec.Ensures.locked_body hP (by simp) hK1 hH1 (fun s2 _ hK2 hH2 => ?_)
  rw [hset] at hH2 ⊢
  refine Spec.Ensures.perform_bind hP hog hK2 hH2 (fun s3 _ _ _ hH3 hK3 => ?_)
  cases hfound : ((app ext st).exec (Op.orders (.get (orderKey id))) s3.data).1 with
  | some order => exact ⟨hK3, hH3⟩
  | none =>
      dsimp only
      rw [Spec.ensures_perform_bind (P := P)]
      intro s4 hr4 hi4 hallow
      have hH4 : ∀ l ∈ ({.sessions, .orders} : Set Lock), s4.held l = some i :=
        fun l hl => (hr4.held l).mpr (hH3 l hl)
      obtain ⟨hn4, hg4, hK4⟩ := hP.perform _ _ s4 hsg hH4 hi4 (hP.stable _ s4 hr4 hK3) hallow
      refine ⟨hn4, hg4, ?_⟩
      rw [show ((app ext st).exec (Op.sessions (.get id)) s4.data).1 = s4.data.sessions.get id from
        rfl, Spec.ensures_okOr_bind (P := P)]
      cases hs : s4.data.sessions.get id with
      | none => exact ⟨hK4, hH4⟩
      | some session =>
          dsimp only
          split
          · exact ⟨hK4, hH4⟩
          next hopen =>
            exact hplace _ s4 session hfound (hr4.same .orders (hH3 _ (by simp))) hi4 hK4 hH4 hs hallow
              hopen

theorem completeCheckout_ensures {P : Spec (app ext st)} {i : Name Request} {K : State → Prop}
    {agent : Option String} {id : String} {now issuedAt : Int64} {s : State}
    (hP : P.Harmless i K may) (hog : may {.sessions, .orders} (.orders (.get (orderKey id))))
    (hsg : may {.sessions, .orders} (.sessions (.get id)))
    (hplace : ∀ s' session, P.inv s' → K (s'.perform Op.exec i (.sessions (.get id))) →
      (∀ l ∈ ({.sessions, .orders} : Set Lock), s'.held l = some i) →
      s'.data.sessions.get id = some session → P.allow i (.sessions (.get id)) s' →
      ¬ (session.status ≠ .paid ∧ session.status.isTerminal = true) →
      P.Ensures i (fun _ u => K u ∧ ∀ l ∈ ({.sessions, .orders} : Set Lock), u.held l = some i)
        (placeOrder agent id session now issuedAt) (s'.perform Op.exec i (.sessions (.get id))))
    (hK : K s) : P.Ensures i (fun _ u => K u) (completeCheckout agent id now issuedAt) s :=
  completion_ensures hP hog hsg (fun _ s' session _ _ => hplace s' session) hK

theorem cancelCheckout_ensures {P : Spec (app ext st)} {i : Name Request} {K : State → Prop}
    {id : String} {s : State} (hP : P.Harmless i K may)
    (hg : may {.sessions} (.sessions (.get id)))
    (hwrite : ∀ s' session (m : Handler ApiError CheckoutSession), P.inv s' → K (s'.perform Op.exec i (.sessions (.get id))) →
      (∀ l ∈ ({.sessions} : Set Lock), s'.held l = some i) →
      s'.data.sessions.get id = some session →
      Respects (fun (H : Set Lock) (o : Op) => H = {.sessions} ∧
        o = .sessions (.update id { session with status := .cancelled })) {.sessions} m →
      P.Ensures i (fun _ u => K u ∧ ∀ l ∈ ({.sessions} : Set Lock), u.held l = some i) m
        (s'.perform Op.exec i (.sessions (.get id))))
    (hK : K s) : P.Ensures i (fun _ u => K u) (cancelCheckout id) s := by
  refine (Spec.Ensures.locked_body hP (Set.notMem_empty Lock.sessions) hK (by simp)
    (fun s1 _ hK1 hH1 => ?_)).mono (fun _ _ h => h.1)
  rw [show insert Lock.sessions ∅ = ({.sessions} : Set Lock) by simp] at hH1 ⊢
  refine Spec.Ensures.perform_bind hP hg hK1 hH1 (fun s2 _ hi2 _ hH2 hK2 => ?_)
  rw [show ((app ext st).exec (Op.sessions (.get id)) s2.data).1 = s2.data.sessions.get id from
    rfl, Spec.ensures_okOr_bind (P := P)]
  cases hs : s2.data.sessions.get id with
  | none => exact ⟨hK2, hH2⟩
  | some session =>
      refine hwrite s2 session _ hi2 hK2 hH2 hs ?_
      dsimp only
      split
      · refine .mapErr_bind _ _ (fun session' hc => ?_)
        obtain ⟨-, rfl⟩ := CheckoutSession.applyEvent_ok hc
        exact .bind (.perform ⟨rfl, rfl⟩) (fun _ => .bind (.mapErr _ _) (fun _ => .pure _))
      · exact .pure _

theorem reconcilePayment_ensures {P : Spec (app ext st)} {i : Name Request} {K : State → Prop}
    {orderId paymentId : String} {payment : WebhookPaymentEntity} {now : Int64} {s : State}
    (hP : P.Harmless i K may) (hg : may {.orders} (.orders (.get orderId)))
    (hwrite : ∀ s' order (m : Handler WebhookError WebhookOutcome), P.inv s' →
      (∀ l ∈ ({.orders} : Set Lock), s'.held l = some i) →
      s'.data.orders.get orderId = some order →
      Respects (fun (H : Set Lock) (o : Op) => H = {.orders} ∧ Settles payment order ∧
        ∃ confirmed, order.applyEvent .confirm now = .ok confirmed ∧
          o = .orders (.update orderId { confirmed with paymentReference := some paymentId }))
        {.orders} m →
      P.Ensures i (fun _ u => K u ∧ ∀ l ∈ ({.orders} : Set Lock), u.held l = some i) m
        (s'.perform Op.exec i (.orders (.get orderId))))
    (hK : K s) :
    P.Ensures i (fun _ u => K u) (reconcilePayment orderId paymentId payment now) s := by
  refine (Spec.Ensures.locked_body hP (Set.notMem_empty Lock.orders) hK (by simp)
    (fun s1 _ hK1 hH1 => ?_)).mono (fun _ _ h => h.1)
  rw [show insert Lock.orders ∅ = ({.orders} : Set Lock) by simp] at hH1 ⊢
  refine Spec.Ensures.perform_bind hP hg hK1 hH1 (fun s2 _ hi2 _ hH2 hK2 => ?_)
  rw [show ((app ext st).exec (Op.orders (.get orderId)) s2.data).1 = s2.data.orders.get orderId
    from rfl, Spec.ensures_okOr_bind (P := P)]
  cases ho : s2.data.orders.get orderId with
  | none => exact ⟨hK2, hH2⟩
  | some order =>
      refine hwrite s2 order _ hi2 hH2 ho ?_
      cases order.paymentReference with
      | some existing => exact .pure _
      | none =>
          dsimp only
          split
          · exact .throw _
          next hset =>
            refine .mapErr_bind _ _ (fun confirmed hc => ?_)
            refine .bind (.perform ⟨rfl, settles_iff.mpr hset, confirmed, hc, rfl⟩) (fun _ => ?_)
            exact .bind (.mapErr _ _) (fun _ => .pure _)

theorem replyTo_respects {α : Type} {f : Except ε α → Reply} {m : Handler ε α}
    (h : Respects may ∅ m) : (replyTo f m).Respects may ∅ ∅ :=
  Prog.Respects.bind h (fun _ => rfl)

/-- Each request keeps to its own operations, and performs each of them under
the locks that protect it. -/
theorem handler_respects (ext : Platform) (st : AppState) (q : Request) :
    (handler ext st q).Respects q.may ∅ ∅ := by
  obtain ⟨agent, call⟩ := q
  cases call with
  | createCart body =>
      refine replyTo_respects (createCart_respects ?_ ?_) <;>
        simp [Request.may, Request.performs, Op.need]
  | getCart id =>
      refine replyTo_respects (getCart_respects ?_ ?_) <;>
        simp [Request.may, Request.performs, Op.need]
  | updateCart id items =>
      refine replyTo_respects (updateCart_respects ?_ ?_ ?_) <;>
        simp [Request.may, Request.performs, Op.need]
  | cancelCart id =>
      refine replyTo_respects (cancelCart_respects ?_ ?_) <;>
        simp [Request.may, Request.performs, Op.need]
  | createCheckoutSession body now =>
      refine replyTo_respects (createCheckoutSession_respects ?_ ?_ ?_ ?_) <;>
        simp [Request.may, Request.performs, Op.need]
  | completeCheckout id now issuedAt =>
      refine replyTo_respects (completeCheckout_respects ?_ ?_ ?_ ?_ ?_ ?_ ?_) <;>
        simp +contextual [Request.may, Request.performs, Op.need]
  | cancelCheckout id =>
      refine replyTo_respects (cancelCheckout_respects ?_ ?_) <;>
        simp [Request.may, Request.performs, Op.need]
  | createConsent body now =>
      refine replyTo_respects (createConsent_respects ?_ ?_) <;>
        simp [Request.may, Request.performs, Op.need]
  | debit confirm body =>
      refine replyTo_respects (debit_respects ?_ ?_ ?_) <;>
        simp [Request.may, Request.performs, Op.need]
  | orderPaymentLink id answer =>
      refine replyTo_respects (orderPaymentLink_respects ?_ ?_) <;>
        simp [Request.may, Request.performs, Op.need]
  | razorpayWebhook signature body now =>
      refine replyTo_respects (razorpayWebhook_respects ?_ ?_ ?_) <;>
        simp [Request.may, Request.performs, Op.need]
  | registerAgent identity spendLimit =>
      refine Prog.Respects.locked (by simp) ⟨?_, fun _ => rfl⟩
      simp [Request.may, Request.performs, Op.need]

theorem handler_all (ext : Platform) (st : AppState) (q : Request) :
    (handler ext st q).All q.performs :=
  (handler_respects ext st q).all (fun _ _ ho => ho.1)

/-- A request, run alone, leaves as it is what none of its operations change. -/
theorem handler_frame (ext : Platform) (st : AppState) (q : Request) {α : Type} {part : Data → α}
    (h : ∀ o, q.performs o → ∀ d, part (o.exec d).2 = part d) (d : Data) :
    part ((handler ext st q).run Op.exec d).2 = part d :=
  Prog.run_frame h (handler_all ext st q) d

end AiterCommerce.Server
