import AiterCommerce.Guarantees.DemoRequests

namespace AiterCommerce.Guarantees.DemoStore

open AiterCommerce.Core Concurrent Server
open SignedGate (Fresh)

section Catalog

theorem find_of_mem {items : List Product} (h : (items.map Product.id).Nodup) {p : Product}
    (hp : p ∈ items) : items.find? (fun item => item.id = p.id) = some p := by
  induction items with
  | nil => cases hp
  | cons item items ih =>
      rw [List.map_cons, List.nodup_cons] at h
      rcases List.mem_cons.mp hp with rfl | hp
      · rw [List.find?_cons_of_pos (by simp)]
      · have hne : item.id ≠ p.id := fun he => h.1 (he ▸ List.mem_map_of_mem hp)
        rw [List.find?_cons_of_neg (by simpa using hne)]
        exact ih h.2 hp

theorem find_mem_take {items : List Product} (h : (items.map Product.id).Nodup) {p p' : Product}
    (hp : p ∈ items) {n : Nat}
    (hf : (items.take n).find? (fun item => item.id = p.id) = some p') : p ∈ items.take n := by
  have hid : p'.id = p.id := by simpa using List.find?_some hf
  have hmem : p' ∈ items.take n := List.mem_of_find?_eq_some hf
  have hsame : p' = p := by
    have h1 := find_of_mem h (List.mem_of_mem_take hmem)
    rw [hid, find_of_mem h hp] at h1
    exact (Option.some.inj h1).symm
  exact hsame ▸ hmem

variable {products : List Product} {razorpay : Option RazorpaySettings}

theorem perm_new : (AppState.new products razorpay).products.Perm products :=
  List.mergeSort_perm _ _

theorem nodup_new (h : (products.map Product.id).Nodup) :
    ((AppState.new products razorpay).products.map Product.id).Nodup :=
  (perm_new.map Product.id).nodup_iff.mpr h

theorem priceOf_new (h : (products.map Product.id).Nodup) {p : Product} (hp : p ∈ products) :
    (AppState.new products razorpay).priceOf p.id = some p.price := by
  rw [AppState.priceOf, find_of_mem (nodup_new h) (perm_new.mem_iff.mpr hp), Option.map_some]

theorem validate_line (h : (products.map Product.id).Nodup) {p : Product} (hp : p ∈ products)
    (qty : UInt32) : validateCatalogItems (AppState.new products razorpay) .USD [⟨p.id, qty⟩] =
      if p.price.currency ≠ .USD then .error (.currencyMismatch p.id .USD p.price.currency)
      else .ok () := by
  rw [validateCatalogItems, priceOf_new h hp]
  rfl

theorem fillCart_line {id : String} {qty : UInt32} (hq : 1 ≤ qty) :
    fillCart .USD [⟨id, qty⟩] = ⟨.USD, [⟨id, qty⟩]⟩ := by
  have hne : qty ≠ 0 := by
    rintro rfl
    exact absurd hq (by decide)
  simp [fillCart, Cart.update, hne, Cart.new, Cart.find]

theorem valid_new (h : ∀ p ∈ products, p.validate = .ok ()) :
    (AppState.new products razorpay).Valid :=
  fun p hp => h p (perm_new.mem_iff.mp hp)

theorem computeTotals_line (hids : (products.map Product.id).Nodup)
    (hvalid : ∀ p ∈ products, p.validate = .ok ()) {p : Product} (hp : p ∈ products)
    (hc : p.price.currency = .USD) {qty : UInt32}
    (hcap : p.price.units.toInt * qty.toNat ≤ demoAgentCap.toInt) :
    ∃ totals, computeTotals ⟨.USD, [⟨p.id, qty⟩]⟩ (AppState.new products razorpay).priceOf noTax =
        .ok totals ∧ totals.total.currency = .USD ∧
      totals.total.units.toInt = p.price.units.toInt * qty.toNat := by
  have hprice := @priceOf_new products razorpay hids p hp
  have hpriced : PricedIn (AppState.new products razorpay).priceOf .USD [⟨p.id, qty⟩] := by
    intro li hli
    obtain rfl := List.mem_singleton.mp hli
    exact ⟨p.price, hprice, hc⟩
  have hexact : exactSubtotal (AppState.new products razorpay).priceOf [⟨p.id, qty⟩] =
      p.price.units.toInt * qty.toNat := by
    simp [exactSubtotal, hprice]
  have hfits : exactSubtotal (AppState.new products razorpay).priceOf [⟨p.id, qty⟩] < 2 ^ 63 := by
    have hcapped : demoAgentCap.toInt = 1000000000 := by decide
    rw [hexact]
    omega
  obtain ⟨totals, ht⟩ := (@computeTotals_isOk_iff (AppState.new products razorpay).priceOf
    (fun _ _ h => AppState.priceOf_nonneg (valid_new hvalid) h) ⟨.USD, [⟨p.id, qty⟩]⟩ hpriced).mpr
      hfits
  obtain ⟨-, -, hcur, -, hunits⟩ := computeTotals_noTax_ok ht
  exact ⟨totals, ht, hcur, hunits.trans hexact⟩

end Catalog

section Run

variable {lib : Libraries} {st : AppState} {d : ServerData} {id : String} {qty : UInt32}
  {v : Visits}

structure Understood (lib : Libraries) (id : String) (qty : UInt32) (v : Visits) : Prop where
  verifies : Verifies lib.crypto
  query : lib.listParams (getRequest "/catalog/products") = .ok .none
  cartEnvelope : ReadsBack lib "/carts" (cartJson id qty) v.cart
  cart : lib.cartBody (signedHttp lib "/carts" (cartJson id qty) v.cart) =
    .ok ⟨some .USD, [⟨id, qty⟩]⟩
  sessionEnvelope : ReadsBack lib "/checkout_sessions" (sessionJson "cart-0") v.session
  session : lib.sessionBody (signedHttp lib "/checkout_sessions" (sessionJson "cart-0") v.session) =
    .ok ⟨"cart-0", none⟩
  completeEnvelope : ReadsBack lib (completePath "cs-1") emptyJson v.complete
  segment : lib.segment "cs-1" = .ok "cs-1"

/-- The clocks are close enough at each write up to the order. -/
structure OnTime (v : Visits) : Prop where
  cart : Punctual v.cart
  session : Punctual v.session
  complete : Punctual v.complete

theorem Understood.cart_signable (h : Understood lib id qty v) (ht : OnTime v) :
    Signable lib "/carts" (cartJson id qty) v.cart :=
  ⟨h.verifies, by decide, h.cartEnvelope, ht.cart⟩

theorem Understood.session_signable (h : Understood lib id qty v) (ht : OnTime v) :
    Signable lib "/checkout_sessions" (sessionJson "cart-0") v.session :=
  ⟨h.verifies, by decide, h.sessionEnvelope, ht.session⟩

theorem Understood.complete_signable (h : Understood lib id qty v) (ht : OnTime v) :
    Signable lib (completePath "cs-1") emptyJson v.complete :=
  ⟨h.verifies, by decide, h.completeEnvelope, ht.complete⟩

theorem Understood.feed_route (h : Understood lib id qty v) (r : Readings) :
    route lib (getRequest "/catalog/products") r = .listProducts .none := by
  have hp : matchPath (segments (getRequest "/catalog/products").uri) = some .products := by decide
  rw [route_of_path hp]
  refine (MethodRouter.call_ofGet _).trans ?_
  rw [h.query]
  rfl

theorem Understood.cart_route (h : Understood lib id qty v) (r : Readings) :
    route lib (signedHttp lib "/carts" (cartJson id qty) v.cart) r =
      .handler (.createCart ⟨some .USD, [⟨id, qty⟩]⟩) := by
  have hp : matchPath (segments ⟨none, none, some "/carts"⟩) = some .carts := by decide
  rw [route_of_path hp]
  refine (MethodRouter.call_ofPost _).trans ?_
  rw [h.cart]
  rfl

theorem Understood.session_route (h : Understood lib id qty v) (r : Readings) :
    route lib (signedHttp lib "/checkout_sessions" (sessionJson "cart-0") v.session) r =
      .handler (.createCheckoutSession ⟨"cart-0", none⟩ r.now) := by
  have hp : matchPath (segments ⟨none, none, some "/checkout_sessions"⟩) =
      some .checkoutSessions := by
    decide
  rw [route_of_path hp]
  refine (MethodRouter.call_ofPost _).trans ?_
  rw [h.session]
  rfl

theorem Understood.complete_route (h : Understood lib id qty v) (r : Readings) :
    route lib (signedHttp lib (completePath "cs-1") emptyJson v.complete) r =
      .handler (.completeCheckout "cs-1" r.now r.issuedAt) := by
  have hp : matchPath (segments ⟨none, none, some (completePath "cs-1")⟩) =
      some (.completeCheckout "cs-1") := by
    decide
  rw [route_of_path hp]
  refine (MethodRouter.call_ofPost _).trans ?_
  rw [h.segment]
  rfl

theorem discover_run (h : Understood lib id qty v) {writes reads : UInt32}
    (hreads : 1 ≤ reads.toNat) :
    ∃ d, d.data = Data.new lib.crypto ∧ d.writeLimiter = .new writes ∧
      (discover lib st (some id) v.feed).run (.new lib.crypto writes reads) =
        (match (st.products.take 25).find? (fun item => item.id = id) with
          | some chosen => .ok chosen.id
          | none => .error (.unknownProduct id), d) := by
  obtain ⟨hadmitted, -, -⟩ := RateLimiter.check_of_used
    (RateLimiter.used_new reads (readKey v.feed.peer [])) hreads v.feed.readings.hitAt
  refine ⟨⟨_, _, ((RateLimiter.new reads).check (readKey v.feed.peer []) v.feed.readings.hitAt).2⟩,
    rfl, rfl, ?_⟩
  have hserve : (serveHttp lib st (getRequest "/catalog/products") v.feed.peer
      v.feed.readings).run ServerData.exec (.new lib.crypto writes reads) =
        (.feed (listProducts lib.toLowercase st .none), ⟨.new lib.crypto, .new writes,
          ((RateLimiter.new reads).check (readKey v.feed.peer []) v.feed.readings.hitAt).2⟩) := by
    rw [serveHttp, h.feed_route]
    dsimp only [Endpoint.tier]
    exact Service.run_limitReads hadmitted
  rw [discover, Client.run_bind, getJson, run_send_ok hserve rfl]
  dsimp only [Response.items]
  rw [listProducts_none]
  cases (st.products.take 25).find? (fun item => item.id = id) <;> rfl

theorem registered_new (crypto : Crypto) :
    Registered crypto (Data.new crypto) (Amount.zero .USD) :=
  AgentRegistry.get_register .empty (demoAgent crypto) ⟨demoAgentCap, .USD⟩ _

theorem left_new {writes : UInt32} {n : Nat} (hw : n ≤ writes.toNat)
    (hd : d.writeLimiter = .new writes) : Left d n := by
  refine ⟨0, ?_, ?_⟩
  · rw [hd]
    exact RateLimiter.used_new writes _
  · rw [hd, Nat.zero_add]
    exact hw

def withCart (crypto : Crypto) (cart : Cart) : Data :=
  { Data.new crypto with nextId := 1, carts := InMemoryStore.new.insert "cart-0" cart }

def withSession (crypto : Crypto) (cart : Cart) (session : CheckoutSession) : Data :=
  { withCart crypto cart with nextId := 2, sessions := InMemoryStore.new.insert "cs-1" session }

theorem registered_withCart (crypto : Crypto) (cart : Cart) :
    Registered crypto (withCart crypto cart) (Amount.zero .USD) :=
  registered_new crypto

theorem registered_withSession (crypto : Crypto) (cart : Cart) (session : CheckoutSession) :
    Registered crypto (withSession crypto cart session) (Amount.zero .USD) :=
  registered_new crypto

variable {n : Nat}

theorem postCart_run (h : Understood lib id qty v) (ht : OnTime v) (hd : d.data = .new lib.crypto)
    (hleft : Left d (n + 1)) (hshort : ¬ maxBodyBytes < (utf8 (cartJson id qty)).length)
    (hv : validateCatalogItems st .USD [⟨id, qty⟩] = .ok ()) :
    ∃ d', d'.data = withCart lib.crypto (fillCart .USD [⟨id, qty⟩]) ∧ Left d' n ∧
      (postSigned lib st "/carts" (cartJson id qty) v.cart).run d =
        (.ok (.reply (.cart (.ok (cartResponse st "cart-0" (fillCart .USD [⟨id, qty⟩]) false)))),
          d') := by
  obtain ⟨data, writeLimiter, readLimiter⟩ := d
  subst hd
  have hid : "cart-" ++ toString (Data.new lib.crypto).nextId.toNat = "cart-0" := by
    change "cart-" ++ toString (0 : UInt64).toNat = "cart-0"
    decide
  have hcreate := @createCart_run st (.new lib.crypto) ⟨some .USD, [⟨id, qty⟩]⟩ hv rfl
  rw [hid] at hcreate
  have hrun := run_replyTo .cart (createCart st ⟨some .USD, [⟨id, qty⟩]⟩) (.new lib.crypto)
  rw [hcreate] at hrun
  exact postSigned_run (h.cart_signable ht) (registered_new lib.crypto) hleft
    (h.cart_route v.cart.readings) rfl hshort hrun

theorem postCart_refused (h : Understood lib id qty v) (ht : OnTime v)
    (hd : d.data = .new lib.crypto) (hleft : Left d (n + 1))
    (hshort : ¬ maxBodyBytes < (utf8 (cartJson id qty)).length) {currency : Currency}
    (hv : validateCatalogItems st .USD [⟨id, qty⟩] =
      .error (.currencyMismatch id .USD currency)) :
    ((postSigned lib st "/carts" (cartJson id qty) v.cart).run d).1 = .error (.http 400) := by
  obtain ⟨data, writeLimiter, readLimiter⟩ := d
  subst hd
  have hcreate := @createCart_run_refused st (.new lib.crypto) ⟨some .USD, [⟨id, qty⟩]⟩ _ hv
  have hrun := run_replyTo .cart (createCart st ⟨some .USD, [⟨id, qty⟩]⟩) (.new lib.crypto)
  rw [hcreate] at hrun
  obtain ⟨d', -, -, hpost⟩ := postSigned_run (h.cart_signable ht) (registered_new lib.crypto) hleft
    (h.cart_route v.cart.readings) rfl hshort hrun
  rw [hpost]
  rfl

theorem postSession_run (h : Understood lib id qty v) (ht : OnTime v) {cart : Cart}
    {totals : Totals} (hd : d.data = withCart lib.crypto cart) (hleft : Left d (n + 1))
    (htotals : computeTotals cart st.priceOf noTax = .ok totals) :
    ∃ d' session, session.id = "cs-1" ∧ session.status = .pending ∧ session.totals = totals ∧
      d'.data = withSession lib.crypto cart session ∧ Left d' n ∧
      (postSigned lib st "/checkout_sessions" (sessionJson "cart-0") v.session).run d =
        (.ok (.reply (.session (.ok session))), d') := by
  obtain ⟨data, writeLimiter, readLimiter⟩ := d
  subst hd
  have hid : "cs-" ++ toString (withCart lib.crypto cart).nextId.toNat = "cs-1" := by
    change "cs-" ++ toString (1 : UInt64).toNat = "cs-1"
    decide
  have hcreate := @createCheckoutSession_run v.session.readings.now (withCart lib.crypto cart) st
    ⟨"cart-0", none⟩ _ _ (InMemoryStore.get_insert_self _ _ _) (Finset.notMem_empty _) htotals rfl
  rw [hid] at hcreate
  have hrun := run_replyTo .session
    (createCheckoutSession st ⟨"cart-0", none⟩ v.session.readings.now) (withCart lib.crypto cart)
  rw [hcreate] at hrun
  obtain ⟨d', hdata, hleft', hpost⟩ := postSigned_run (h.session_signable ht)
    (registered_withCart lib.crypto cart) hleft (h.session_route v.session.readings) rfl
    (by decide) hrun
  exact ⟨d', _, rfl, rfl, rfl, hdata, hleft', hpost⟩

theorem charge_registered {crypto : Crypto} {data : Data}
    (hreg : Registered crypto data (Amount.zero .USD)) {amount : Amount}
    (hc : amount.currency = .USD) (hcap : amount.units.toInt ≤ demoAgentCap.toInt) :
    charge (some demoAgentId) amount data.agents =
      (.ok (), data.agents.setSpent demoAgentId amount.units) := by
  have hreg' : data.agents.get demoAgentId = _ := hreg
  have hzero : (Amount.zero .USD).units + amount.units = amount.units := Int64.zero_add _
  have hunits : ¬ demoAgentCap < amount.units := by
    rw [Int64.lt_iff_toInt_lt]
    omega
  rw [charge, AgentRegistry.chargeAgent, hreg']
  dsimp only
  rw [if_neg (not_not.mpr hc.symm), hzero, if_neg hunits]

theorem postComplete_run (h : Understood lib id qty v) (ht : OnTime v) {cart : Cart}
    {session : CheckoutSession} (hpending : session.status = .pending)
    (hd : d.data = withSession lib.crypto cart session) (hleft : Left d (n + 1))
    (hc : session.totals.total.currency = .USD)
    (hcap : session.totals.total.units.toInt ≤ demoAgentCap.toInt) :
    ∃ d' order, order.id = "ord-cs-1" ∧ order.totals = session.totals ∧
      d'.data.orders.get "ord-cs-1" = some order ∧
      (postSigned lib st (completePath "cs-1") emptyJson v.complete).run d =
        (.ok (.reply (.order (.ok order))), d') := by
  obtain ⟨data, writeLimiter, readLimiter⟩ := d
  subst hd
  have hreg := registered_withSession lib.crypto cart session
  have hstored : (withSession lib.crypto cart session).sessions.get "cs-1" = some session :=
    InMemoryStore.get_insert_self _ _ _
  have hnone : (withSession lib.crypto cart session).orders.get (orderKey "cs-1") = none := rfl
  have hopen : ¬ (session.status ≠ .paid ∧ session.status.isTerminal = true) := by
    rw [hpending]
    decide
  have hcomplete := @completeCheckout_run (some demoAgentId) "cs-1" v.complete.readings.now
    v.complete.readings.issuedAt (withSession lib.crypto cart session)
  rw [hnone, hstored] at hcomplete
  dsimp only at hcomplete
  rw [if_neg hopen, placeOrder_run_charged (charge_registered hreg hc hcap) hnone
    (by rw [hstored]; rfl) hopen] at hcomplete
  have hrun := run_replyTo .order (completeCheckout (some demoAgentId) "cs-1"
    v.complete.readings.now v.complete.readings.issuedAt) (withSession lib.crypto cart session)
  rw [hcomplete] at hrun
  obtain ⟨d', hdata, -, hpost⟩ := postSigned_run (h.complete_signable ht) hreg hleft
    (h.complete_route v.complete.readings) rfl (by decide) hrun
  refine ⟨d', _, rfl, rfl, ?_, hpost⟩
  rw [hdata]
  exact InMemoryStore.get_insert_self _ _ _

end Run

section Flow

variable {lib : Libraries} {st : AppState} {d : ServerData} {v : Visits}

def Knowing {α : Type} (m : Client α) : Prop :=
  ∀ d id, (m.run d).1 ≠ .error (.unknownProduct id)

theorem Knowing.bind {α β : Type} {m : Client α} {f : α → Client β} (hm : Knowing m)
    (hf : ∀ a, Knowing (f a)) : Knowing (m >>= f) := by
  intro d id
  rw [Client.run_bind]
  have h := hm d id
  cases hr : m.run d with
  | mk r d' =>
      cases r with
      | ok a => exact hf a d' id
      | error e =>
          rw [hr] at h
          exact fun he => h (congrArg Except.error (Except.error.inj he))

theorem knowing_pure {α : Type} (a : α) : Knowing (pure a : Client α) := fun _ _ => by simp [Client.run]

theorem knowing_postSigned (path body : String) (w : Visit) :
    Knowing (postSigned lib st path body w) := by
  intro d id
  rw [postSigned, run_send rfl]
  dsimp only
  split <;> simp

theorem knowing_strField (value : Option String) (field what : String) :
    Knowing (strField value field what) := by
  intro d id
  cases value <;> exact fun h => by cases h

/-- An order for the price so many times, by a client that knows what it bought. -/
structure Buys (lib : Libraries) (st : AppState) (d : ServerData) (p : Product) (qty : UInt32)
    (v : Visits) : Prop where
  obtains : ∃ run d' order, (placed lib st (some p.id) qty v).run d = (.ok run, d') ∧
    run.answer = .reply (.order (.ok order)) ∧ d'.data.orders.get run.orderId = some order ∧
    order.totals.total.currency = p.price.currency ∧
    order.totals.total.units.toInt = p.price.units.toInt * qty.toNat
  knows : ∀ id, ((runFlow lib st (some p.id) qty v).run d).1 ≠ .error (.unknownProduct id)

theorem runFlow_known {productId : Option String} {qty : UInt32} {run : Placed} {d' : ServerData}
    (h : (placed lib st productId qty v).run d = (.ok run, d')) (id : String) :
    ((runFlow lib st productId qty v).run d).1 ≠ .error (.unknownProduct id) := by
  rw [runFlow, Client.run_bind, h]
  refine Knowing.bind (knowing_postSigned _ _ _) (fun _ => ?_) d' id
  exact Knowing.bind (knowing_strField _ _ _) (fun _ => knowing_pure _)

end Flow

section Store

variable {lib : Libraries} {products : List Product} {p : Product} {qty : UInt32} {v : Visits}
  {writes reads : UInt32}

/-- A product of a store with unique ids and products that pass their check, so often as the
demo agent can pay for. -/
structure Offered (products : List Product) (p : Product) (qty : UInt32) : Prop where
  distinct : (products.map Product.id).Nodup
  valid : ∀ p' ∈ products, p'.validate = .ok ()
  offered : p ∈ products
  positive : 1 ≤ qty
  affordable : p.price.units.toInt * qty.toNat ≤ demoAgentCap.toInt

def firstPage (products : List Product) : List Product :=
  (AppState.new products none).products.take 25

theorem Offered.find_firstPage (h : Offered products p qty) (hp : p ∈ firstPage products) :
    (firstPage products).find? (fun item => item.id = p.id) = some p := by
  apply find_of_mem _ hp
  exact (nodup_new h.distinct).sublist ((List.take_sublist _ _).map _)

theorem strField_run (s field what : String) (d : ServerData) :
    (strField (some s) field what).run d = (.ok s, d) := rfl

theorem buys (h : Offered products p qty) (hlib : Understood lib p.id qty v) (ht : OnTime v)
    (hw : 3 ≤ writes.toNat) (hr : 1 ≤ reads.toNat) (hc : p.price.currency = .USD)
    (hfirst : p ∈ firstPage products)
    (hshort : ¬ maxBodyBytes < (utf8 (cartJson p.id qty)).length) :
    Buys lib (.new products none) (.new lib.crypto writes reads) p qty v := by
  obtain ⟨totals, htotals, hcurrency, hunits⟩ :=
    @computeTotals_line products none h.distinct h.valid p h.offered hc qty h.affordable
  obtain ⟨d1, hd1, hleft1, hdiscover⟩ :=
    @discover_run lib (.new products none) p.id qty v hlib writes reads hr
  have hfind : ((AppState.new products none).products.take 25).find? _ = some p :=
    h.find_firstPage hfirst
  rw [hfind] at hdiscover
  have hv := @validate_line products none h.distinct p h.offered qty
  rw [if_neg (not_not.mpr hc)] at hv
  obtain ⟨d2, hd2, hleft2, hcart⟩ := postCart_run hlib ht hd1 (left_new hw hleft1) hshort hv
  rw [fillCart_line h.positive] at hd2
  obtain ⟨d3, session, hid, hpending, rfl, hd3, hleft3, hsession⟩ :=
    postSession_run hlib ht hd2 hleft2 htotals
  obtain ⟨d4, order, hkey, hordered, hstored, hcomplete⟩ :=
    postComplete_run hlib ht hpending hd3 hleft3 hcurrency (hunits ▸ h.affordable)
  have hplaced : (placed lib (.new products none) (some p.id) qty v).run
      (.new lib.crypto writes reads) =
        (.ok ⟨p.id, "cart-0", "cs-1", "ord-cs-1", .reply (.order (.ok order))⟩, d4) := by
    rw [placed, Client.run_bind, hdiscover]
    dsimp only
    rw [Client.run_bind, hcart]
    dsimp only [Response.id, cartResponse]
    rw [Client.run_bind, strField_run]
    dsimp only
    rw [Client.run_bind, hsession]
    dsimp only [Response.id]
    rw [hid, Client.run_bind, strField_run]
    dsimp only
    rw [Client.run_bind, hcomplete]
    dsimp only [Response.id]
    rw [hkey, Client.run_bind, strField_run]
    rfl
  refine ⟨⟨_, d4, order, hplaced, rfl, hstored, ?_, ?_⟩, runFlow_known hplaced⟩
  · rw [hordered, hcurrency, hc]
  · rw [hordered, hunits]

theorem not_buys_of_discover {st : AppState} {d d' : ServerData} {e : CliError}
    (h : (discover lib st (some p.id) v.feed).run d = (.error e, d')) :
    ¬ Buys lib st d p qty v := by
  rintro ⟨⟨run, d'', order, hplaced, -⟩, -⟩
  rw [placed, Client.run_bind, h] at hplaced
  cases hplaced

theorem not_buys_of_cart {st : AppState} {d d' : ServerData} {e : CliError}
    (h : (discover lib st (some p.id) v.feed).run d = (.ok p.id, d'))
    (hcart : ((postSigned lib st "/carts" (cartJson p.id qty) v.cart).run d').1 = .error e) :
    ¬ Buys lib st d p qty v := by
  rintro ⟨⟨run, d'', order, hplaced, -⟩, -⟩
  rw [placed, Client.run_bind, h] at hplaced
  dsimp only at hplaced
  rw [Client.run_bind] at hplaced
  cases hr : (postSigned lib st "/carts" (cartJson p.id qty) v.cart).run d' with
  | mk r d3 =>
      rw [hr] at hcart hplaced
      obtain rfl : r = .error e := hcart
      cases hplaced

theorem not_buys_unlisted (h : Offered products p qty) (hlib : Understood lib p.id qty v)
    (hr : 1 ≤ reads.toNat) (hfirst : p ∉ firstPage products) :
    ¬ Buys lib (.new products none) (.new lib.crypto writes reads) p qty v := by
  obtain ⟨d', -, -, hdiscover⟩ :=
    @discover_run lib (.new products none) p.id qty v hlib writes reads hr
  have hfind : ((AppState.new products none).products.take 25).find?
      (fun item => item.id = p.id) = none := by
    cases hf : ((AppState.new products none).products.take 25).find?
        (fun item => item.id = p.id) with
    | none => rfl
    | some p' =>
        have hmem := (@perm_new products none).mem_iff.mpr h.offered
        exact absurd (find_mem_take (nodup_new h.distinct) hmem hf) hfirst
  rw [hfind] at hdiscover
  exact not_buys_of_discover hdiscover

theorem not_buys_refused (h : Offered products p qty) (hlib : Understood lib p.id qty v)
    (ht : OnTime v) (hw : 3 ≤ writes.toNat) (hr : 1 ≤ reads.toNat) (hfirst : p ∈ firstPage products)
    (hcart : maxBodyBytes < (utf8 (cartJson p.id qty)).length ∨ p.price.currency ≠ .USD) :
    ¬ Buys lib (.new products none) (.new lib.crypto writes reads) p qty v := by
  obtain ⟨d1, hd1, hleft1, hdiscover⟩ :=
    @discover_run lib (.new products none) p.id qty v hlib writes reads hr
  have hfind : ((AppState.new products none).products.take 25).find? _ = some p :=
    h.find_firstPage hfirst
  rw [hfind] at hdiscover
  by_cases hlong : maxBodyBytes < (utf8 (cartJson p.id qty)).length
  · have hreg : Registered lib.crypto d1.data (Amount.zero .USD) := hd1 ▸ registered_new lib.crypto
    have ht' : (route lib (signedHttp lib "/carts" (cartJson p.id qty) v.cart)
        v.cart.readings).tier = .signed := by
      rw [hlib.cart_route]
      rfl
    apply not_buys_of_cart hdiscover
    rw [postSigned_tooLong (hlib.cart_signable ht) hreg ht' hlong]
  · have hc := hcart.resolve_left hlong
    have hv := @validate_line products none h.distinct p h.offered qty
    rw [if_pos hc] at hv
    apply not_buys_of_cart hdiscover
    exact postCart_refused hlib ht hd1 (left_new hw hleft1) hlong hv

/-- The demo buy goes through exactly in a store that prices in dollars, for a product on the
first page whose cart is not too large to send. -/
theorem demo_buy_iff (h : Offered products p qty) (hlib : Understood lib p.id qty v)
    (ht : OnTime v) (hw : 3 ≤ writes.toNat) (hr : 1 ≤ reads.toNat) :
    Buys lib (.new products none) (.new lib.crypto writes reads) p qty v ↔
      p.price.currency = .USD ∧ p ∈ firstPage products ∧
        (utf8 (cartJson p.id qty)).length ≤ maxBodyBytes := by
  constructor
  · intro hb
    have hfirst : p ∈ firstPage products := by
      by_contra hfirst
      exact not_buys_unlisted h hlib hr hfirst hb
    have hcart : ¬ (maxBodyBytes < (utf8 (cartJson p.id qty)).length ∨ p.price.currency ≠ .USD) :=
      fun hcart => not_buys_refused h hlib ht hw hr hfirst hcart hb
    obtain ⟨hshort, hc⟩ := not_or.mp hcart
    exact ⟨not_not.mp hc, hfirst, Nat.le_of_not_lt hshort⟩
  · rintro ⟨hc, hfirst, hshort⟩
    exact buys h hlib ht hw hr hc hfirst (Nat.not_lt.mpr hshort)

end Store

section Recordings

/-- A request of the demo agent, with the digest of its body and its signature as the real
libraries compute them. -/
structure Recorded where
  uri : String
  body : String
  digest : Bytes
  signature : Signature

def recordedAt : Int64 := 1700000000

def Recorded.message (r : Recorded) : Bytes :=
  utf8 (signingString "POST" r.uri recordedAt.toUInt64
    ("sha-256=:" ++ String.ofList (Encoding.Base64.encode r.digest) ++ ":") demoAgentId)

def mugCart : Recorded where
  uri := "/carts"
  body := cartJson "p-1" 2
  digest :=
    [187, 17, 67, 44, 170, 235, 81, 129, 47, 149, 64, 57, 204, 146, 214, 217, 185, 213, 70, 160, 15,
    147, 39, 239, 132, 134, 180, 53, 152, 18, 67, 75]
  signature := ⟨
    [32, 242, 179, 56, 161, 212, 134, 161, 131, 229, 27, 1, 234, 89, 24, 5, 185, 175, 244, 166, 69,
    30, 243, 166, 42, 163, 156, 233, 115, 1, 174, 93, 40, 101, 145, 89, 87, 95, 90, 71, 42, 76, 156,
    141, 184, 253, 236, 92, 239, 89, 51, 1, 160, 106, 193, 20, 130, 233, 47, 219, 181, 134, 21, 4], rfl⟩

def overshirtCart : Recorded where
  uri := "/carts"
  body := cartJson "indigo-overshirt" 1
  digest :=
    [212, 7, 74, 99, 169, 147, 58, 129, 203, 241, 105, 73, 204, 149, 47, 168, 65, 117, 74, 65, 4,
    255, 128, 253, 111, 23, 179, 54, 206, 170, 25, 188]
  signature := ⟨
    [111, 10, 119, 207, 60, 157, 58, 213, 77, 6, 93, 26, 157, 204, 56, 158, 195, 13, 120, 252, 253,
    11, 69, 105, 212, 48, 234, 250, 47, 136, 102, 40, 23, 160, 4, 227, 116, 178, 30, 169, 201, 8,
    241, 233, 145, 65, 118, 244, 255, 155, 151, 226, 61, 154, 242, 45, 104, 220, 140, 131, 155, 39,
    195, 2], rfl⟩

def firstSession : Recorded where
  uri := "/checkout_sessions"
  body := sessionJson "cart-0"
  digest :=
    [88, 246, 118, 164, 178, 114, 149, 227, 81, 102, 142, 226, 22, 214, 46, 179, 63, 3, 207, 23, 25,
    40, 103, 58, 46, 122, 191, 115, 153, 116, 21, 59]
  signature := ⟨
    [243, 39, 156, 192, 192, 70, 74, 39, 54, 247, 254, 55, 80, 83, 193, 178, 144, 145, 205, 222,
    194, 100, 60, 138, 251, 172, 243, 99, 249, 25, 15, 29, 211, 230, 128, 203, 6, 43, 12, 81, 208,
    211, 72, 109, 90, 193, 126, 67, 250, 197, 199, 236, 141, 17, 206, 240, 159, 230, 205, 243, 21,
    179, 244, 5], rfl⟩

def firstComplete : Recorded where
  uri := completePath "cs-1"
  body := emptyJson
  digest :=
    [68, 19, 111, 163, 85, 179, 103, 138, 17, 70, 173, 22, 247, 232, 100, 158, 148, 251, 79, 194,
    31, 231, 126, 131, 16, 192, 96, 246, 28, 170, 255, 138]
  signature := ⟨
    [26, 242, 101, 90, 197, 154, 92, 237, 162, 83, 253, 20, 208, 55, 55, 44, 6, 68, 142, 228, 2, 42,
    246, 196, 118, 145, 72, 250, 77, 49, 126, 6, 177, 76, 190, 141, 116, 167, 192, 254, 51, 71, 227,
    198, 30, 85, 141, 117, 53, 28, 43, 160, 95, 84, 167, 75, 220, 180, 68, 109, 18, 70, 167, 8], rfl⟩

def recorded : List Recorded := [mugCart, overshirtCart, firstSession, firstComplete]

theorem mugCart_mem : mugCart ∈ recorded := List.mem_cons_self

theorem overshirtCart_mem : overshirtCart ∈ recorded := List.mem_cons_of_mem _ List.mem_cons_self

theorem firstSession_mem : firstSession ∈ recorded := by simp [recorded]

theorem firstComplete_mem : firstComplete ∈ recorded := by simp [recorded]

def recordedDigest (body : Bytes) : Bytes :=
  ((recorded.find? (fun r => utf8 r.body = body)).map Recorded.digest).getD []

def recordedSign (demo : Bool) (message : Bytes) : Signature :=
  ((recorded.find? (fun r => demo && r.message = message)).map Recorded.signature).getD .zeros

def recordedCrypto : Crypto where
  sha256 := recordedDigest
  verifyingKey key := if key = ⟨demoAgentSeed⟩ then SignedGate.recordedPublicKey else ⟨[]⟩
  sign key message := recordedSign (key = ⟨demoAgentSeed⟩) message
  verify publicKey message signature :=
    decide (signature = recordedSign (publicKey = SignedGate.recordedPublicKey) message)
  hmacSha256 _ body := body

theorem recordedCrypto_verifies : Verifies recordedCrypto := by
  intro key message
  have hne : (⟨[]⟩ : VerifyingKey) ≠ SignedGate.recordedPublicKey := by decide
  by_cases hk : key = ⟨demoAgentSeed⟩ <;> simp [recordedCrypto, hk, hne]

def recordedReader : SignatureReader := fun json =>
  (recorded.map (fun r => demoSignature recordedCrypto r.uri r.body recordedAt)).find?
    (fun signature => signatureJson signature = json)

def recordedLibraries (id : String) (qty : UInt32) : Libraries :=
  { Libraries.bare with
    crypto := recordedCrypto
    readSignature := recordedReader
    cartBody := fun request =>
      if request.body = utf8 (cartJson id qty) then .ok ⟨some .USD, [⟨id, qty⟩]⟩
      else .error ⟨422, ""⟩
    sessionBody := fun request =>
      if request.body = utf8 (sessionJson "cart-0") then .ok ⟨"cart-0", none⟩
      else .error ⟨422, ""⟩
    listParams := fun _ => .ok .none }

def recordedVisit : Visit :=
  ⟨recordedAt, none, ⟨1700000000, 1700000000, recordedAt, recordedAt, .ok ""⟩⟩

def recordedVisits : Visits :=
  ⟨recordedVisit, recordedVisit, recordedVisit, recordedVisit, recordedVisit⟩

theorem recordedVisits_onTime : OnTime recordedVisits := by
  have h : Punctual recordedVisit := by
    change Fresh _ _
    decide
  exact ⟨h, h, h⟩

/-- Whatever is recorded is read as what it was written of, which its text determines. -/
theorem recordedReader_of_mem {r : Recorded} (h : r ∈ recorded) :
    recordedReader (signatureJson (demoSignature recordedCrypto r.uri r.body recordedAt)) =
      some (demoSignature recordedCrypto r.uri r.body recordedAt) := by
  have hmem := List.mem_map_of_mem (f := fun r =>
    demoSignature recordedCrypto r.uri r.body recordedAt) h
  rw [recordedReader]
  cases hf : (recorded.map (fun r => demoSignature recordedCrypto r.uri r.body recordedAt)).find?
      (fun signature => signatureJson signature =
        signatureJson (demoSignature recordedCrypto r.uri r.body recordedAt)) with
  | none => exact absurd (decide_eq_true rfl) (List.find?_eq_none.mp hf _ hmem)
  | some signature =>
      have hsame := List.find?_some hf
      exact congrArg some (signatureJson_injective (of_decide_eq_true hsame))

theorem readsBack_recorded {r : Recorded} (h : r ∈ recorded) (id : String) (qty : UInt32) :
    ReadsBack (recordedLibraries id qty) r.uri r.body recordedVisit := by
  dsimp only [ReadsBack, recordedLibraries]
  exact recordedReader_of_mem h

theorem understood_recorded {r : Recorded} (h : r ∈ recorded) {id : String} {qty : UInt32}
    (huri : r.uri = "/carts") (hbody : r.body = cartJson id qty) :
    Understood (recordedLibraries id qty) id qty recordedVisits where
  verifies := recordedCrypto_verifies
  query := rfl
  cartEnvelope := by
    have hread := readsBack_recorded h id qty
    rw [huri, hbody] at hread
    exact hread
  cart := by
    dsimp only [recordedLibraries]
    rw [signedHttp_body, if_pos rfl]
  sessionEnvelope := readsBack_recorded firstSession_mem id qty
  session := by
    dsimp only [recordedLibraries]
    rw [signedHttp_body, if_pos rfl]
  completeEnvelope := readsBack_recorded firstComplete_mem id qty
  segment := rfl

theorem offered_single {p : Product} {qty : UInt32} (hv : p.validate = .ok ()) (hq : 1 ≤ qty)
    (hcap : p.price.units.toInt * qty.toNat ≤ demoAgentCap.toInt) : Offered [p] p qty where
  distinct := List.nodup_singleton _
  valid _ hp' := List.mem_singleton.mp hp' ▸ hv
  offered := List.mem_singleton_self p
  positive := hq
  affordable := hcap

theorem firstPage_single (p : Product) : p ∈ firstPage [p] := by
  simp [firstPage, AppState.new]

def mug : Product := ⟨"p-1", "Mug", ⟨500, .USD⟩, "", [], none, 10, none⟩

theorem mug_understood : Understood (recordedLibraries "p-1" 2) "p-1" 2 recordedVisits :=
  understood_recorded mugCart_mem rfl rfl

def overshirt : Product :=
  ⟨"indigo-overshirt", "Indigo Overshirt", ⟨349900, .INR⟩,
    "Heavyweight cotton overshirt, garment dyed.", ["clothing", "winter"], none, 25, none⟩

theorem overshirt_understood :
    Understood (recordedLibraries "indigo-overshirt" 1) "indigo-overshirt" 1 recordedVisits :=
  understood_recorded overshirtCart_mem rfl rfl

end Recordings

theorem demo_buy_mug : Buys (recordedLibraries "p-1" 2) (.new [mug] none)
    (.new recordedCrypto defaultWritesPerMin defaultReadsPerMin) mug 2 recordedVisits :=
  (demo_buy_iff (offered_single (by decide) (by decide) (by decide)) mug_understood
    recordedVisits_onTime (by decide) (by decide)).mpr
      ⟨rfl, firstPage_single mug, by decide +kernel⟩

/-- The store of the deployment guide, priced in rupees, is not one the demo buy goes through
in: its cart is refused. -/
theorem overshirt_not_bought : ¬ ∀ (lib : Libraries) (products : List Product) (p : Product)
    (qty : UInt32) (v : Visits) (writes reads : UInt32), Offered products p qty →
    (∀ p' ∈ products, p'.price.currency = p.price.currency) → Understood lib p.id qty v →
    OnTime v → 3 ≤ writes.toNat → 1 ≤ reads.toNat →
      Buys lib (.new products none) (.new lib.crypto writes reads) p qty v := by
  intro h
  have hoffered : Offered [overshirt] overshirt 1 :=
    offered_single (by decide) (by decide) (by decide)
  have hone : ∀ p' ∈ [overshirt], p'.price.currency = overshirt.price.currency :=
    fun _ hp' => List.mem_singleton.mp hp' ▸ rfl
  have hbuys := h _ [overshirt] overshirt 1 recordedVisits 60 120 hoffered hone
    overshirt_understood recordedVisits_onTime (by decide) (by decide)
  exact not_buys_refused hoffered overshirt_understood recordedVisits_onTime (by decide) (by decide)
    (firstPage_single overshirt) (.inr (by decide)) hbuys

end AiterCommerce.Guarantees.DemoStore
