import AiterCommerce.Guarantees.Books

namespace AiterCommerce.Guarantees.Money

open AiterCommerce.Core Concurrent Server Books
open Spec (Ensures Harmless)

abbrev Past := List Happening

structure Same (x y : CheckoutSession) : Prop where
  cart : y.cart = x.cart
  currency : y.currency = x.currency
  totals : y.totals = x.totals

/-- Nothing that money depends on ever changes: flags stay set, and sessions and
orders keep what they were made with. -/
structure Later (a b : Data) : Prop where
  cancelled : a.cancelledCarts ⊆ b.cancelledCarts
  sessions : ∀ k x, a.sessions.get k = some x → ∃ y, b.sessions.get k = some y ∧ Same x y
  orders : ∀ key o, a.orders.get key = some o → ∃ o', b.orders.get key = some o' ∧
    o'.id = o.id ∧ o'.checkoutSessionId = o.checkoutSessionId ∧ o'.totals = o.totals

theorem Same.refl (x : CheckoutSession) : Same x x := ⟨rfl, rfl, rfl⟩

theorem Same.trans {x y z : CheckoutSession} (h : Same x y) (h' : Same y z) : Same x z :=
  ⟨h'.cart.trans h.cart, h'.currency.trans h.currency, h'.totals.trans h.totals⟩

theorem Later.refl (d : Data) : Later d d :=
  ⟨Finset.Subset.refl _, fun _ x h => ⟨x, h, .refl x⟩, fun _ o h => ⟨o, h, rfl, rfl, rfl⟩⟩

theorem Later.trans {a b c : Data} (h : Later a b) (h' : Later b c) : Later a c where
  cancelled := h.cancelled.trans h'.cancelled
  sessions k x hx := by
    obtain ⟨y, hy, hxy⟩ := h.sessions k x hx
    obtain ⟨z, hz, hyz⟩ := h'.sessions k y hy
    exact ⟨z, hz, hxy.trans hyz⟩
  orders key o ho := by
    obtain ⟨o', ho', hid, hk, ht⟩ := h.orders key o ho
    obtain ⟨o'', ho'', hid', hk', ht'⟩ := h'.orders key o' ho'
    exact ⟨o'', ho'', hid'.trans hid, hk'.trans hk, ht'.trans ht⟩

variable (ext : Platform) (st : AppState)

/-- The totals are those of the cart, at catalog prices in the currency of the
session and without tax. -/
structure Priced (x : CheckoutSession) : Prop where
  currency : x.cart.currency = x.currency
  lines : PricedIn st.priceOf x.currency x.cart.items
  tax : x.totals.tax = Amount.zero x.currency
  total : x.totals.total.currency = x.currency ∧
    x.totals.total.units.toInt = exactSubtotal st.priceOf x.cart.items

def FromCart (q : Request) (cart : Cart) (h : Past) : Prop :=
  ∃ body now, q.call = .createCheckoutSession body now ∧ ∃ e ∈ h,
    e.before.carts.get body.cartId = some cart ∧ body.cartId ∉ e.before.cancelledCarts

def Drawn (k : String) (cart : Cart) (h : Past) : Prop :=
  ∃ e ∈ h, (∃ x, e.op = .sessions (.create k x)) ∧ FromCart e.actor.request cart h

def Costs (d : Data) (k : String) (amount : Amount) : Prop :=
  ∃ x, d.sessions.get k = some x ∧ x.totals.total = amount

def PlacedFor (d : Data) (key : String) (o : Order) : Prop :=
  ∃ k x, key = orderKey k ∧ o.id = key ∧ o.checkoutSessionId = k ∧
    d.sessions.get k = some x ∧ o.totals = x.totals

def Sets (key reference : String) (e : Happening) : Prop :=
  ∃ o, e.op = .orders (.update key o) ∧ o.paymentReference = some reference

/-- The request is a verified delivery that reports a payment of the total. -/
def PaidBy (q : Request) (key : String) (total : Amount) (reference : String) : Prop :=
  ∃ signature body now client entity, q.call = .razorpayWebhook (some signature) body now ∧
    razorpayForState ext st = .ok client ∧
    reported ext.crypto ext.readEnvelope client body signature = .ok (some (key, entity)) ∧
    entity.id = reference ∧ entity.amount = total.units ∧
    currencyMatches entity.currency total.currency = true

def Asks (r : PaymentLinkRequest) (o : Order) : Prop :=
  r.amount = o.totals.total.units ∧ r.currency = o.totals.total.currency ∧ r.orderId = some o.id

structure Kept (s : State) : Prop where
  priced : ∀ k x, s.data.sessions.get k = some x → Priced st x
  drawn : ∀ k x, s.data.sessions.get k = some x → Drawn k x.cart s.history
  placed : ∀ key o, s.data.orders.get key = some o → PlacedFor s.data key o
  set : ∀ key o reference, s.data.orders.get key = some o → o.paymentReference = some reference →
    ∃ e ∈ s.history, Sets key reference e
  paid : ∀ e ∈ s.history, ∀ key reference, Sets key reference e →
    ∃ o, s.data.orders.get key = some o ∧
      PaidBy ext st e.actor.request key o.totals.total reference
  charged : ∀ e ∈ s.history, ∀ k a amount, chargeOf k e = some (a, amount) → Costs s.data k amount
  receipted : ∀ entry ∈ s.data.audit.entries,
    ∃ k, entry.entry.orderId = orderKey k ∧ Costs s.data k entry.entry.amount
  linked : ∀ e ∈ s.history, ∀ r, e.op = .postPaymentLink r → ∀ key answer,
    e.actor.request.call = .orderPaymentLink key answer →
      ∃ o, s.data.orders.get key = some o ∧ Asks r o

/-- What must hold where a request performs an operation, for the amounts to go
on agreeing. -/
def Backed (q : Request) : Op → State → Prop
  | .sessions (.create _ x), s => Priced st x ∧ FromCart q x.cart s.history
  | .sessions (.update k x), s => ∃ y, s.data.sessions.get k = some y ∧ Same y x
  | .orders (.create key o), s => PlacedFor s.data key o ∧ o.paymentReference = none
  | .orders (.update key o), s => (∃ o', s.data.orders.get key = some o' ∧ o'.id = o.id ∧
      o'.checkoutSessionId = o.checkoutSessionId ∧ o'.totals = o.totals) ∧
      ∀ reference, o.paymentReference = some reference →
        PaidBy ext st q key o.totals.total reference
  | .chargeAgent _ amount, s => ∀ k, completes q = some k → Costs s.data k amount
  | .pushReceipt r, s => ∃ k, r.orderId = orderKey k ∧ Costs s.data k r.amount
  | .postPaymentLink r, s => ∀ key answer, q.call = .orderPaymentLink key answer →
      ∃ o, s.data.orders.get key = some o ∧ Asks r o
  | _, _ => True

variable {ext st} {s s' : State} {i : Name Request} {o : Op}

theorem Costs.later {a b : Data} {k : String} {amount : Amount} (h : Costs a k amount)
    (hl : Later a b) : Costs b k amount := by
  obtain ⟨x, hx, ht⟩ := h
  obtain ⟨y, hy, hxy⟩ := hl.sessions k x hx
  exact ⟨y, hy, by rw [hxy.totals, ht]⟩

theorem PlacedFor.later {a b : Data} {key : String} {o : Order} (h : PlacedFor a key o)
    (hl : Later a b) : PlacedFor b key o := by
  obtain ⟨k, x, hkey, hid, hk, hx, ht⟩ := h
  obtain ⟨y, hy, hxy⟩ := hl.sessions k x hx
  exact ⟨k, y, hkey, hid, hk, hy, ht.trans hxy.totals.symm⟩

theorem Asks.later {a b : Data} {key : String} {r : PaymentLinkRequest}
    (h : ∃ o, a.orders.get key = some o ∧ Asks r o) (hl : Later a b) :
    ∃ o, b.orders.get key = some o ∧ Asks r o := by
  obtain ⟨o, ho, hr⟩ := h
  obtain ⟨o', ho', hid, -, ht⟩ := hl.orders key o ho
  exact ⟨o', ho', by rw [Asks, hid, ht]; exact hr⟩

theorem FromCart.mono {q : Request} {cart : Cart} {h h' : Past} (hf : FromCart q cart h)
    (hs : h <:+ h') : FromCart q cart h' := by
  obtain ⟨body, now, hc, e, he, hcart⟩ := hf
  exact ⟨body, now, hc, e, hs.subset he, hcart⟩

theorem Drawn.mono {k : String} {cart : Cart} {h h' : Past} (hd : Drawn k cart h)
    (hs : h <:+ h') : Drawn k cart h' := by
  obtain ⟨e, he, hop, hf⟩ := hd
  exact ⟨e, hs.subset he, hop, hf.mono hs⟩

theorem Priced.same {x y : CheckoutSession} (h : Priced st x) (hs : Same x y) : Priced st y where
  currency := by rw [hs.cart, hs.currency, h.currency]
  lines := by rw [hs.cart, hs.currency]; exact h.lines
  tax := by rw [hs.totals, hs.currency, h.tax]
  total := by rw [hs.totals, hs.currency, hs.cart]; exact h.total

section Stored

variable {d : Data}

theorem sessions_exec {k : String} {x : CheckoutSession}
    (h : (o.exec d).2.sessions.get k = some x) : d.sessions.get k = some x ∨
      o = .sessions (.create k x) ∨ o = .sessions (.update k x) := by
  cases o with
  | sessions o =>
      rcases StoreOp.get_exec h with h | ⟨rfl, -⟩ | ⟨rfl, -⟩
      · exact .inl h
      · exact .inr (.inl rfl)
      · exact .inr (.inr rfl)
  | _ => exact .inl h

theorem orders_exec {key : String} {x : Order} (h : (o.exec d).2.orders.get key = some x) :
    d.orders.get key = some x ∨ o = .orders (.create key x) ∨ o = .orders (.update key x) := by
  cases o with
  | orders o =>
      rcases StoreOp.get_exec h with h | ⟨rfl, -⟩ | ⟨rfl, -⟩
      · exact .inl h
      · exact .inr (.inl rfl)
      · exact .inr (.inr rfl)
  | _ => exact .inl h

theorem audit_exec {entry : AuditEntry Receipt} (h : entry ∈ (o.exec d).2.audit.entries) :
    entry ∈ d.audit.entries ∨ o = .pushReceipt entry.entry := by
  cases o with
  | pushReceipt r =>
      rcases List.mem_append.mp h with h | h
      · exact .inl h
      · rw [List.mem_singleton.mp h]
        exact .inr rfl
  | _ => exact .inl h

end Stored

theorem Backed.later (h : Backed ext st i.request o s) : Later s.data (o.exec s.data).2 where
  cancelled := by
    cases o with
    | cancelCart id => exact Finset.subset_insert _ _
    | _ => exact Finset.Subset.refl _
  sessions k x hx := by
    cases o with
    | sessions o =>
        rcases StoreOp.get_exec_of_some o hx with hx | ⟨y, rfl, hy⟩
        · exact ⟨x, hx, .refl x⟩
        · obtain ⟨z, hz, hzy⟩ := h
          obtain rfl := Option.some.inj (hx.symm.trans hz)
          exact ⟨y, hy, hzy⟩
    | _ => exact ⟨x, hx, .refl x⟩
  orders key x hx := by
    cases o with
    | orders o =>
        rcases StoreOp.get_exec_of_some o hx with hx | ⟨y, rfl, hy⟩
        · exact ⟨x, hx, rfl, rfl, rfl⟩
        · obtain ⟨⟨z, hz, hid, hk, ht⟩, -⟩ := h
          obtain rfl := Option.some.inj (hx.symm.trans hz)
          exact ⟨y, hy, hid.symm, hk.symm, ht.symm⟩
    | _ => exact ⟨x, hx, rfl, rfl, rfl⟩

theorem Kept.perform (h : Kept ext st s) (hb : Backed ext st i.request o s) :
    Kept ext st (s.perform Op.exec i o) where
  priced k x hx := by
    rcases sessions_exec hx with hx | rfl | rfl
    · exact h.priced k x hx
    · exact hb.1
    · obtain ⟨y, hy, hyx⟩ := hb
      exact (h.priced k y hy).same hyx
  drawn k x hx := by
    have hsuf : s.history <:+ (s.perform Op.exec i o).history := List.suffix_cons _ _
    rcases sessions_exec hx with hx | rfl | rfl
    · exact (h.drawn k x hx).mono hsuf
    · exact ⟨_, List.mem_cons_self, ⟨x, rfl⟩, hb.2.mono hsuf⟩
    · obtain ⟨y, hy, hyx⟩ := hb
      exact hyx.cart ▸ (h.drawn k y hy).mono hsuf
  placed key x hx := by
    have hl := hb.later
    rcases orders_exec hx with hx | rfl | rfl
    · exact (h.placed key x hx).later hl
    · exact hb.1.later hl
    · obtain ⟨⟨z, hz, hid, hk, ht⟩, -⟩ := hb
      have hz' := (h.placed key z hz).later hl
      rw [PlacedFor, hid, hk, ht] at hz'
      exact hz'
  set key x reference hx hr := by
    rcases orders_exec hx with hx | rfl | rfl
    · obtain ⟨e, he, hset⟩ := h.set key x reference hx hr
      exact ⟨e, List.mem_cons_of_mem _ he, hset⟩
    · cases hb.2.symm.trans hr
    · exact ⟨_, List.mem_cons_self, x, rfl, hr⟩
  paid e he key reference hset := by
    rcases List.mem_cons.mp he with rfl | he
    · obtain ⟨x, rfl, hr⟩ := hset
      have hl := Backed.later (o := .orders (.update key x)) hb
      obtain ⟨⟨z, hz, -, -, ht⟩, hp⟩ := hb
      obtain ⟨y, hy, -, -, hyt⟩ := hl.orders key z hz
      exact ⟨y, hy, hyt ▸ ht ▸ hp reference hr⟩
    · obtain ⟨x, hx, hp⟩ := h.paid e he key reference hset
      obtain ⟨y, hy, -, -, ht⟩ := hb.later.orders key x hx
      exact ⟨y, hy, ht ▸ hp⟩
  charged e he k a amount hc := by
    rcases List.mem_cons.mp he with rfl | he
    · obtain ⟨rfl, hk⟩ := chargeOf_eq_some hc
      exact (hb k hk).later (Backed.later (o := .chargeAgent a amount) hb)
    · exact (h.charged e he k a amount hc).later hb.later
  receipted entry he := by
    rcases audit_exec he with he | rfl
    · obtain ⟨k, hk, hcost⟩ := h.receipted entry he
      exact ⟨k, hk, hcost.later hb.later⟩
    · obtain ⟨k, hk, hcost⟩ := hb
      exact ⟨k, hk, hcost⟩
  linked e he r hop key answer hcall := by
    rcases List.mem_cons.mp he with rfl | he
    · obtain rfl : o = .postPaymentLink r := hop
      exact hb key answer hcall
    · exact Asks.later (h.linked e he r hop key answer hcall) hb.later

variable (ext st) in
def spec : Spec (app ext st) where
  locks := discipline ext st
  inv := Kept ext st
  evolves := Later
  evolves_refl := Later.refl
  evolves_trans := Later.trans
  drop_inv _ _ _ h _ _ :=
    ⟨h.priced, h.drawn, h.placed, h.set, h.paid, h.charged, h.receipted, h.linked⟩

def Lasting (K : State → Prop) : Prop :=
  ∀ s s', Later s.data s'.data → s.history <:+ s'.history → K s → K s'

variable (ext st) in
/-- An operation that what the task knows backs, under the locks it needs. -/
def May (q : Request) (K : State → Prop) (H : Set Lock) (o : Op) : Prop :=
  (∀ l, o.need l → l ∈ H) ∧ ∀ s, K s → Backed ext st q o s

theorem lockFree : (spec ext st).LockFree := fun _ _ h =>
  ⟨h.priced, h.drawn, h.placed, h.set, h.paid, h.charged, h.receipted, h.linked⟩

theorem harmless {K : State → Prop} (hK : Lasting K) :
    (spec ext st).Harmless i K (May ext st i.request K) := by
  refine .of_lasting lockFree hK (fun _ _ => trivial) (fun H o s hm hi hk _ => ?_)
  have hb := hm.2 s hk
  exact ⟨hm.1, hi.perform hb, hb.later⟩

section Handlers

def anyState : State → Prop := fun _ => True

theorem lasting_any : Lasting anyState := fun _ _ _ _ _ => trivial

theorem may_free {q : Request} {K : State → Prop} {H : Set Lock}
    (hn : ∀ l, o.need l → l ∈ H) (hb : ∀ s, Backed ext st q o s) : May ext st q K H o :=
  ⟨hn, fun s _ => hb s⟩

def knowsCart (q : Request) (cart : Cart) : State → Prop := fun s => FromCart q cart s.history

theorem lasting_knowsCart (q : Request) (cart : Cart) : Lasting (knowsCart q cart) :=
  fun _ _ _ hs h => h.mono hs

def knowsSession (k : String) (x : CheckoutSession) : State → Prop :=
  fun s => ∃ y, s.data.sessions.get k = some y ∧ Same x y

theorem lasting_knowsSession (k : String) (x : CheckoutSession) : Lasting (knowsSession k x) := by
  rintro s s' hl - ⟨y, hy, hxy⟩
  obtain ⟨z, hz, hyz⟩ := hl.sessions k y hy
  exact ⟨z, hz, hxy.trans hyz⟩

def knowsOrder (key : String) (x : Order) : State → Prop :=
  fun s => ∃ o, s.data.orders.get key = some o ∧ o.id = x.id ∧
    o.checkoutSessionId = x.checkoutSessionId ∧ o.totals = x.totals

theorem lasting_knowsOrder (key : String) (x : Order) : Lasting (knowsOrder key x) := by
  rintro s s' hl - ⟨o, ho, hid, hk, ht⟩
  obtain ⟨o', ho', hid', hk', ht'⟩ := hl.orders key o ho
  exact ⟨o', ho', hid'.trans hid, hk'.trans hk, ht'.trans ht⟩

theorem createCheckoutSession_ensures {body : CreateSessionRequest} {now : Int64}
    (hcall : i.request.call = .createCheckoutSession body now) :
    (spec ext st).Ensures i (fun _ _ => True) (createCheckoutSession st body now) s := by
  refine Ensures.locked_perform_bind (harmless lasting_any)
    (may_free (by simp [Op.need]) (fun _ => trivial)) (Set.notMem_empty Lock.carts) trivial (by simp)
    (fun s1 u1 _ _ _ _ hl1 hsuf1 _ _ => ?_)
  rw [show ((app ext st).exec (Op.carts (.get body.cartId)) s1.data).1 =
    s1.data.carts.get body.cartId from rfl, Spec.ensures_okOr_bind (P := spec ext st)]
  cases hcart : s1.data.carts.get body.cartId with
  | none => trivial
  | some cart =>
      dsimp only
      refine Ensures.locked_perform_bind (harmless lasting_any)
        (may_free (by simp [Op.need]) (fun _ => trivial)) (Set.notMem_empty Lock.cancelledCarts)
        trivial (by simp) (fun s2 u2 _ _ hl2 hsuf2 _ hsuf2' _ _ => ?_)
      by_cases hid : body.cartId ∈ s2.data.cancelledCarts
      · rw [show ((app ext st).exec (Op.cartCancelled body.cartId) s2.data).1 = true from
          decide_eq_true hid]
        trivial
      · rw [show ((app ext st).exec (Op.cartCancelled body.cartId) s2.data).1 = false from
          decide_eq_false hid]
        simp only [Bool.false_eq_true, if_false]
        rw [Spec.ensures_mapErr_bind (P := spec ext st)]
        cases ht : computeTotals cart st.priceOf noTax with
        | error e => trivial
        | ok totals =>
            have hopen : body.cartId ∉ s1.data.cancelledCarts :=
              fun hmem => hid (hl2.cancelled (hl1.cancelled hmem))
            have hread : ⟨i, .carts (.get body.cartId), s1.data.carts.get body.cartId, s1.data⟩ ∈
                u2.history := hsuf2'.subset (List.mem_cons_of_mem _
              (hsuf2.subset (hsuf1.subset List.mem_cons_self)))
            have hknow : knowsCart i.request cart u2 :=
              ⟨body, now, hcall, _, hread, hcart, hopen⟩
            obtain ⟨hp, htax, hcur, -, hu⟩ := computeTotals_noTax_ok ht
            refine (Ensures.of_respects (H := ∅) (harmless (lasting_knowsCart i.request cart)) ?_
              hknow (by simp)).mono (fun _ _ _ => trivial)
            refine .bind (genId_respects (may_free (by simp [Op.need]) (fun _ => trivial)) _)
              (fun id => .bind (locked_perform_respects (by simp) ⟨by simp [Op.need], ?_⟩)
                (fun _ => .bind (.mapErr _ _) (fun _ => .pure _)))
            exact fun s hs => ⟨⟨rfl, hp, htax, hcur, hu⟩, hs⟩

theorem completeCheckout_ensures {agent : Option String} {k : String} {now issuedAt : Int64}
    (hk : completes i.request = some k) :
    (spec ext st).Ensures i (fun _ _ => True) (completeCheckout agent k now issuedAt) s := by
  refine Server.completeCheckout_ensures (harmless lasting_any)
    (may_free (by simp [Op.need]) (fun _ => trivial)) (may_free (by simp [Op.need]) (fun _ => trivial))
    (fun s' session _ _ hH hs _ _ => ?_) trivial
  have hknow : knowsSession k session (s'.perform Op.exec i (Op.sessions (.get k))) :=
    ⟨session, hs, .refl _⟩
  have hcost {s : State} (h : knowsSession k session s) : Costs s.data k session.totals.total := by
    obtain ⟨y, hy, hxy⟩ := h
    exact ⟨y, hy, by rw [hxy.totals]⟩
  refine (Ensures.of_respects (harmless (lasting_knowsSession k session))
    (placeOrder_respects (by simp) (by simp) (fun a _ => ⟨by simp [Op.need], ?_⟩)
      ⟨by simp [Op.need], ?_⟩ ⟨by simp [Op.need], ?_⟩
      (may_free (by simp [Op.need]) (fun _ => trivial))
      (fun a _ => ⟨by simp [Op.need], ?_⟩)) hknow hH).mono (fun _ _ h => ⟨trivial, h.2⟩)
  · intro s h k' hk'
    obtain rfl := Option.some.inj (hk.symm.trans hk')
    exact hcost h
  · rintro s ⟨y, hy, hxy⟩
    exact ⟨⟨k, y, rfl, rfl, rfl, hy, hxy.totals.symm⟩, rfl⟩
  · rintro s ⟨y, hy, hxy⟩
    exact ⟨y, hy, hxy.cart.symm, hxy.currency.symm, hxy.totals.symm⟩
  · exact fun s h => ⟨k, rfl, hcost h⟩

theorem cancelCheckout_ensures {k : String} :
    (spec ext st).Ensures i (fun _ _ => True) (cancelCheckout k) s := by
  refine Server.cancelCheckout_ensures (harmless lasting_any)
    (may_free (by simp [Op.need]) (fun _ => trivial)) (fun s' session m _ _ hH hs hm => ?_) trivial
  have hknow : knowsSession k session (s'.perform Op.exec i (Op.sessions (.get k))) :=
    ⟨session, hs, .refl _⟩
  refine (Ensures.of_respects (harmless (lasting_knowsSession k session)) (hm.mono ?_) hknow hH).mono
    (fun _ _ h => ⟨trivial, h.2⟩)
  rintro H o ⟨rfl, rfl⟩
  refine ⟨by simp [Op.need], ?_⟩
  rintro s ⟨y, hy, hxy⟩
  exact ⟨y, hy, hxy.cart.symm, hxy.currency.symm, hxy.totals.symm⟩

theorem orderPaymentLink_ensures {key : String} {answer : Except RazorpayError String}
    (hcall : i.request.call = .orderPaymentLink key answer) :
    (spec ext st).Ensures i (fun _ _ => True) (orderPaymentLink ext st key answer) s := by
  refine Ensures.locked_perform_bind (harmless lasting_any)
    (may_free (by simp [Op.need]) (fun _ => trivial)) (Set.notMem_empty Lock.orders) trivial
    (by simp) (fun s1 u1 _ _ _ _ hl1 _ _ _ => ?_)
  rw [show ((app ext st).exec (Op.orders (.get key)) s1.data).1 = s1.data.orders.get key from
    rfl, Spec.ensures_okOr_bind (P := spec ext st)]
  cases ho : s1.data.orders.get key with
  | none => trivial
  | some order =>
      refine (Ensures.of_respects (H := ∅) (harmless (lasting_knowsOrder key order)) ?_
        (hl1.orders key order ho) (by simp)).mono (fun _ _ _ => trivial)
      dsimp only
      split
      · exact .throw _
      · refine .bind (.mapErr _ _) (fun client => .bind (.adaptErr ?_) (fun _ => .pure _))
        refine .bind (.mapErr _ _) (fun _ => .bind (.perform ⟨by simp [Op.need], ?_⟩)
          (fun _ => .mapErr _ _))
        rintro s ⟨o, ho, hid, -, ht⟩ key' answer' hcall'
        obtain ⟨rfl, rfl⟩ := Call.orderPaymentLink.inj (hcall.symm.trans hcall')
        exact ⟨o, ho, by rw [ht]; rfl, by rw [ht]; rfl, by rw [hid]; rfl⟩

theorem reconcilePayment_ensures {signature : String} {body : Bytes} {client : RazorpayConfig}
    {key : String} {entity : WebhookPaymentEntity} {now : Int64}
    (hcall : i.request.call = .razorpayWebhook (some signature) body now)
    (hclient : razorpayForState ext st = .ok client)
    (hrep : reported ext.crypto ext.readEnvelope client body signature = .ok (some (key, entity))) :
    (spec ext st).Ensures i (fun _ _ => True) (reconcilePayment key entity.id entity now) s := by
  refine Server.reconcilePayment_ensures (harmless lasting_any)
    (may_free (by simp [Op.need]) (fun _ => trivial)) (fun s1 order m _ hH ho hm => ?_) trivial
  have hknow : knowsOrder key order (s1.perform Op.exec i (Op.orders (.get key))) :=
    ⟨order, ho, rfl, rfl, rfl⟩
  refine (Ensures.of_respects (harmless (lasting_knowsOrder key order)) (hm.mono ?_) hknow hH).mono
    (fun _ _ h => ⟨trivial, h.2⟩)
  rintro H o ⟨rfl, ⟨hamount, hcurrency⟩, confirmed, hc, rfl⟩
  obtain ⟨hid, hk, ht, -⟩ := Order.applyEvent_frame hc
  refine ⟨by simp [Op.need], ?_⟩
  rintro s ⟨o, ho, hid', hk', ht'⟩
  refine ⟨⟨o, ho, hid'.trans hid.symm, hk'.trans hk.symm, ht'.trans ht.symm⟩, ?_⟩
  intro reference href
  obtain rfl := Option.some.inj href
  rw [← ht] at hamount hcurrency
  exact ⟨signature, body, now, client, entity, hcall, hclient, hrep, rfl, hamount, hcurrency⟩

theorem handler_holds :
    (spec ext st).Holds i ((spec ext st).post i) (handler ext st i.request) s := by
  obtain ⟨n, agent, call⟩ := i
  have rest (hp : ∀ o, Request.performs ⟨agent, call⟩ o →
      ∀ s, Backed ext st ⟨agent, call⟩ o s) :
      (spec ext st).Holds ⟨n, agent, call⟩ (fun _ _ => True) (handler ext st ⟨agent, call⟩) s :=
    (Spec.Holds.of_respects (harmless lasting_any) ((handler_respects ext st ⟨agent, call⟩).mono
      (fun H o ho => may_free ho.2 (hp o ho.1))) trivial (by simp)).mono (fun _ _ _ => trivial)
  cases call with
  | createCheckoutSession body now => exact holds_replyTo.mpr (createCheckoutSession_ensures rfl)
  | completeCheckout id now issuedAt => exact holds_replyTo.mpr (completeCheckout_ensures rfl)
  | cancelCheckout id => exact holds_replyTo.mpr cancelCheckout_ensures
  | orderPaymentLink id answer => exact holds_replyTo.mpr (orderPaymentLink_ensures rfl)
  | razorpayWebhook signature body now =>
      refine holds_replyTo.mpr (razorpayWebhook_ensures (harmless lasting_any)
        (may_free (by simp [Op.need]) (fun _ => trivial)) ?_)
      rintro text client key entity rfl hclient hrep
      exact reconcilePayment_ensures rfl hclient hrep
  | _ =>
      refine rest (fun o ho s => ?_)
      cases o with
      | sessions o | orders o => cases o <;> first | trivial | simp [Request.performs] at ho
      | _ => first | trivial | simp [Request.performs] at ho

end Handlers

theorem admits : (spec ext st).Admits (fun _ _ => True) where
  spawn _ _ _ _ _ := handler_holds
  step _ _ _ _ _ _ _ _ := trivial
  drop _ _ _ _ _ _ _ _ := trivial
  stable _ _ _ _ _ h := h

theorem kept_start (crypto : Crypto) : Kept ext st (.start (Data.new crypto)) where
  priced _ _ h := by cases h
  drawn _ _ h := by cases h
  placed _ _ h := by cases h
  set _ _ _ h := by cases h
  paid _ he := by cases he
  charged _ he := by cases he
  receipted _ he := by cases he
  linked _ he := by cases he

/-- The copies of an amount that go with an order, and the cart they come from. -/
structure Agrees (ext : Platform) (st : AppState) (s : State) (key : String) (o : Order)
    (x : CheckoutSession) : Prop where
  named : key = orderKey o.checkoutSessionId ∧ o.id = key
  session : s.data.sessions.get o.checkoutSessionId = some x
  cart : Drawn o.checkoutSessionId x.cart s.history
  priced : Priced st x
  totals : o.totals = x.totals
  receipts : ∀ entry ∈ s.data.audit.entries, entry.entry.orderId = o.id →
    entry.entry.amount = o.totals.total
  charges : ∀ e ∈ s.history, ∀ a amount, chargeOf o.checkoutSessionId e = some (a, amount) →
    amount = o.totals.total
  links : ∀ e ∈ s.history, ∀ r, e.op = .postPaymentLink r → ∀ answer,
    e.actor.request.call = .orderPaymentLink key answer → Asks r o
  payment : ∀ reference, o.paymentReference = some reference →
    (∃ e ∈ s.history, Sets key reference e) ∧ ∀ e ∈ s.history, Sets key reference e →
      PaidBy ext st e.actor.request key o.totals.total reference

theorem Costs.eq_total {k : String} {x : CheckoutSession} {amount : Amount} {d : Data}
    (h : Costs d k amount) (hx : d.sessions.get k = some x) : amount = x.totals.total := by
  obtain ⟨y, hy, rfl⟩ := h
  rw [Option.some.inj (hx.symm.trans hy)]

theorem Kept.agrees {key : String} {o : Order} (h : Kept ext st s)
    (ho : s.data.orders.get key = some o) : ∃ x, Agrees ext st s key o x := by
  obtain ⟨k, x, hkey, hid, rfl, hx, ht⟩ := h.placed key o ho
  refine ⟨x, ⟨hkey, hid⟩, hx, h.drawn _ x hx, h.priced _ x hx, ht, ?_, ?_, ?_, ?_⟩
  · intro entry he horder
    obtain ⟨k, hk, hcost⟩ := h.receipted entry he
    obtain rfl := orderKey_injective (hk.symm.trans (horder.trans (hid.trans hkey)))
    rw [ht]
    exact hcost.eq_total hx
  · intro e he a amount hc
    rw [ht]
    exact (h.charged e he _ a amount hc).eq_total hx
  · intro e he r hop answer hcall
    obtain ⟨o', ho', hasks⟩ := h.linked e he r hop key answer hcall
    obtain rfl := Option.some.inj (ho.symm.trans ho')
    exact hasks
  · refine fun reference hr => ⟨h.set key o reference ho hr, fun e he hset => ?_⟩
    obtain ⟨o', ho', hpaid⟩ := h.paid e he key reference hset
    obtain rfl := Option.some.inj (ho.symm.trans ho')
    exact hpaid

/-- In every reachable state every order agrees with its session, the session
with its cart and the catalog, and the charge, the receipt, the payment links
and the payment with the order; and what the session holds stays as it is. -/
theorem money_agrees (ext : Platform) (st : AppState) {c : Configuration}
    (h : (app ext st).Runs (fun _ _ => True) (.start (Data.new ext.crypto)) c) {key : String}
    {o : Order} (ho : c.shared.data.orders.get key = some o) :
    ∃ x, Agrees ext st c.shared key o x ∧ ∀ c', (app ext st).Runs (fun _ _ => True) c c' →
      ∃ y, c'.shared.data.sessions.get o.checkoutSessionId = some y ∧ Same x y := by
  have hc := Spec.Sound.runs admits (Spec.sound_start (P := spec ext st) (kept_start _)) h
  obtain ⟨x, hx⟩ := Kept.agrees hc.inv ho
  refine ⟨x, hx, fun c' h' => ?_⟩
  have hl : Later c.shared.data c'.shared.data := hc.evolves_runs admits h'
  exact hl.sessions _ x hx.session

section Example

def paying : Platform where
  crypto := Platform.bare.crypto
  env := Platform.bare.env
  readEnvelope := fun _ => .ok ⟨"payment.paid", ⟨⟨"pay-1", 1000, some "usd",
    Finmap.singleton "order_id" "ord-cs-1"⟩⟩⟩
  buildRequest := fun _ => .ok ()

def payingShop : AppState :=
  ⟨AppState.shop.products, some ⟨some "rzp_test_1", some "key-secret", none, none, some "s"⟩⟩

def bought : List (Action Request) :=
  System.enter 0 ⟨some demoAgentId, .createCart ⟨none, [⟨"p-1", 2⟩]⟩⟩ 4 ++
  System.enter 1 ⟨some demoAgentId, .createCheckoutSession ⟨"cart-0", none⟩ 0⟩ 10 ++
  System.enter 2 ⟨some demoAgentId, .completeCheckout "cs-1" 0 0⟩ 15 ++
  System.enter 3 ⟨none, .orderPaymentLink "ord-cs-1" (.ok "https://rzp.io/i/1")⟩ 4 ++
  System.enter 4 ⟨none, .razorpayWebhook
    (some (toHex (paying.crypto.hmacSha256 (utf8 "s") [1]))) [1] 5⟩ 5

theorem money_agrees_bought : ∃ (c : Configuration) (o : Order) (x : CheckoutSession),
    o.totals.total = ⟨1000, .USD⟩ ∧ o.paymentReference = some "pay-1" ∧
      Agrees paying payingShop c.shared "ord-cs-1" o x := by
  have hplay : (((app paying payingShop).play (fun _ _ => True)
      (.start (Data.new Platform.bare.crypto)) bought).map (fun c =>
        (c.shared.data.orders.get "ord-cs-1").map (fun o =>
          (o.totals.total, o.paymentReference)))) = some (some (⟨1000, .USD⟩, some "pay-1")) := by
    decide +kernel
  obtain ⟨c, hc, heq⟩ := Option.map_eq_some_iff.mp hplay
  obtain ⟨o, ho, hpaid⟩ := Option.map_eq_some_iff.mp heq
  obtain ⟨htotal, href⟩ := Prod.mk.inj hpaid
  obtain ⟨x, hx, -⟩ := money_agrees paying payingShop (System.play_runs hc) ho
  exact ⟨c, o, x, htotal, href, hx⟩

end Example

end AiterCommerce.Guarantees.Money
