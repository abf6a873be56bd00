import AiterCommerce.Server.State

namespace AiterCommerce.Server

open AiterCommerce.Core Concurrent
open Fallible (locked mapErr okOr)

structure CreateSessionRequest where
  cartId : String
  fulfillment : Option Fulfillment
  deriving DecidableEq

def createCheckoutSession (st : AppState) (body : CreateSessionRequest) (now : Int64) :
    Handler ApiError CheckoutSession := do
  let cart ← okOr .notFound (← locked .carts (perform (.carts (.get body.cartId))))
  if ← locked .cancelledCarts (perform (.cartCancelled body.cartId)) then
    throw (.conflict "cart is cancelled")
  let totals ← mapErr .pricing (computeTotals cart st.priceOf noTax)
  let id ← genId "cs"
  let session := CheckoutSession.new id cart (body.fulfillment.getD .pickup) (now + 3600) totals
  mapErr .store (← locked .sessions (perform (.sessions (.create session.id session))))
  return session

def orderKey (sessionId : String) : String := "ord-" ++ sessionId

def receiptId (orderId : String) : String := "rcpt-" ++ orderId

def chargeAgent (agentId : String) (amount : Amount) : Handler ApiError Unit := do
  mapErr .spendLimit (← locked .agents (perform (.chargeAgent agentId amount)))

/-- The legal path to paid; its first half is skipped when already ready, all
of it when already paid. -/
def markPaid (session : CheckoutSession) : Except CheckoutError CheckoutSession := do
  let session ←
    if session.status = .pending then session.applyEvent .markReady else pure session
  if session.status ≠ .paid then session.applyEvent .markPaid else pure session

def storeOrder (id : String) (session : CheckoutSession) (now : Int64) :
    Handler ApiError Order := do
  let session ← mapErr .checkout (markPaid session)
  let order := Order.new (orderKey id) id session.totals now
  mapErr .store (← perform (.orders (.create order.id order)))
  mapErr .store (← perform (.sessions (.update id session)))
  perform .checkoutCompleted
  return order

def issueReceipt (agentId : String) (order : Order) (amount : Amount) (issuedAt : Int64) :
    Handler ApiError Unit := do
  let receipt := ⟨receiptId order.id, agentId, order.id, amount, issuedAt⟩
  let _ ← locked .audit (perform (.pushReceipt receipt))

/-- What follows the checks: the agent is charged first, the receipt is issued
last. Without an agent there is neither. -/
def placeOrder (agent : Option String) (id : String) (session : CheckoutSession)
    (now issuedAt : Int64) : Handler ApiError Order := do
  if let some agentId := agent then
    chargeAgent agentId session.totals.total
  let order ← storeOrder id session now
  if let some agentId := agent then
    issueReceipt agentId order session.totals.total issuedAt
  return order

theorem placeOrder_none (id : String) (session : CheckoutSession) (now issuedAt : Int64) :
    placeOrder none id session now issuedAt = storeOrder id session now :=
  bind_pure (storeOrder id session now)

theorem placeOrder_some (agentId id : String) (session : CheckoutSession) (now issuedAt : Int64) :
    placeOrder (some agentId) id session now issuedAt = (do
      chargeAgent agentId session.totals.total
      let order ← storeOrder id session now
      issueReceipt agentId order session.totals.total issuedAt
      return order) := rfl

/-- A completed session returns its order again. The orders and the sessions
stay locked to the end. -/
def completeCheckout (agent : Option String) (id : String) (now issuedAt : Int64) :
    Handler ApiError Order :=
  locked .orders <| locked .sessions do
    match ← perform (.orders (.get (orderKey id))) with
    | some order => return order
    | none =>
        let session ← okOr .notFound (← perform (.sessions (.get id)))
        if session.status ≠ .paid ∧ session.status.isTerminal then
          throw (.conflict "session is not completable")
        placeOrder agent id session now issuedAt

def cancelCheckout (id : String) : Handler ApiError CheckoutSession :=
  locked .sessions do
    let session ← okOr .notFound (← perform (.sessions (.get id)))
    if session.status ≠ .cancelled then
      let session ← mapErr .checkout (session.applyEvent .markCancelled)
      mapErr .store (← perform (.sessions (.update id session)))
      return session
    return session

theorem markPaid_of_completable {session : CheckoutSession}
    (h : ¬ (session.status ≠ .paid ∧ session.status.isTerminal = true)) :
    markPaid session = .ok { session with status := .paid } := by
  obtain ⟨id, cart, currency, fulfillment, status, expiresAt, totals⟩ := session
  cases status with
  | pending | ready | paid => rfl
  | cancelled | failed => exact (h ⟨by simp, rfl⟩).elim

theorem markPaid_ok {session paid : CheckoutSession} (h : markPaid session = .ok paid) :
    paid = { session with status := .paid } := by
  obtain ⟨id, cart, currency, fulfillment, status, expiresAt, totals⟩ := session
  cases status <;> cases h <;> rfl

theorem storeOrder_of_completable {id : String} {session : CheckoutSession} (now : Int64)
    (h : ¬ (session.status ≠ .paid ∧ session.status.isTerminal = true)) :
    storeOrder id session now = (do
      let order := Order.new (orderKey id) id session.totals now
      mapErr .store (← perform (.orders (.create (orderKey id) order)))
      mapErr .store (← perform (.sessions (.update id { session with status := .paid })))
      perform .checkoutCompleted
      return order) := by
  rw [storeOrder, markPaid_of_completable h]
  rfl

section Run

variable {agent : Option String} {id : String} {session : CheckoutSession}
  {now issuedAt : Int64} {d : Data}

theorem completeCheckout_run : (completeCheckout agent id now issuedAt).run Op.exec d =
    match d.orders.get (orderKey id) with
    | some order => (.ok order, d)
    | none => match d.sessions.get id with
      | none => (.error .notFound, d)
      | some session =>
          if session.status ≠ .paid ∧ session.status.isTerminal then
            (.error (.conflict "session is not completable"), d)
          else (placeOrder agent id session now issuedAt).run Op.exec d := by
  rw [completeCheckout, Fallible.run_locked, Fallible.run_locked, run_perform_bind]
  dsimp only [Op.exec, StoreOp.exec]
  cases d.orders.get (orderKey id) with
  | some order => rfl
  | none =>
      dsimp only
      rw [run_perform_bind]
      dsimp only [Op.exec, StoreOp.exec]
      rw [run_okOr_bind]
      cases d.sessions.get id with
      | none => rfl
      | some session =>
          dsimp only
          split <;> rfl

theorem createCheckoutSession_run_pricing {st : AppState} {body : CreateSessionRequest} {cart : Cart}
    {e : PricingError} (hc : d.carts.get body.cartId = some cart)
    (hopen : body.cartId ∉ d.cancelledCarts) :
    ((createCheckoutSession st body now).run Op.exec d).1 = .error (.pricing e) ↔
      computeTotals cart st.priceOf noTax = .error e := by
  rw [createCheckoutSession, run_locked_perform_bind, run_okOr_bind]
  simp only [Op.exec, StoreOp.exec, hc]
  rw [run_locked_perform_bind]
  simp only [Op.exec, hopen, decide_false, Bool.false_eq_true, if_false]
  rw [run_mapErr_bind]
  cases ht : computeTotals cart st.priceOf noTax with
  | error e' => simp
  | ok totals =>
      refine iff_of_false (fun h => ?_) (fun h => by cases h)
      dsimp only at h
      rw [genId, bind_assoc, run_perform_bind, pure_bind, run_locked_perform_bind,
        run_mapErr_bind] at h
      split at h <;> cases h

theorem createCheckoutSession_run {st : AppState} {body : CreateSessionRequest} {cart : Cart}
    {totals : Totals} (hc : d.carts.get body.cartId = some cart)
    (hopen : body.cartId ∉ d.cancelledCarts)
    (ht : computeTotals cart st.priceOf noTax = .ok totals)
    (hid : d.sessions.get ("cs-" ++ toString d.nextId.toNat) = none) :
    let session := CheckoutSession.new ("cs-" ++ toString d.nextId.toNat) cart
      (body.fulfillment.getD .pickup) (now + 3600) totals
    (createCheckoutSession st body now).run Op.exec d = (.ok session,
      { d with nextId := d.nextId + 1, sessions := d.sessions.insert session.id session }) := by
  rw [createCheckoutSession, run_locked_perform_bind, run_okOr_bind]
  simp only [Op.exec, StoreOp.exec, hc]
  rw [run_locked_perform_bind]
  simp only [Op.exec, hopen, decide_false, Bool.false_eq_true, if_false]
  rw [run_mapErr_bind, ht]
  dsimp only
  rw [genId, bind_assoc, run_perform_bind, pure_bind, run_locked_perform_bind]
  have hdash : "cs" ++ "-" = "cs-" := by decide
  simp only [Op.exec, StoreOp.exec, hdash, CheckoutSession.new_id,
    InMemoryStore.create_of_none hid, StoreOp.written]
  rfl

theorem placeOrder_run_refused {agentId message : String} {registry : AgentRegistry}
    (h : d.agents.chargeAgent agentId session.totals.total = (.error message, registry)) :
    (placeOrder (some agentId) id session now issuedAt).run Op.exec d =
      (.error (.spendLimit message), d) := by
  obtain rfl := AgentRegistry.chargeAgent_error h
  rw [placeOrder_some, Fallible.run_bind, chargeAgent, run_locked_perform_bind]
  dsimp only [Op.exec]
  rw [h]
  rfl

def charge (agent : Option String) (amount : Amount) (registry : AgentRegistry) :
    Except String Unit × AgentRegistry :=
  match agent with
  | some agentId => registry.chargeAgent agentId amount
  | none => (.ok (), registry)

def issue (agent : Option String) (order : Order) (amount : Amount) (issuedAt : Int64)
    (audit : AppendOnlyLog Receipt) : AppendOnlyLog Receipt :=
  match agent with
  | some agentId => (audit.push ⟨receiptId order.id, agentId, order.id, amount, issuedAt⟩).2
  | none => audit

theorem storeOrder_run (ho : d.orders.get (orderKey id) = none)
    (hs : (d.sessions.get id).isSome)
    (hst : ¬ (session.status ≠ .paid ∧ session.status.isTerminal = true)) :
    (storeOrder id session now).run Op.exec d =
      (.ok (Order.new (orderKey id) id session.totals now), { d with
        orders := d.orders.insert (orderKey id) (Order.new (orderKey id) id session.totals now)
        sessions := d.sessions.insert id { session with status := .paid }
        checkoutsCompleted := d.checkoutsCompleted + 1 }) := by
  obtain ⟨old, hs⟩ := Option.isSome_iff_exists.mp hs
  rw [storeOrder_of_completable now hst, run_perform_bind]
  simp only [Op.exec, StoreOp.exec, Order.new, InMemoryStore.create_of_none ho, StoreOp.written]
  rw [run_mapErr_bind]
  dsimp only
  rw [run_perform_bind]
  simp only [Op.exec, StoreOp.exec, InMemoryStore.update_of_some hs, StoreOp.written]
  rfl

/-- Once the agent is charged nothing can fail: every step that is left was
made possible by the checks. -/
theorem placeOrder_run_charged {registry : AgentRegistry}
    (hch : charge agent session.totals.total d.agents = (.ok (), registry))
    (ho : d.orders.get (orderKey id) = none) (hs : (d.sessions.get id).isSome)
    (hst : ¬ (session.status ≠ .paid ∧ session.status.isTerminal = true)) :
    let order := Order.new (orderKey id) id session.totals now
    (placeOrder agent id session now issuedAt).run Op.exec d =
      (.ok order, { d with
        agents := registry
        orders := d.orders.insert (orderKey id) order
        sessions := d.sessions.insert id { session with status := .paid }
        checkoutsCompleted := d.checkoutsCompleted + 1
        audit := issue agent order session.totals.total issuedAt d.audit }) := by
  cases agent with
  | none =>
      obtain ⟨-, rfl⟩ := Prod.mk.inj hch
      rw [placeOrder_none]
      exact storeOrder_run ho hs hst
  | some agentId =>
      have hstore : (storeOrder id session now).run Op.exec { d with agents := registry } = _ :=
        storeOrder_run ho hs hst
      rw [charge] at hch
      rw [placeOrder_some, Fallible.run_bind, chargeAgent, run_locked_perform_bind]
      simp only [Op.exec, hch, Fallible.run_mapErr, Except.mapError]
      rw [Fallible.run_bind, hstore]
      rfl

end Run

end AiterCommerce.Server
