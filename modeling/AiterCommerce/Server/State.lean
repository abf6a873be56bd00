import AiterCommerce.Concurrent.Fallible
import AiterCommerce.Core.Catalog
import AiterCommerce.Core.Receipt
import AiterCommerce.Core.Reserve
import AiterCommerce.Server.Config
import Mathlib.Data.String.Basic

namespace AiterCommerce.Server

open AiterCommerce.Core Concurrent

structure AgentRecord where
  identity : AgentIdentity
  spendLimit : Amount
  spent : Amount
  deriving DecidableEq

/-- The registry keeps a record under the id it names, and an agent spends in
the currency of its cap. -/
structure AgentRegistry where
  records : InMemoryStore String AgentRecord
  wellFormed : ∀ id r, records.get id = some r →
    r.identity.id = id ∧ r.spent.currency = r.spendLimit.currency

namespace AgentRegistry

def empty : AgentRegistry := ⟨.new, by simp⟩

def get (registry : AgentRegistry) (agentId : String) : Option AgentRecord :=
  registry.records.get agentId

def register (registry : AgentRegistry) (identity : AgentIdentity) (spendLimit : Amount) :
    AgentRegistry where
  records := registry.records.insert identity.id
    ⟨identity, spendLimit, Amount.zero spendLimit.currency⟩
  wellFormed id r h := by
    rw [InMemoryStore.get_insert] at h
    split at h
    · cases h; exact ⟨by simp_all, rfl⟩
    · exact registry.wellFormed id r h

def setSpent (registry : AgentRegistry) (agentId : String) (units : Int64) : AgentRegistry :=
  match h : registry.get agentId with
  | none => registry
  | some record =>
      { records := registry.records.insert agentId
          { record with spent := ⟨units, record.spent.currency⟩ }
        wellFormed := fun id r hr => by
          have hw := registry.wellFormed agentId record h
          rw [InMemoryStore.get_insert] at hr
          split at hr
          · cases hr; exact ⟨by simp_all, hw.2⟩
          · exact registry.wellFormed id r hr }

/-- The addition is the plain one of 64-bit values: it wraps. -/
def chargeAgent (registry : AgentRegistry) (agentId : String) (amount : Amount) :
    Except String Unit × AgentRegistry :=
  match registry.get agentId with
  | none => (.error ("unknown agent " ++ agentId), registry)
  | some record =>
      if record.spendLimit.currency ≠ amount.currency then
        (.error ("agent " ++ agentId ++ ": order currency " ++ amount.currency.code ++
          " does not match spend-limit currency " ++ record.spendLimit.currency.code), registry)
      else
        let next := record.spent.units + amount.units
        if record.spendLimit.units < next then
          (.error ("spend limit exceeded for agent " ++ agentId ++ ": " ++
            toString record.spent.units.toInt ++ " of " ++
            toString record.spendLimit.units.toInt ++ " minor units spent, order total " ++
            toString amount.units.toInt), registry)
        else (.ok (), registry.setSpent agentId next)

theorem get_register (registry : AgentRegistry) (identity : AgentIdentity) (spendLimit : Amount)
    (id : String) : (registry.register identity spendLimit).get id =
      if id = identity.id then some ⟨identity, spendLimit, Amount.zero spendLimit.currency⟩
      else registry.get id :=
  InMemoryStore.get_insert _ _ _ _

theorem get_setSpent (registry : AgentRegistry) (agentId : String) (units : Int64) (id : String) :
    (registry.setSpent agentId units).get id =
      if id = agentId then (registry.get agentId).map
        (fun record => { record with spent := ⟨units, record.spent.currency⟩ })
      else registry.get id := by
  rw [setSpent]
  split
  next h => split <;> simp_all
  next record h =>
    change (InMemoryStore.insert _ _ _).get id = _
    rw [InMemoryStore.get_insert, h]
    rfl

theorem chargeAgent_ok {registry registry' : AgentRegistry} {agentId : String} {amount : Amount}
    (h : registry.chargeAgent agentId amount = (.ok (), registry')) :
    ∃ record, registry.get agentId = some record ∧
      record.spendLimit.currency = amount.currency ∧
      ¬ record.spendLimit.units < record.spent.units + amount.units ∧
      registry' = registry.setSpent agentId (record.spent.units + amount.units) := by
  simp only [chargeAgent] at h
  split at h
  · cases h
  next record hr =>
    split at h
    · cases h
    next hc =>
      split at h
      · cases h
      next hl => cases h; exact ⟨record, hr, not_not.mp hc, hl, rfl⟩

theorem chargeAgent_error {registry registry' : AgentRegistry} {agentId message : String}
    {amount : Amount} (h : registry.chargeAgent agentId amount = (.error message, registry')) :
    registry' = registry := by
  simp only [chargeAgent] at h
  split at h
  · cases h; rfl
  · split at h
    · cases h; rfl
    · split at h
      · cases h; rfl
      · cases h

theorem ext {registry registry' : AgentRegistry} (h : ∀ id, registry.get id = registry'.get id) :
    registry = registry' := by
  obtain ⟨records, hw⟩ := registry
  obtain ⟨records', hw'⟩ := registry'
  obtain rfl : records = records' := InMemoryStore.ext h
  rfl

theorem get_setSpent_ne (registry : AgentRegistry) {agentId id : String} (h : id ≠ agentId)
    (units : Int64) : (registry.setSpent agentId units).get id = registry.get id := by
  rw [get_setSpent, if_neg h]

theorem get_chargeAgent_ne (registry : AgentRegistry) {agentId id : String} (h : id ≠ agentId)
    (amount : Amount) : (registry.chargeAgent agentId amount).2.get id = registry.get id := by
  cases hch : registry.chargeAgent agentId amount with
  | mk r registry' =>
      cases r with
      | error message => rw [chargeAgent_error hch]
      | ok u =>
          obtain ⟨record, -, -, -, rfl⟩ := chargeAgent_ok hch
          exact get_setSpent_ne registry h _

theorem chargeAgent_congr {registry registry' : AgentRegistry} {agentId : String}
    (h : registry'.get agentId = registry.get agentId) (amount : Amount) :
    (registry'.chargeAgent agentId amount).1 = (registry.chargeAgent agentId amount).1 ∧
      (registry'.chargeAgent agentId amount).2.get agentId =
        (registry.chargeAgent agentId amount).2.get agentId := by
  simp only [chargeAgent, h]
  cases hr : registry.get agentId with
  | none => exact ⟨rfl, h.trans rfl⟩
  | some record =>
      dsimp only
      split
      · exact ⟨rfl, h⟩
      · split
        · exact ⟨rfl, h⟩
        · exact ⟨rfl, by rw [get_setSpent, get_setSpent, h]⟩

theorem chargeAgent_snd_of_error {registry : AgentRegistry} {agentId message : String}
    {amount : Amount} (h : (registry.chargeAgent agentId amount).1 = .error message) :
    (registry.chargeAgent agentId amount).2 = registry := by
  cases hch : registry.chargeAgent agentId amount with
  | mk r registry' =>
      rw [hch] at h
      cases h
      exact chargeAgent_error hch

end AgentRegistry

inductive Lock
  | orders | sessions | agents | audit | carts | cancelledCarts | consents
  deriving DecidableEq

inductive StoreOp (V : Type)
  | get (key : String)
  | create (key : String) (item : V)
  | update (key : String) (item : V)

namespace StoreOp

variable {V : Type}

abbrev Resp : StoreOp V → Type
  | get _ => Option V
  | create _ _ | update _ _ => Except StoreError Unit

def written (store : InMemoryStore String V) :
    Except StoreError (InMemoryStore String V) → Except StoreError Unit × InMemoryStore String V
  | .ok store' => (.ok (), store')
  | .error e => (.error e, store)

def exec : (o : StoreOp V) → InMemoryStore String V → o.Resp × InMemoryStore String V
  | get key, store => (store.get key, store)
  | create key item, store => written store (store.create key item)
  | update key item, store => written store (store.update key item)

theorem get_exec {o : StoreOp V} {store : InMemoryStore String V} {k : String} {y : V}
    (h : (o.exec store).2.get k = some y) :
    store.get k = some y ∨ (o = .create k y ∧ store.get k = none) ∨
      (o = .update k y ∧ (store.get k).isSome) := by
  cases o with
  | get key => exact .inl h
  | create key item =>
      simp only [exec, InMemoryStore.create] at h
      split at h
      · exact .inl h
      next hn =>
        simp only [written, InMemoryStore.get_insert] at h
        split at h
        next hk => subst hk; cases h; exact .inr (.inl ⟨rfl, by simpa using hn⟩)
        next => exact .inl h
  | update key item =>
      simp only [exec, InMemoryStore.update] at h
      split at h
      next hs =>
        simp only [written, InMemoryStore.get_insert] at h
        split at h
        next hk => subst hk; cases h; exact .inr (.inr ⟨rfl, hs⟩)
        next => exact .inl h
      · exact .inl h

theorem get_exec_of_some (o : StoreOp V) {store : InMemoryStore String V} {k : String} {x : V}
    (h : store.get k = some x) : (o.exec store).2.get k = some x ∨
      ∃ y, o = .update k y ∧ (o.exec store).2.get k = some y := by
  cases o with
  | get key => exact .inl h
  | create key y =>
      simp only [exec, InMemoryStore.create]
      split
      · exact .inl h
      next hk =>
        have hne : k ≠ key := by rintro rfl; simp [h] at hk
        exact .inl ((InMemoryStore.get_insert_ne _ hne y).trans h)
  | update key y =>
      simp only [exec, InMemoryStore.update]
      split
      · by_cases hk : k = key
        · subst hk
          exact .inr ⟨y, rfl, InMemoryStore.get_insert_self _ _ _⟩
        · exact .inl ((InMemoryStore.get_insert_ne _ hk y).trans h)
      · exact .inl h

theorem get_exec_eq_none {o : StoreOp V} {store : InMemoryStore String V} {k : String}
    (h : (o.exec store).2.get k = none) : store.get k = none := by
  cases hx : store.get k with
  | none => rfl
  | some x =>
      rcases get_exec_of_some o hx with hy | ⟨y, -, hy⟩ <;>
        rw [h] at hy <;> cases hy

theorem exec_of_read {o : StoreOp V} (hc : ∀ key x, o ≠ .create key x)
    (hu : ∀ key x, o ≠ .update key x) (store : InMemoryStore String V) :
    (o.exec store).2 = store := by
  cases o with
  | get key => rfl
  | create key x => exact absurd rfl (hc key x)
  | update key x => exact absurd rfl (hu key x)

end StoreOp

/-- The steps of the handlers on shared state: store accesses, whole critical
sections of the registry and the log, atomic counters, and the outgoing call. -/
inductive Op
  | carts (o : StoreOp Cart)
  | sessions (o : StoreOp CheckoutSession)
  | orders (o : StoreOp Order)
  | consents (o : StoreOp Consent)
  | cartCancelled (id : String)
  | cancelCart (id : String)
  | agentIdentity (agentId : String)
  | registerAgent (identity : AgentIdentity) (spendLimit : Amount)
  | chargeAgent (agentId : String) (amount : Amount)
  | pushReceipt (receipt : Receipt)
  | fetchId
  | checkoutCompleted
  | webhookVerified
  | reserveDebited
  | postPaymentLink (request : PaymentLinkRequest)

abbrev Op.Resp : Op → Type
  | carts o => o.Resp
  | sessions o => o.Resp
  | orders o => o.Resp
  | consents o => o.Resp
  | cartCancelled _ => Bool
  | agentIdentity _ => Option AgentIdentity
  | chargeAgent _ _ => Except String Unit
  | pushReceipt _ => Nat
  | fetchId => UInt64
  | cancelCart _ | registerAgent _ _ | checkoutCompleted | webhookVerified | reserveDebited
  | postPaymentLink _ => Unit

abbrev appSignature : Interface := ⟨Op, Op.Resp, Lock⟩

/-- The mutable part of the application state. The counter of completed
checkouts never passes the number of stored orders, so it cannot wrap. -/
structure Data where
  carts : InMemoryStore String Cart
  cancelledCarts : Finset String
  sessions : InMemoryStore String CheckoutSession
  orders : InMemoryStore String Order
  nextId : UInt64
  agents : AgentRegistry
  audit : AppendOnlyLog Receipt
  consents : InMemoryStore String Consent
  checkoutsCompleted : Nat
  webhooksVerified : UInt64
  reserveDebits : UInt64

def Op.exec : (o : Op) → Data → o.Resp × Data
  | carts o, d => ((o.exec d.carts).1, { d with carts := (o.exec d.carts).2 })
  | sessions o, d => ((o.exec d.sessions).1, { d with sessions := (o.exec d.sessions).2 })
  | orders o, d => ((o.exec d.orders).1, { d with orders := (o.exec d.orders).2 })
  | consents o, d => ((o.exec d.consents).1, { d with consents := (o.exec d.consents).2 })
  | cartCancelled id, d => (decide (id ∈ d.cancelledCarts), d)
  | cancelCart id, d => ((), { d with cancelledCarts := insert id d.cancelledCarts })
  | agentIdentity agentId, d => ((d.agents.get agentId).map AgentRecord.identity, d)
  | registerAgent identity spendLimit, d =>
      ((), { d with agents := d.agents.register identity spendLimit })
  | chargeAgent agentId amount, d =>
      ((d.agents.chargeAgent agentId amount).1,
        { d with agents := (d.agents.chargeAgent agentId amount).2 })
  | pushReceipt receipt, d => ((d.audit.push receipt).1, { d with audit := (d.audit.push receipt).2 })
  | fetchId, d => (d.nextId, { d with nextId := d.nextId + 1 })
  | checkoutCompleted, d => ((), { d with checkoutsCompleted := d.checkoutsCompleted + 1 })
  | webhookVerified, d => ((), { d with webhooksVerified := d.webhooksVerified + 1 })
  | reserveDebited, d => ((), { d with reserveDebits := d.reserveDebits + 1 })
  | postPaymentLink _, d => ((), d)

/-- The locks a handler holds at an operation. Charges and receipts have locks
of their own and the counter of completed checkouts has none, but they are only
ever made under the orders lock. -/
def Op.need : Op → Lock → Prop
  | carts _, l => l = .carts
  | sessions _, l => l = .sessions
  | orders _, l => l = .orders
  | consents _, l => l = .consents
  | cartCancelled _, l | cancelCart _, l => l = .cancelledCarts
  | agentIdentity _, l | registerAgent _ _, l => l = .agents
  | chargeAgent _ _, l => l = .agents ∨ l = .orders
  | pushReceipt _, l => l = .audit ∨ l = .orders
  | checkoutCompleted, l => l = .orders
  | reserveDebited, l => l = .consents
  | fetchId, _ | webhookVerified, _ | postPaymentLink _, _ => False

/-- What stays as it is while a task holds the lock. -/
def Lock.same : Lock → Data → Data → Prop
  | orders, a, b =>
      b.orders = a.orders ∧ b.audit = a.audit ∧ b.checkoutsCompleted = a.checkoutsCompleted
  | sessions, a, b => b.sessions = a.sessions
  | agents, a, b => b.agents = a.agents
  | audit, a, b => b.audit = a.audit
  | carts, a, b => b.carts = a.carts
  | cancelledCarts, a, b => b.cancelledCarts = a.cancelledCarts
  | consents, a, b => b.consents = a.consents ∧ b.reserveDebits = a.reserveDebits

theorem Lock.same_refl (l : Lock) (d : Data) : l.same d d := by
  cases l <;> simp [same]

theorem Lock.same_trans (l : Lock) {a b c : Data} (h : l.same a b) (h' : l.same b c) :
    l.same a c := by
  cases l <;> simp_all [same]

theorem Op.frame (o : Op) (l : Lock) (d : Data) (h : ¬ o.need l) : l.same d (o.exec d).2 := by
  cases o <;> cases l <;> simp_all [need, Lock.same, exec]

/-- The shared immutable part: the catalog and the loaded payment settings. -/
structure AppState where
  products : List Product
  razorpay : Option RazorpaySettings

def AppState.new (products : List Product) (razorpay : Option RazorpaySettings) : AppState :=
  ⟨products.mergeSort (fun a b => decide (a.id ≤ b.id)), razorpay⟩

theorem AppState.new_sorted (products : List Product) (razorpay : Option RazorpaySettings) :
    (new products razorpay).products.Pairwise (fun a b => a.id ≤ b.id) := by
  have htrans (a b c : Product) (hab : decide (a.id ≤ b.id) = true)
      (hbc : decide (b.id ≤ c.id) = true) : decide (a.id ≤ c.id) = true :=
    decide_eq_true (String.le_trans (of_decide_eq_true hab) (of_decide_eq_true hbc))
  have htotal (a b : Product) : (decide (a.id ≤ b.id) || decide (b.id ≤ a.id)) = true := by
    rw [Bool.or_eq_true, decide_eq_true_iff, decide_eq_true_iff]
    exact String.le_total a.id b.id
  exact (List.pairwise_mergeSort htrans htotal products).imp of_decide_eq_true

def AppState.priceOf (st : AppState) (id : String) : Option Amount :=
  (st.products.find? (fun p => p.id = id)).map Product.price

def AppState.Valid (st : AppState) : Prop := ∀ p ∈ st.products, p.validate = .ok ()

theorem AppState.priceOf_nonneg {st : AppState} (hst : st.Valid) {id : String} {price : Amount}
    (h : st.priceOf id = some price) : 0 ≤ price.units.toInt := by
  obtain ⟨p, hp, rfl⟩ := Option.map_eq_some_iff.mp h
  exact Product.price_nonneg (hst p (List.mem_of_find?_eq_some hp))

def demoAgentId : String := "agent-demo"

def demoAgentCap : Int64 := 1000000000

/-- The fixed public seed: a text padded to 32 bytes. -/
def demoAgentSeed : Bytes :=
  [0x64, 0x65, 0x6d, 0x6f, 0x2d, 0x61, 0x67, 0x65, 0x6e, 0x74, 0x2d, 0x73, 0x65, 0x65, 0x64, 0x00,
    0x01, 0x02, 0x03, 0x04, 0x05, 0x06, 0x07, 0x08, 0x09, 0x0a, 0x0b, 0x0c, 0x0d, 0x0e, 0x0f, 0x10]

def demoAgent (crypto : Crypto) : AgentIdentity :=
  SigningKey.identity crypto ⟨demoAgentSeed⟩ demoAgentId

def Data.new (crypto : Crypto) : Data where
  carts := .new
  cancelledCarts := ∅
  sessions := .new
  orders := .new
  nextId := 0
  agents := AgentRegistry.empty.register (demoAgent crypto) ⟨demoAgentCap, .USD⟩
  audit := .new
  consents := .new
  checkoutsCompleted := 0
  webhooksVerified := 0
  reserveDebits := 0

abbrev Handler (ε α : Type) := Fallible appSignature ε α

abbrev perform {ε : Type} (o : Op) : Handler ε o.Resp :=
  @Fallible.perform appSignature ε o

theorem run_perform_bind {ε α : Type} (o : Op) (f : o.Resp → Handler ε α) (d : Data) :
    (perform o >>= f).run Op.exec d = (f (o.exec d).1).run Op.exec (o.exec d).2 := rfl

theorem run_locked_perform_bind {ε α : Type} (l : Lock) (o : Op) (f : o.Resp → Handler ε α)
    (d : Data) : (Fallible.locked l (perform o) >>= f).run Op.exec d =
      (f (o.exec d).1).run Op.exec (o.exec d).2 := rfl

theorem run_mapErr_bind {ε ε' α β : Type} (f : ε' → ε) (x : Except ε' α) (g : α → Handler ε β)
    (d : Data) : (Fallible.mapErr f x >>= g).run Op.exec d =
      match x with
      | .ok a => (g a).run Op.exec d
      | .error e => (.error (f e), d) := by
  cases x <;> rfl

theorem run_okOr_bind {ε α β : Type} (e : ε) (x : Option α) (g : α → Handler ε β) (d : Data) :
    (Fallible.okOr e x >>= g).run Op.exec d =
      match x with
      | some a => (g a).run Op.exec d
      | none => (.error e, d) := by
  cases x <;> rfl

def genId {ε : Type} (kind : String) : Handler ε String := do
  let n ← perform .fetchId
  return kind ++ "-" ++ toString (UInt64.toNat n)

end AiterCommerce.Server
