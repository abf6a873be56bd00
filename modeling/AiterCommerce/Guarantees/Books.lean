import AiterCommerce.Server.Footprint

namespace AiterCommerce.Guarantees.Books

open AiterCommerce.Core Concurrent Server

abbrev Happening := Event appSignature Data Request

def completes (q : Request) : Option String :=
  match q.call with
  | .completeCheckout id _ _ => some id
  | _ => none

def chargeOf (k : String) : Happening → Option (String × Amount)
  | ⟨i, .chargeAgent a amount, .ok (), _⟩ =>
      if completes i.request = some k then some (a, amount) else none
  | _ => none

def creationOf (k : String) : Happening → Option (Option String)
  | ⟨i, .orders (.create key _), .ok (), _⟩ => if key = orderKey k then some i.request.agent else none
  | _ => none

theorem chargeOf_eq_some {k a : String} {amount : Amount} {e : Happening}
    (h : chargeOf k e = some (a, amount)) :
    e.op = .chargeAgent a amount ∧ completes e.actor.request = some k := by
  rw [chargeOf.eq_def] at h
  split at h
  next =>
    split at h
    next hk =>
      obtain ⟨rfl, rfl⟩ := Prod.mk.inj (Option.some.inj h)
      exact ⟨rfl, hk⟩
    next => cases h
  next => cases h

def receipts (k : String) (log : AppendOnlyLog Receipt) : List Receipt :=
  (log.entries.map AuditEntry.entry).filter (fun r => r.id = receiptId (orderKey k))

/-- What the completions are about: the stores they write, and what was charged
and created for each session. -/
structure View where
  orders : InMemoryStore String Order
  sessions : InMemoryStore String CheckoutSession
  audit : AppendOnlyLog Receipt
  completed : Nat
  created : String → List (Option String)
  charged : String → List (String × Amount)

def view (s : State) : View where
  orders := s.data.orders
  sessions := s.data.sessions
  audit := s.data.audit
  completed := s.data.checkoutsCompleted
  created k := s.history.filterMap (creationOf k)
  charged k := s.history.filterMap (chargeOf k)

theorem orderKey_injective : Function.Injective orderKey := by
  intro a b h
  have hl := congrArg String.toList h
  exact String.toList_inj.mp (by simpa [orderKey] using hl)

theorem receiptId_injective : Function.Injective receiptId := by
  intro a b h
  have hl := congrArg String.toList h
  exact String.toList_inj.mp (by simpa [receiptId] using hl)

namespace View

variable {v : View} {k : String}

structure Unplaced (v : View) (k : String) : Prop where
  order : v.orders.get (orderKey k) = none
  unpaid : ∀ x, v.sessions.get k = some x → x.status ≠ .paid
  created : v.created k = []
  charged : v.charged k = []
  receipts : receipts k v.audit = []

/-- The session is completed for an agent, if any, but for the receipt. -/
structure Placed (v : View) (k : String) (agent : Option String) (amount : Amount) : Prop where
  order : ∃ o, v.orders.get (orderKey k) = some o ∧ o.id = orderKey k ∧ o.checkoutSessionId = k
  paid : ∃ x, v.sessions.get k = some x ∧ x.status = .paid
  created : v.created k = [agent]
  charged : v.charged k = agent.toList.map (fun a => (a, amount))

def Receipted (v : View) (k : String) (agent : Option String) (amount : Amount) : Prop :=
  ∃ t, receipts k v.audit =
    agent.toList.map (fun a => ⟨receiptId (orderKey k), a, orderKey k, amount, t⟩)

def Settled (v : View) (k : String) : Prop :=
  v.Unplaced k ∨ ∃ agent amount, v.Placed k agent amount ∧ v.Receipted k agent amount

structure Quiet (v : View) : Prop where
  settled : ∀ k, v.Settled k
  counted : v.completed = v.orders.len

theorem Settled.unplaced (h : v.Settled k) (ho : v.orders.get (orderKey k) = none) :
    v.Unplaced k := by
  rcases h with h | ⟨agent, amount, hp, -⟩
  · exact h
  · obtain ⟨o, hs, -⟩ := hp.order
    rw [ho] at hs
    cases hs

theorem Settled.order_id (h : v.Settled k) {o : Order} (ho : v.orders.get (orderKey k) = some o) :
    o.id = orderKey k ∧ o.checkoutSessionId = k := by
  rcases h with h | ⟨agent, amount, hp, -⟩
  · cases h.order.symm.trans ho
  · obtain ⟨o', ho', hid⟩ := hp.order
    obtain rfl := Option.some.inj (ho'.symm.trans ho)
    exact hid

theorem Settled.order_iff (h : v.Settled k) : (v.orders.get (orderKey k)).isSome ↔
    ∃ x, v.sessions.get k = some x ∧ x.status = .paid := by
  rcases h with h | ⟨agent, amount, hp, -⟩
  · refine iff_of_false (by simp [h.order]) ?_
    rintro ⟨x, hx, hs⟩
    exact h.unpaid x hx hs
  · obtain ⟨o, ho, -⟩ := hp.order
    exact iff_of_true (by simp [ho]) hp.paid

theorem Settled.receipt_of_charged (h : v.Settled k) (hc : v.charged k ≠ []) :
    (v.orders.get (orderKey k)).isSome ∧ (receipts k v.audit).length = 1 := by
  rcases h with h | ⟨agent, amount, hp, t, hr⟩
  · exact absurd h.charged hc
  · obtain ⟨o, ho, -⟩ := hp.order
    cases agent with
    | none => exact absurd hp.charged hc
    | some a => exact ⟨by simp [ho], by simp [hr]⟩

theorem Settled.congr {w : View} (h : v.Settled k)
    (ho : w.orders.get (orderKey k) = v.orders.get (orderKey k))
    (hs : w.sessions.get k = v.sessions.get k) (hc : w.created k = v.created k)
    (hch : w.charged k = v.charged k) (hr : Books.receipts k w.audit = Books.receipts k v.audit) :
    w.Settled k := by
  rcases h with h | ⟨agent, amount, hp, hrc⟩
  · exact .inl ⟨ho.trans h.order, by rw [hs]; exact h.unpaid, hc.trans h.created,
      hch.trans h.charged, hr.trans h.receipts⟩
  · refine .inr ⟨agent, amount, ⟨?_, ?_, hc.trans hp.created, hch.trans hp.charged⟩, ?_⟩
    · rw [ho]; exact hp.order
    · rw [hs]; exact hp.paid
    · rw [Receipted, hr]; exact hrc

theorem Quiet.writeSession (h : v.Quiet) {id : String} {x : CheckoutSession}
    (hx : x.status ≠ .paid) (hold : ∀ y, v.sessions.get id = some y → y.status ≠ .paid) :
    ({ v with sessions := v.sessions.insert id x } : View).Quiet where
  counted := h.counted
  settled k := by
    by_cases hk : k = id
    · subst hk
      rcases h.settled k with hu | ⟨agent, amount, hp, -⟩
      · refine .inl ⟨hu.order, fun y hy => ?_, hu.created, hu.charged, hu.receipts⟩
        rw [InMemoryStore.get_insert_self] at hy
        cases hy
        exact hx
      · obtain ⟨y, hy, hs⟩ := hp.paid
        exact absurd hs (hold y hy)
    · exact (h.settled k).congr rfl (InMemoryStore.get_insert_ne _ hk x) rfl rfl rfl

theorem Quiet.rewriteOrder (h : v.Quiet) {key : String} {old new : Order}
    (hold : v.orders.get key = some old) (hid : new.id = old.id)
    (hs : new.checkoutSessionId = old.checkoutSessionId) :
    ({ v with orders := v.orders.insert key new } : View).Quiet where
  counted := h.counted.trans (InMemoryStore.len_insert_of_some (by simp [hold]) new).symm
  settled k := by
    by_cases hk : orderKey k = key
    · subst hk
      rcases h.settled k with hu | ⟨agent, amount, hp, hr⟩
      · rw [hu.order] at hold
        cases hold
      · refine .inr ⟨agent, amount, ⟨⟨new, InMemoryStore.get_insert_self _ _ _, ?_⟩, hp.paid,
          hp.created, hp.charged⟩, hr⟩
        obtain ⟨o, ho, hoid, hosid⟩ := hp.order
        rw [hold] at ho
        cases ho
        exact ⟨hid.trans hoid, hs.trans hosid⟩
    · exact (h.settled k).congr (InMemoryStore.get_insert_ne _ hk new) rfl rfl rfl rfl

/-- Everything is settled but the receipt of one completion. -/
structure Owed (v : View) (k : String) (agent : Option String) (amount : Amount) : Prop where
  placed : v.Placed k agent amount
  unreceipted : Books.receipts k v.audit = []
  others : ∀ k', k' ≠ k → v.Settled k'
  counted : v.completed = v.orders.len

def complete (v : View) (k : String) (agent : Option String) (order : Order)
    (paid : CheckoutSession) : View :=
  { v with
    orders := v.orders.insert (orderKey k) order
    sessions := v.sessions.insert k paid
    completed := v.completed + 1
    created := Function.update v.created k (agent :: v.created k)
    charged := Function.update v.charged k
      (agent.toList.map (fun a => (a, order.totals.total)) ++ v.charged k) }

theorem Quiet.complete (h : v.Quiet) (ho : v.orders.get (orderKey k) = none)
    (agent : Option String) {order : Order} {paid : CheckoutSession} (hid : order.id = orderKey k)
    (hk : order.checkoutSessionId = k) (hp : paid.status = .paid) :
    (v.complete k agent order paid).Owed k agent order.totals.total := by
  have hu := (h.settled k).unplaced ho
  refine ⟨⟨⟨order, InMemoryStore.get_insert_self _ _ _, hid, hk⟩,
    ⟨paid, InMemoryStore.get_insert_self _ _ _, hp⟩, ?_, ?_⟩, hu.receipts, fun k' hne => ?_, ?_⟩
  · simp [View.complete, hu.created]
  · simp [View.complete, hu.charged]
  · exact (h.settled k').congr
      (InMemoryStore.get_insert_ne _ (fun he => hne (orderKey_injective he)) _)
      (InMemoryStore.get_insert_ne _ hne _) (Function.update_of_ne hne _ _)
      (Function.update_of_ne hne _ _) rfl
  · exact (congrArg (· + 1) h.counted).trans (InMemoryStore.len_insert_of_none ho order).symm

theorem Owed.quiet_of_none {amount : Amount} (h : v.Owed k none amount) : v.Quiet where
  counted := h.counted
  settled k' := by
    by_cases hk : k' = k
    · subst hk
      exact .inr ⟨none, amount, h.placed, 0, h.unreceipted⟩
    · exact h.others k' hk

theorem receipts_push (log : AppendOnlyLog Receipt) (r : Receipt) (k : String) :
    Books.receipts k (log.push r).2 =
      Books.receipts k log ++ if r.id = receiptId (orderKey k) then [r] else [] := by
  rw [Books.receipts, AppendOnlyLog.push_entries, List.map_append, List.filter_append]
  congr 1
  by_cases h : r.id = receiptId (orderKey k) <;> simp [h]

theorem Owed.push {a : String} {amount : Amount} (h : v.Owed k (some a) amount) (t : Int64) :
    ({ v with audit := (v.audit.push
      ⟨receiptId (orderKey k), a, orderKey k, amount, t⟩).2 } : View).Quiet where
  counted := h.counted
  settled k' := by
    by_cases hk : k' = k
    · subst hk
      refine .inr ⟨some a, amount, ⟨h.placed.order, h.placed.paid, h.placed.created,
        h.placed.charged⟩, t, ?_⟩
      simp [receipts_push, h.unreceipted]
    · refine (h.others k' hk).congr rfl rfl rfl rfl ?_
      have hne : receiptId (orderKey k) ≠ receiptId (orderKey k') :=
        fun he => hk (orderKey_injective (receiptId_injective he)).symm
      rw [receipts_push, if_neg hne, List.append_nil]

end View

section Steps

variable {s : State} {i : Name Request}

def Apart : Op → Prop
  | .sessions (.create _ _) | .sessions (.update _ _) | .orders (.create _ _)
  | .orders (.update _ _) | .chargeAgent _ _ | .pushReceipt _ | .checkoutCompleted => False
  | _ => True

theorem view_perform_of_apart {o : Op} (h : Apart o) :
    view (s.perform Op.exec i o) = view s := by
  cases o with
  | sessions o | orders o => cases o <;> first | rfl | exact h.elim
  | chargeAgent a amount | pushReceipt r | checkoutCompleted => exact h.elim
  | _ => rfl

theorem view_perform_sessions (o : StoreOp CheckoutSession) :
    view (s.perform Op.exec i (.sessions o)) =
      { view s with sessions := (o.exec s.data.sessions).2 } := rfl

theorem view_perform_completed :
    view (s.perform Op.exec i .checkoutCompleted) =
      { view s with completed := (view s).completed + 1 } := rfl

theorem view_perform_pushReceipt (r : Receipt) :
    view (s.perform Op.exec i (.pushReceipt r)) =
      { view s with audit := ((view s).audit.push r).2 } := rfl

theorem view_perform_updateOrder {key : String} {old : Order} (new : Order)
    (h : s.data.orders.get key = some old) :
    view (s.perform Op.exec i (.orders (.update key new))) =
      { view s with orders := s.data.orders.insert key new } := by
  simp only [view, Shared.perform, Op.exec, StoreOp.exec, InMemoryStore.update_of_some h,
    StoreOp.written, List.filterMap_cons, creationOf, chargeOf]

theorem view_perform_createOrder {k : String} (order : Order)
    (h : s.data.orders.get (orderKey k) = none) :
    view (s.perform Op.exec i (.orders (.create (orderKey k) order))) =
      { view s with
        orders := s.data.orders.insert (orderKey k) order
        created := Function.update (view s).created k
          (i.request.agent :: (view s).created k) } := by
  have hc (k' : String) : creationOf k' ⟨i, .orders (.create (orderKey k) order), .ok (), s.data⟩ =
      if k' = k then some i.request.agent else none := by
    rw [creationOf]
    exact if_congr (orderKey_injective.eq_iff.trans eq_comm) rfl rfl
  simp only [view, Shared.perform, Op.exec, StoreOp.exec, InMemoryStore.create_of_none h,
    StoreOp.written, List.filterMap_cons, hc, chargeOf, View.mk.injEq, true_and, and_true]
  funext k'
  by_cases hk : k' = k
  · subst hk
    simp
  · simp [hk]

theorem view_perform_charge {k a : String} {amount : Amount} (hk : completes i.request = some k)
    (h : (s.data.agents.chargeAgent a amount).1 = .ok ()) :
    view (s.perform Op.exec i (.chargeAgent a amount)) =
      { view s with
        charged := Function.update (view s).charged k ((a, amount) :: (view s).charged k) } := by
  have hc (k' : String) : chargeOf k' ⟨i, .chargeAgent a amount, .ok (), s.data⟩ =
      if k' = k then some (a, amount) else none := by
    rw [chargeOf, hk]
    exact if_congr (Option.some_inj.trans eq_comm) rfl rfl
  simp only [view, Shared.perform, Op.exec, h, List.filterMap_cons, hc, creationOf, View.mk.injEq,
    true_and]
  funext k'
  by_cases hk' : k' = k
  · subst hk'
    simp
  · simp [hk']

theorem view_perform_refused {a message : String} {amount : Amount}
    (h : (s.data.agents.chargeAgent a amount).1 = .error message) :
    view (s.perform Op.exec i (.chargeAgent a amount)) = view s := by
  simp only [view, Shared.perform, Op.exec, h, List.filterMap_cons, chargeOf, creationOf]

theorem creationOf_of_free {e : Happening} (h : ¬ e.op.need .orders) (k : String) :
    creationOf k e = none := by
  obtain ⟨j, o, r, d⟩ := e
  cases o with
  | orders o => exact absurd rfl h
  | _ => rfl

theorem chargeOf_of_free {e : Happening} (h : ¬ e.op.need .orders) (k : String) :
    chargeOf k e = none := by
  obtain ⟨j, o, r, d⟩ := e
  cases o with
  | chargeAgent a amount => exact absurd (.inr rfl) h
  | _ => rfl

end Steps

end AiterCommerce.Guarantees.Books
