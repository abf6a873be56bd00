import AiterCommerce.Guarantees.Money

namespace AiterCommerce.Guarantees.Stages

open AiterCommerce.Core Concurrent Server Books
open Money (PaidBy)

/-- Where a checkout stands, from its session to the payment of its order. -/
inductive Stage
  | absent
  | pending
  | cancelled
  | placed (total : Amount)
  | paid (total : Amount) (reference : String)
  deriving DecidableEq

abbrev Orders := InMemoryStore String Order

abbrev Sessions := InMemoryStore String CheckoutSession

def Stage.ofOrder (o : Order) : Stage :=
  match o.paymentReference with
  | some reference => .paid o.totals.total reference
  | none => .placed o.totals.total

def Stage.ofSession (x : CheckoutSession) : Stage :=
  if x.status = .cancelled then .cancelled else .pending

def stage (orders : Orders) (sessions : Sessions) (k : String) : Stage :=
  match orders.get (orderKey k) with
  | some o => .ofOrder o
  | none => match sessions.get k with
    | some x => .ofSession x
    | none => .absent

def stageOf (d : Data) (k : String) : Stage := stage d.orders d.sessions k

/-- The moves of a checkout, and the request behind each of them. -/
inductive Moves (ext : Platform) (st : AppState) (q : Request) (k : String) : Stage → Stage → Prop
  | created (body : CreateSessionRequest) (now : Int64)
      (hq : q.call = .createCheckoutSession body now) : Moves ext st q k .absent .pending
  | cancelled (hq : q.call = .cancelCheckout k) : Moves ext st q k .pending .cancelled
  | completed (total : Amount) (hq : completes q = some k) :
      Moves ext st q k .pending (.placed total)
  | paid (total : Amount) (reference : String)
      (hq : PaidBy ext st q (orderKey k) total reference) :
      Moves ext st q k (.placed total) (.paid total reference)

def Step (ext : Platform) (st : AppState) (q : Request) (before after : String → Stage) : Prop :=
  after = before ∨ ∃ k, Moves ext st q k (before k) (after k) ∧ ∀ k', k' ≠ k → after k' = before k'

/-- An order as its completion placed it, or as its payment confirmed it. -/
inductive Shaped (k : String) : Order → Prop
  | placed (totals : Totals) (t : Int64) : Shaped k (Order.new (orderKey k) k totals t)
  | paid (totals : Totals) (t t' : Int64) (reference : String) : Shaped k
      ⟨orderKey k, k, totals, .confirmed, [⟨.placed, t⟩, ⟨.confirmed, t'⟩], some reference⟩

/-- Orders are those of sessions that were not cancelled, and paid sessions have theirs. -/
structure Consistent (orders : Orders) (sessions : Sessions) : Prop where
  order : ∀ key o, orders.get key = some o → ∃ k x, key = orderKey k ∧ Shaped k o ∧
    sessions.get k = some x ∧ x.status ≠ .cancelled ∧ o.totals = x.totals
  session : ∀ k x, sessions.get k = some x → x.status = .pending ∨ x.status = .cancelled ∨
    x.status = .paid ∧ (orders.get (orderKey k)).isSome

/-- Every order is that of a paid session. -/
def Settled (orders : Orders) (sessions : Sessions) : Prop :=
  ∀ k, (orders.get (orderKey k)).isSome → ∃ x, sessions.get k = some x ∧ x.status = .paid

variable {ext : Platform} {st : AppState} {q : Request} {orders : Orders} {sessions : Sessions}
  {k : String}

theorem stage_of_order {o : Order} (h : orders.get (orderKey k) = some o) :
    stage orders sessions k = .ofOrder o := by
  rw [stage, h]

theorem stage_of_session {x : CheckoutSession} (ho : orders.get (orderKey k) = none)
    (hs : sessions.get k = some x) : stage orders sessions k = .ofSession x := by
  rw [stage, ho, hs]

theorem stage_congr {orders' : Orders} {sessions' : Sessions}
    (ho : orders'.get (orderKey k) = orders.get (orderKey k))
    (hs : sessions'.get k = sessions.get k) :
    stage orders' sessions' k = stage orders sessions k := by
  rw [stage, ho, hs, stage]

theorem stage_insert_session {k' : String} (x : CheckoutSession) (h : k' ≠ k) :
    stage orders (sessions.insert k x) k' = stage orders sessions k' :=
  stage_congr rfl (InMemoryStore.get_insert_ne _ h x)

theorem stage_insert_order {k' : String} (o : Order) (h : k' ≠ k) :
    stage (orders.insert (orderKey k) o) sessions k' = stage orders sessions k' :=
  stage_congr (InMemoryStore.get_insert_ne _ (fun he => h (orderKey_injective he)) o) rfl

theorem Consistent.open_of_completable (h : Consistent orders sessions) {x : CheckoutSession}
    (hs : sessions.get k = some x) (ho : orders.get (orderKey k) = none)
    (hx : ¬ (x.status ≠ .paid ∧ x.status.isTerminal = true)) : x.status = .pending := by
  rcases h.session k x hs with hp | hc | ⟨-, hsome⟩
  · exact hp
  · rw [hc] at hx
    exact absurd ⟨by simp, rfl⟩ hx
  · rw [ho] at hsome
    cases hsome

theorem Consistent.order_of_session_none (h : Consistent orders sessions)
    (hs : sessions.get k = none) : orders.get (orderKey k) = none := by
  cases ho : orders.get (orderKey k) with
  | none => rfl
  | some o =>
      obtain ⟨k', x, hk, -, hx, -⟩ := h.order _ o ho
      rw [← orderKey_injective hk, hs] at hx
      cases hx

section Writes

theorem Consistent.createSession (h : Consistent orders sessions) {x : CheckoutSession}
    (hs : sessions.get k = none) (hx : x.status = .pending) :
    Consistent orders (sessions.insert k x) where
  order key o ho := by
    obtain ⟨k', y, hk, hshape, hy, hc, ht⟩ := h.order key o ho
    have hne : k' ≠ k := by
      rintro rfl
      rw [hs] at hy
      cases hy
    exact ⟨k', y, hk, hshape, (InMemoryStore.get_insert_ne _ hne x).trans hy, hc, ht⟩
  session k' y hy := by
    rw [InMemoryStore.get_insert] at hy
    split at hy
    next =>
      cases hy
      exact .inl hx
    next => exact h.session k' y hy

theorem Consistent.updateSession (h : Consistent orders sessions) {x : CheckoutSession}
    {status : CheckoutStatus} (hs : sessions.get k = some x)
    (hx : status = .cancelled ∧ orders.get (orderKey k) = none ∨
      status = .paid ∧ (orders.get (orderKey k)).isSome) :
    Consistent orders (sessions.insert k { x with status := status }) where
  order key o ho := by
    obtain ⟨k', y, hk, hshape, hy, hc, ht⟩ := h.order key o ho
    by_cases hne : k' = k
    · subst hne
      obtain rfl := Option.some.inj (hs.symm.trans hy)
      refine ⟨k', _, hk, hshape, InMemoryStore.get_insert_self _ _ _, ?_, ht⟩
      rcases hx with ⟨-, hnone⟩ | ⟨rfl, -⟩
      · rw [← hk, ho] at hnone
        cases hnone
      · simp
    · exact ⟨k', y, hk, hshape, (InMemoryStore.get_insert_ne _ hne _).trans hy, hc, ht⟩
  session k' y hy := by
    rw [InMemoryStore.get_insert] at hy
    split at hy
    next hk =>
      cases hy
      subst hk
      rcases hx with ⟨rfl, -⟩ | ⟨rfl, hsome⟩
      · exact .inr (.inl rfl)
      · exact .inr (.inr ⟨rfl, hsome⟩)
    next => exact h.session k' y hy

theorem Consistent.insertOrder (h : Consistent orders sessions) {x : CheckoutSession} {o : Order}
    (hs : sessions.get k = some x) (hc : x.status ≠ .cancelled) (hshape : Shaped k o)
    (ht : o.totals = x.totals) : Consistent (orders.insert (orderKey k) o) sessions where
  order key o' ho := by
    rw [InMemoryStore.get_insert] at ho
    split at ho
    next hk =>
      cases ho
      exact ⟨k, x, hk, hshape, hs, hc, ht⟩
    next => exact h.order key o' ho
  session k' y hy := by
    rcases h.session k' y hy with hp | hcan | ⟨hp, hsome⟩
    · exact .inl hp
    · exact .inr (.inl hcan)
    · refine .inr (.inr ⟨hp, ?_⟩)
      rw [InMemoryStore.get_insert]
      split
      · rfl
      · exact hsome

theorem Settled.createSession (h : Settled orders sessions) {x : CheckoutSession}
    (hs : sessions.get k = none) : Settled orders (sessions.insert k x) := by
  intro k' ho
  obtain ⟨y, hy, hp⟩ := h k' ho
  have hne : k' ≠ k := by
    rintro rfl
    rw [hs] at hy
    cases hy
  exact ⟨y, (InMemoryStore.get_insert_ne _ hne x).trans hy, hp⟩

theorem Settled.cancelSession (h : Settled orders sessions) {x : CheckoutSession}
    (hnone : orders.get (orderKey k) = none) : Settled orders (sessions.insert k x) := by
  intro k' ho
  have hne : k' ≠ k := by
    rintro rfl
    rw [hnone] at ho
    cases ho
  obtain ⟨y, hy, hp⟩ := h k' ho
  exact ⟨y, (InMemoryStore.get_insert_ne _ hne x).trans hy, hp⟩

theorem Settled.complete (h : Settled orders sessions) {x : CheckoutSession} (o : Order)
    (hx : x.status = .paid) :
    Settled (orders.insert (orderKey k) o) (sessions.insert k x) := by
  intro k' ho
  by_cases hk : k' = k
  · subst hk
    exact ⟨x, InMemoryStore.get_insert_self _ _ _, hx⟩
  · rw [InMemoryStore.get_insert_ne _ (fun he => hk (orderKey_injective he))] at ho
    obtain ⟨y, hy, hp⟩ := h k' ho
    exact ⟨y, (InMemoryStore.get_insert_ne _ hk x).trans hy, hp⟩

theorem Settled.rewriteOrder (h : Settled orders sessions) {key : String}
    (hsome : (orders.get key).isSome) (o : Order) : Settled (orders.insert key o) sessions := by
  intro k' ho
  apply h
  rw [InMemoryStore.get_insert] at ho
  split at ho
  next hk => rwa [hk]
  next => exact ho

end Writes

section Shapes

theorem Shaped.unpaid {o : Order} (h : Shaped k o) (hr : o.paymentReference = none) :
    ∃ totals t, o = Order.new (orderKey k) k totals t := by
  cases h with
  | placed totals t => exact ⟨totals, t, rfl⟩
  | paid totals t t' reference => cases hr

theorem Shaped.confirm {o : Order} (h : Shaped k o) (hr : o.paymentReference = none) (now : Int64)
    (reference : String) : ∃ confirmed, o.applyEvent .confirm now = .ok confirmed ∧
      Shaped k { confirmed with paymentReference := some reference } := by
  obtain ⟨totals, t, rfl⟩ := h.unpaid hr
  exact ⟨_, Order.applyEvent_placed_confirm rfl now, .paid totals t now reference⟩

end Shapes

end AiterCommerce.Guarantees.Stages
