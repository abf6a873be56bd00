import AiterCommerce.Server.System

namespace AiterCommerce.Guarantees.Reconcile

open AiterCommerce.Core Server

structure Delivery where
  body : Bytes
  signature : String
  now : Int64
  deriving DecidableEq

def Delivery.at (x : Delivery) (now : Int64) : Delivery := { x with now }

structure Payment where
  entity : WebhookPaymentEntity
  now : Int64

structure AsPlaced (order : Order) : Prop where
  status : order.status = .placed
  unpaid : order.paymentReference = none
  timeline : ∃ t, order.timeline = [⟨.placed, t⟩]

def settle (order : Order) (p : Payment) : Order :=
  if order.paymentReference = none ∧ Settles p.entity order then
    match order.applyEvent .confirm p.now with
    | .ok confirmed => { confirmed with paymentReference := some p.entity.id }
    | .error _ => order
  else order

def confirmedBy (order : Order) (p : Payment) : Order :=
  { order with
    status := .confirmed
    timeline := order.timeline ++ [⟨.confirmed, p.now⟩]
    paymentReference := some p.entity.id }

/-- The first payment of the right amount and currency counts. -/
def outcome (order : Order) (ps : List Payment) : Order :=
  (ps.find? (fun p => Settles p.entity order)).elim order (confirmedBy order)

section Settle

variable {order : Order}

theorem settle_of_paid {reference : String} (h : order.paymentReference = some reference)
    (p : Payment) : settle order p = order := by
  rw [settle, if_neg (by simp [h])]

theorem settle_of_placed (h : AsPlaced order) (p : Payment) :
    settle order p = if Settles p.entity order then confirmedBy order p else order := by
  rw [settle, Order.applyEvent_placed_confirm h.status]
  simp only [h.unpaid, true_and]
  rfl

theorem foldl_settle_of_paid {reference : String} (h : order.paymentReference = some reference)
    (ps : List Payment) : ps.foldl settle order = order := by
  induction ps with
  | nil => rfl
  | cons p ps ih => rw [List.foldl_cons, settle_of_paid h, ih]

theorem foldl_settle_of_placed (h : AsPlaced order) (ps : List Payment) :
    ps.foldl settle order = outcome order ps := by
  induction ps with
  | nil => rfl
  | cons p ps ih =>
      rw [List.foldl_cons, settle_of_placed h, outcome, List.find?_cons]
      by_cases hs : Settles p.entity order
      · rw [if_pos hs, decide_eq_true hs]
        exact foldl_settle_of_paid rfl ps
      · rw [if_neg hs, decide_eq_false hs]
        exact ih

def untimed (order : Order) : Order :=
  { order with timeline := order.timeline.map (fun entry => { entry with atTime := 0 }) }

theorem untimed_settle (order : Order) (entity : WebhookPaymentEntity) (t t' : Int64) :
    untimed (settle order ⟨entity, t⟩) = untimed (settle order ⟨entity, t'⟩) := by
  simp only [settle]
  by_cases hs : order.paymentReference = none ∧ Settles entity order
  · rw [if_pos hs, if_pos hs]
    simp only [Order.applyEvent]
    cases orderCanTransition order.status .confirm with
    | false => rfl
    | true =>
        by_cases hc : order.status = OrderEvent.targetStatus .confirm
        · simp only [if_true, if_pos hc]
        · simp only [if_true, if_neg hc, untimed, List.map_append, List.map_cons, List.map_nil]
  · rw [if_neg hs, if_neg hs]

end Settle

variable (crypto : Crypto) (reader : EnvelopeReader) (client : RazorpayConfig)

def reply (d : Data) (x : Delivery) : Except WebhookError WebhookOutcome :=
  ((processPaymentWebhook crypto reader client x.body x.signature x.now).run Op.exec d).1

def deliver (d : Data) (x : Delivery) : Data :=
  ((processPaymentWebhook crypto reader client x.body x.signature x.now).run Op.exec d).2

def deliverAll (d : Data) (xs : List Delivery) : Data := xs.foldl (deliver crypto reader client) d

/-- The payment a delivery reports for an order: it verifies, has the event of a
paid payment and names the order. -/
def paymentFor (orderId : String) (x : Delivery) : Option Payment :=
  match reported crypto reader client x.body x.signature with
  | .ok (some (id, entity)) => if id = orderId then some ⟨entity, x.now⟩ else none
  | _ => none

variable {crypto reader client}

theorem deliver_eq_of_error {d : Data} {x : Delivery} {e : WebhookError}
    (h : reply crypto reader client d x = .error e) : deliver crypto reader client d x = d :=
  processPaymentWebhook_run_error h

theorem get_deliver (d : Data) (x : Delivery) (k : String) :
    (deliver crypto reader client d x).orders.get k =
      (d.orders.get k).map
        (fun order => (paymentFor crypto reader client k x).elim order (settle order)) := by
  rw [deliver, processPaymentWebhook_run, paymentFor]
  cases reported crypto reader client x.body x.signature with
  | error e => simp
  | ok r =>
      cases r with
      | none => simp
      | some pair =>
          obtain ⟨orderId, entity⟩ := pair
          simp only [reconcilePayment_run]
          by_cases hk : orderId = k
          · subst hk
            simp only [if_true, Option.elim_some]
            cases ho : d.orders.get orderId with
            | none => simp [ho]
            | some order =>
                simp only [Option.map_some, settle]
                cases order.paymentReference with
                | some reference => simp [ho]
                | none =>
                    simp only [true_and]
                    split
                    · cases order.applyEvent .confirm x.now <;> simp [ho]
                    · exact ho
          · have hid : (d.orders.get k).map (fun order => order) = d.orders.get k := by simp
            simp only [if_neg hk, Option.elim_none, hid]
            repeat' split
            all_goals first | rfl | exact InMemoryStore.get_insert_ne _ (Ne.symm hk) _

theorem get_deliverAll (d : Data) (xs : List Delivery) (k : String) :
    (deliverAll crypto reader client d xs).orders.get k = (d.orders.get k).map
      (fun order => (xs.filterMap (paymentFor crypto reader client k)).foldl settle order) := by
  induction xs generalizing d with
  | nil => simp [deliverAll]
  | cons x xs ih =>
      rw [deliverAll, List.foldl_cons, ← deliverAll, ih, get_deliver, Option.map_map]
      congr 1
      funext order
      rw [List.filterMap_cons]
      cases paymentFor crypto reader client k x <;> rfl

theorem paymentFor_at (k : String) (x : Delivery) (t : Int64) :
    paymentFor crypto reader client k (x.at t) =
      (paymentFor crypto reader client k x).map (fun p => ⟨p.entity, t⟩) := by
  simp only [paymentFor, Delivery.at]
  repeat' split
  all_goals rfl

variable (crypto reader client) in
/-- No order is named by both deliveries. -/
def Apart (x y : Delivery) : Prop :=
  ∀ k, paymentFor crypto reader client k x = none ∨ paymentFor crypto reader client k y = none

theorem deliverAll_comm {x y : Delivery} (h : Apart crypto reader client x y) (d : Data)
    (t₁ t₂ t₃ t₄ : Int64) (k : String) :
    ((deliverAll crypto reader client d [x.at t₁, y.at t₂]).orders.get k).map untimed =
      ((deliverAll crypto reader client d [y.at t₃, x.at t₄]).orders.get k).map untimed := by
  rw [get_deliverAll, get_deliverAll, Option.map_map, Option.map_map]
  congr 1
  funext order
  simp only [Function.comp_apply, List.filterMap_cons, List.filterMap_nil, paymentFor_at]
  rcases h k with hx | hy
  · rw [hx]
    cases paymentFor crypto reader client k y with
    | none => rfl
    | some p => exact untimed_settle order p.entity t₂ t₃
  · rw [hy]
    cases paymentFor crypto reader client k x with
    | none => rfl
    | some p => exact untimed_settle order p.entity t₁ t₄

variable (crypto reader client) in
/-- Whatever is delivered, an order ends as the first right payment for it makes
it, and only the payments for it matter. What is paid stays, what is refused
changes nothing, and deliveries for different orders commute. -/
theorem payments_reconcile {d : Data} (hd : ∀ k order, d.orders.get k = some order → AsPlaced order) :
    (∀ xs k, (deliverAll crypto reader client d xs).orders.get k = (d.orders.get k).map
      (fun order => outcome order (xs.filterMap (paymentFor crypto reader client k)))) ∧
    (∀ xs k order, (deliverAll crypto reader client d xs).orders.get k = some order →
      AsPlaced order ∨ order.status = .confirmed ∧ order.paymentReference.isSome ∧
        ∃ t t', order.timeline = [⟨.placed, t⟩, ⟨.confirmed, t'⟩]) ∧
    (∀ (d : Data) xs k order reference, d.orders.get k = some order →
      order.paymentReference = some reference →
        (deliverAll crypto reader client d xs).orders.get k = some order) ∧
    (∀ (d : Data) x e, reply crypto reader client d x = .error e →
      deliver crypto reader client d x = d) ∧
    ∀ (d : Data) x y, Apart crypto reader client x y → ∀ t₁ t₂ t₃ t₄ k,
      ((deliverAll crypto reader client d [x.at t₁, y.at t₂]).orders.get k).map untimed =
        ((deliverAll crypto reader client d [y.at t₃, x.at t₄]).orders.get k).map untimed := by
  have hfinal (xs : List Delivery) (k : String) :
      (deliverAll crypto reader client d xs).orders.get k = (d.orders.get k).map
        (fun order => outcome order (xs.filterMap (paymentFor crypto reader client k))) := by
    rw [get_deliverAll]
    cases ho : d.orders.get k with
    | none => rfl
    | some order => exact congrArg some (foldl_settle_of_placed (hd k order ho) _)
  refine ⟨hfinal, fun xs k order h => ?_, fun d xs k order reference h hr => ?_,
    fun d x e => deliver_eq_of_error, fun d x y h => deliverAll_comm h d⟩
  · rw [hfinal] at h
    obtain ⟨placed, hp, rfl⟩ := Option.map_eq_some_iff.mp h
    obtain ⟨t, ht⟩ := (hd k placed hp).timeline
    rw [outcome]
    cases (xs.filterMap (paymentFor crypto reader client k)).find?
        (fun p => Settles p.entity placed) with
    | none => exact .inl (hd k placed hp)
    | some p => exact .inr ⟨rfl, rfl, t, p.now, by simp [confirmedBy, ht]⟩
  · rw [get_deliverAll, h, Option.map_some, foldl_settle_of_paid hr]

section Example

def byteReader : EnvelopeReader := fun body =>
  .ok ⟨"payment.paid", ⟨⟨"pay-" ++ toString body.length,
    (body.head?.map (fun b => b.toInt8.toInt64)).getD 0, some "usd",
    Finmap.singleton "order_id" "ord-1"⟩⟩⟩

def byteClient : RazorpayConfig := ⟨"rzp_test_1", "key-secret", .sandbox, defaultBaseUrl, some "s"⟩

def signedDelivery (body : Bytes) (now : Int64) : Delivery :=
  ⟨body, toHex (Platform.bare.crypto.hmacSha256 (utf8 "s") body), now⟩

def fiveCents : Totals := ⟨⟨5, .USD⟩, ⟨0, .USD⟩, ⟨5, .USD⟩⟩

def onePlaced : Data :=
  { Data.new Platform.bare.crypto with
    orders := InMemoryStore.new.insert "ord-1" (Order.new "ord-1" "cs-1" fiveCents 10) }

theorem onePlaced_asPlaced {k : String} {order : Order} (h : onePlaced.orders.get k = some order) :
    AsPlaced order := by
  rw [onePlaced, InMemoryStore.get_insert] at h
  split at h
  · cases h
    exact ⟨rfl, rfl, 10, rfl⟩
  · cases h

/-- A wrong amount, a forged signature, the payment, and the payment again. -/
theorem payments_reconcile_third : (deliverAll Platform.bare.crypto byteReader byteClient onePlaced
    [signedDelivery [7] 20, ⟨[5], "forged", 21⟩, signedDelivery [5, 0] 22,
      signedDelivery [5, 0, 0] 23]).orders.get "ord-1" =
    some ⟨"ord-1", "cs-1", fiveCents, .confirmed, [⟨.placed, 10⟩, ⟨.confirmed, 22⟩],
      some "pay-2"⟩ := by
  rw [(payments_reconcile Platform.bare.crypto byteReader byteClient
    (fun _ _ => onePlaced_asPlaced)).1]
  decide +kernel

end Example

end AiterCommerce.Guarantees.Reconcile
