import AiterCommerce.Core.Order
import AiterCommerce.Machine.History
import Mathlib.Data.List.Chain
import Mathlib.Data.List.Pairwise
import Mathlib.Data.List.Perm.Subperm

namespace AiterCommerce.Guarantees.Timeline

open AiterCommerce.Core Machine

abbrev OrderCall := OrderEvent × Int64

def apply (order : Order) (call : OrderCall) : Except OrderError Order :=
  order.applyEvent call.1 call.2

def extend (order : Order) (call : OrderCall) : Order := { order with
  status := call.1.targetStatus
  timeline := order.timeline ++ [⟨call.1.targetStatus, call.2⟩] }

def advances (order : Order) (call : OrderCall) : Bool :=
  orderCanTransition order.status call.1 && decide (order.status ≠ call.1.targetStatus)

/-- The state machine allows a change from one status to another. -/
def Edge (a b : OrderStatus) : Prop :=
  ∃ event : OrderEvent, event.targetStatus = b ∧ orderCanTransition a event = true ∧ a ≠ b

section Order

variable {order : Order} {call : OrderCall}

theorem apply_cases (order : Order) (call : OrderCall) :
    (orderCanTransition order.status call.1 = false ∧
      apply order call = .error (.illegalTransition order.status call.1)) ∨
    (order.status = call.1.targetStatus ∧ apply order call = .ok order) ∨
    (advances order call = true ∧ apply order call = .ok (extend order call)) := by
  rw [apply, Order.applyEvent, advances]
  by_cases hcan : orderCanTransition order.status call.1 = true
  · by_cases hsame : order.status = call.1.targetStatus
    · right; left
      rw [if_pos hcan, if_pos hsame]
      exact ⟨hsame, rfl⟩
    · right; right
      rw [if_pos hcan, if_neg hsame]
      exact ⟨by simp [hcan, hsame], rfl⟩
  · left
    rw [if_neg hcan]
    exact ⟨by simpa using hcan, rfl⟩

theorem attempt_apply (order : Order) (call : OrderCall) :
    attempt apply order call = if advances order call then extend order call else order := by
  rcases apply_cases order call with ⟨hcan, h⟩ | ⟨hsame, h⟩ | ⟨hadv, h⟩
  · rw [attempt_error h, advances, hcan]
    rfl
  · rw [attempt_ok h, advances]
    simp [hsame]
  · rw [attempt_ok h, if_pos hadv]

theorem edge_of_advances (h : advances order call = true) :
    Edge order.status call.1.targetStatus := by
  simp only [advances, Bool.and_eq_true, decide_eq_true_eq] at h
  exact ⟨call.1, rfl, h.1, h.2⟩

end Order

section Status

def progress : OrderStatus → Nat
  | .placed => 0
  | .confirmed => 1
  | .shipped => 2
  | .delivered | .cancelled => 3

/-- An order may have one status before the other. -/
def Precedes (a b : OrderStatus) : Prop :=
  progress a < progress b ∧ ¬ (a = .shipped ∧ b = .cancelled)

theorem Edge.precedes {a b : OrderStatus} (h : Edge a b) : Precedes a b := by
  obtain ⟨event, rfl, hcan, hne⟩ := h
  cases a <;> cases event <;>
    simp_all [orderCanTransition, OrderEvent.targetStatus, Precedes, progress]

theorem Precedes.trans {a b c : OrderStatus} (hab : Precedes a b) (hbc : Precedes b c) :
    Precedes a c := by
  refine ⟨hab.1.trans hbc.1, ?_⟩
  rintro ⟨rfl, rfl⟩
  have hb := hab.1
  have hb' := hbc.1
  simp only [progress] at hb hb'
  omega

instance : IsTrans OrderStatus Precedes := ⟨fun _ _ _ => Precedes.trans⟩

variable {statuses : List OrderStatus}

theorem pairwise_precedes (h : statuses.IsChain Edge) : statuses.Pairwise Precedes :=
  List.isChain_iff_pairwise.mp (h.imp fun _ _ => Edge.precedes)

theorem nodup_of_precedes (h : statuses.Pairwise Precedes) : statuses.Nodup :=
  h.imp fun hab hne => by rw [hne] at hab; exact lt_irrefl _ hab.1

theorem length_le_of_precedes (h : statuses.Pairwise Precedes) : statuses.length ≤ 4 := by
  have hnodup : (statuses.map progress).Nodup := by
    rw [List.Nodup, List.pairwise_map]
    exact h.imp fun hab => hab.1.ne
  have hsub : statuses.map progress ⊆ List.range 4 := by
    intro n hn
    obtain ⟨status, -, rfl⟩ := List.mem_map.mp hn
    rw [List.mem_range]
    cases status <;> decide
  simpa using (List.subperm_of_subset hnodup hsub).length_le

theorem precedes_or_precedes (h : statuses.Pairwise Precedes) {a b : OrderStatus}
    (ha : a ∈ statuses) (hb : b ∈ statuses) (hne : a ≠ b) : Precedes a b ∨ Precedes b a := by
  have : Std.Symm (fun a b => Precedes a b ∨ Precedes b a) := ⟨fun _ _ => Or.symm⟩
  exact (h.imp (S := fun a b => Precedes a b ∨ Precedes b a) Or.inl).forall ha hb hne

theorem not_shipped_of_cancelled (h : statuses.Pairwise Precedes)
    (hc : OrderStatus.cancelled ∈ statuses) :
    OrderStatus.shipped ∉ statuses ∧ OrderStatus.delivered ∉ statuses := by
  constructor
  · intro hs
    rcases precedes_or_precedes h hs hc (by decide) with hp | hp
    · exact hp.2 ⟨rfl, rfl⟩
    · exact absurd hp.1 (by decide)
  · intro hd
    rcases precedes_or_precedes h hd hc (by decide) with hp | hp <;>
      exact absurd hp.1 (by decide)

end Status

/-- What the timeline of an order says, from the time it was placed. -/
structure Recorded (start : Int64) (order : Order) : Prop where
  opened : order.timeline.head? = some ⟨.placed, start⟩
  current : order.timeline.getLast?.map TimelineEntry.toStatus = some order.status
  edges : (order.timeline.map TimelineEntry.toStatus).IsChain Edge

theorem recorded_new (id checkoutSessionId : String) (totals : Totals) (start : Int64) :
    Recorded start (Order.new id checkoutSessionId totals start) :=
  ⟨rfl, rfl, List.isChain_singleton _⟩

theorem Recorded.extend {start : Int64} {order : Order} (h : Recorded start order)
    {call : OrderCall} (hadv : advances order call = true) :
    Recorded start (extend order call) where
  opened := by
    change (order.timeline ++ _).head? = _
    rw [List.head?_append, h.opened]
    rfl
  current := by
    change (order.timeline ++ [_]).getLast?.map _ = _
    rw [List.getLast?_concat]
    rfl
  edges := by
    change ((order.timeline ++ [_]).map _).IsChain Edge
    rw [List.map_append, List.isChain_append]
    refine ⟨h.edges, List.isChain_singleton _, ?_⟩
    intro a ha b hb
    rw [List.getLast?_map, h.current] at ha
    cases ha
    cases hb
    exact edge_of_advances hadv

theorem Recorded.statuses_pairwise {start : Int64} {order : Order} (h : Recorded start order) :
    (order.timeline.map TimelineEntry.toStatus).Pairwise Precedes := pairwise_precedes h.edges

theorem Recorded.attempt {start : Int64} {order : Order} (h : Recorded start order)
    (call : OrderCall) : Recorded start (attempt apply order call) := by
  rw [attempt_apply]
  split
  next hadv => exact h.extend hadv
  next => exact h

theorem recorded_history (id checkoutSessionId : String) (totals : Totals) (start : Int64)
    (calls : List OrderCall) :
    Recorded start (history apply (Order.new id checkoutSessionId totals start) calls) :=
  history_inv (recorded_new id checkoutSessionId totals start) (fun _ call h => h.attempt call)
    calls

theorem timeline_prefix_attempt (order : Order) (call : OrderCall) :
    order.timeline <+: (attempt apply order call).timeline := by
  rw [attempt_apply]
  split
  · exact List.prefix_append _ _
  · exact List.prefix_rfl

theorem timeline_prefix_history (order : Order) (calls : List OrderCall) :
    order.timeline <+: (history apply order calls).timeline :=
  history_inv (P := fun later => order.timeline <+: later.timeline) List.prefix_rfl
    (fun later call h => h.trans (timeline_prefix_attempt later call)) calls

theorem attempt_of_not_advances (order : Order) (call : OrderCall)
    (h : advances order call = false) : attempt apply order call = order := by
  rw [attempt_apply, h]
  rfl

/-- A call is rejected, or repeats the current status, or records the next one. -/
def Settled (order : Order) (call : OrderCall) : Prop :=
  (apply order call = .error (.illegalTransition order.status call.1) ∧
      advances order call = false ∧ attempt apply order call = order) ∨
    (order.status = call.1.targetStatus ∧ apply order call = .ok order ∧
      advances order call = false ∧ attempt apply order call = order) ∨
    (advances order call = true ∧ apply order call = .ok (extend order call) ∧
      attempt apply order call = extend order call)

theorem settled (order : Order) (call : OrderCall) : Settled order call := by
  rcases apply_cases order call with ⟨hcan, h⟩ | ⟨hsame, h⟩ | ⟨hadv, h⟩
  · exact .inl ⟨h, by rw [advances, hcan]; rfl, attempt_error h⟩
  · exact .inr (.inl ⟨hsame, h, by simp [advances, hsame], attempt_ok h⟩)
  · exact .inr (.inr ⟨hadv, h, attempt_ok h⟩)

/-- After any calls the timeline starts with the placing and ends in the status of the
order; it follows the edges, never repeats a status and never has both a cancellation
and a shipment. Each further call adds one entry or nothing, and the calls that added
nothing might as well not have been made. -/
theorem timeline_after (id checkoutSessionId : String) (totals : Totals) (start : Int64)
    (calls : List OrderCall) :
    let order := history apply (Order.new id checkoutSessionId totals start) calls
    let statuses := order.timeline.map TimelineEntry.toStatus
    order.timeline ≠ [] ∧ Recorded start order ∧ statuses.Nodup ∧ order.timeline.length ≤ 4 ∧
      ¬ (OrderStatus.cancelled ∈ statuses ∧
        (OrderStatus.shipped ∈ statuses ∨ OrderStatus.delivered ∈ statuses)) ∧
      (∀ call, Settled order call) ∧
      (∀ more, order.timeline <+: (history apply order more).timeline) ∧
      history apply (Order.new id checkoutSessionId totals start)
        (kept apply advances (Order.new id checkoutSessionId totals start) calls) = order := by
  intro order statuses
  have hrec : Recorded start order := recorded_history id checkoutSessionId totals start calls
  have hpair : statuses.Pairwise Precedes := hrec.statuses_pairwise
  refine ⟨?_, hrec, nodup_of_precedes hpair, ?_, ?_, settled order, timeline_prefix_history order, ?_⟩
  · intro hnil
    have hopen := hrec.opened
    rw [hnil] at hopen
    cases hopen
  · have hlen : statuses.length ≤ 4 := length_le_of_precedes hpair
    rwa [List.length_map] at hlen
  · rintro ⟨hc, hs | hd⟩
    · exact (not_shipped_of_cancelled hpair hc).1 hs
    · exact (not_shipped_of_cancelled hpair hc).2 hd
  · exact history_kept attempt_of_not_advances _ calls

end AiterCommerce.Guarantees.Timeline
