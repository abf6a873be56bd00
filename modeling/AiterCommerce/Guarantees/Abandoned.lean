import AiterCommerce.Guarantees.ExactlyOnce

namespace AiterCommerce.Guarantees.Abandoned

open AiterCommerce.Core Concurrent Server Books Completion

/-- Every task that holds a lock stands at the wait for another one: no stretch
of code between two waits is half done. -/
def Standing (c : Configuration) : Prop :=
  ∀ l i, c.shared.held l = some i →
    ∃ m rest, c.procs[i.index]? = some ⟨i.request, some (.lock m rest)⟩

def OneReceipt (k : String) (c : Configuration) : Prop :=
  (receipts k c.shared.data.audit).length = 1

/-- A session that an agent was charged for has its order, and it has its one
receipt, or will have it once a new completion of it has run to its end. -/
def AllOrNothing (ext : Platform) (st : AppState) (A : Configuration → Action Request → Prop)
    (c : Configuration) : Prop :=
  ∀ k, (view c.shared).charged k ≠ [] → (c.shared.data.orders.get (orderKey k)).isSome ∧
    (OneReceipt k c ∨ ∀ c' n q x, (app ext st).Runs A c c' → c.procs.length ≤ n →
      c'.returned n = some (q, .order x) → completes q = some k → OneReceipt k c')

variable {ext : Platform} {st : AppState} {c c' : Configuration}

theorem oneReceipt_of_retry {A : Configuration → Action Request → Prop}
    (hA : ∀ c a, A c a → ReceiptKept c a = true) (hc : (spec ext st).Sound c)
    (hr : (app ext st).Runs A c c') {n : Nat} {q : Request} {x : Except ApiError Order} {k : String}
    (hn : c.procs.length ≤ n) (hret : c'.returned n = some (q, .order x))
    (hk : completes q = some k) (hch : (view c.shared).charged k ≠ []) : OneReceipt k c' := by
  have hc' : (spec ext st).Sound c' := hc.runs admits (hr.mono hA)
  obtain ⟨past, hsuf, ⟨e, he, hei⟩, hone⟩ := (hc'.returned hret k x hk rfl).receipt
  refine hone (fun hnil => hch ?_)
  have hle : c.shared.history <:+ past := by
    rcases List.suffix_or_suffix_of_suffix hr.history hsuf with h | h
    · exact h
    · have hlt := hc.actors e (h.subset he)
      rw [hei] at hlt
      exact absurd hlt (not_lt.mpr hn)
  rw [List.filterMap_eq_nil_iff] at hnil
  exact List.filterMap_eq_nil_iff.mpr (fun e he => hnil e (hle.subset he))

/-- As long as no completion is dropped where it waits to issue its receipt,
completions are all or nothing, and the receipt of every charge is there as soon
as the orders are free. -/
theorem all_or_nothing_of_receiptKept (ext : Platform) (st : AppState) {c : Configuration}
    (h : (app ext st).Runs (fun c a => ReceiptKept c a = true) (.start (Data.new ext.crypto)) c)
    (hstand : Standing c) : AllOrNothing ext st (fun c a => ReceiptKept c a = true) c ∧
      (c.shared.held .orders = none → ∀ k, (view c.shared).charged k ≠ [] → OneReceipt k c) := by
  have hc := sound (fun _ _ ha => ha) h
  have hquiet (hq : (view c.shared).Quiet) (k : String) (hch : (view c.shared).charged k ≠ []) :=
    (hq.settled k).receipt_of_charged hch
  refine ⟨fun k hch => ?_, fun ho k hch => ?_⟩
  · by_cases hb : ∃ i, Both c.shared.held i
    · obtain ⟨i, hi⟩ := hb
      obtain ⟨m, rest, hp⟩ := hstand _ i hi.orders
      have hw := (hc.tasks i.index i.request _ hp _ (Spec.Rely.refl _ _) hc.inv).1 hi
      split at hw
      · obtain ⟨k', a, amount, -, hv⟩ := hw
        by_cases hk : k = k'
        · subst hk
          obtain ⟨o, ho, -⟩ := hv.placed.order
          refine ⟨by rw [show c.shared.data.orders.get (orderKey k) = some o from ho]; rfl, .inr ?_⟩
          exact fun c' n q x hr hn hret hq =>
            oneReceipt_of_retry (fun _ _ ha => ha) hc hr hn hret hq hch
        · exact ((hv.others k hk).receipt_of_charged hch).imp_right .inl
      · exact (hquiet hw k hch).imp_right .inl
    · exact (hquiet (hc.inv (fun i hi => hb ⟨i, hi⟩)) k hch).imp_right .inl
  · exact (hquiet (hc.inv (fun i hi => by cases ho.symm.trans hi.orders)) k hch).2

section Runs

open ExactlyOnce (checkingOut)

def completion (now : Int64) : Request := ⟨some demoAgentId, .completeCheckout "cs-1" now now⟩

def upToReceipt : List (Action Request) := checkingOut ++ System.enter 2 (completion 0) 10

def locksFree (c : Configuration) : Bool :=
  [Lock.orders, .sessions, .agents, .audit, .carts, .cancelledCarts, .consents].all
    (fun l => (c.shared.held l).isNone)

theorem standing_of_locksFree (h : locksFree c = true) : Standing c := by
  intro l i hl
  have hfree : (c.shared.held l).isNone = true := by
    refine List.all_eq_true.mp h l ?_
    cases l <;> decide
  simp [hl] at hfree

/-- The client leaves there: the agent is charged and the order is placed, but
the retry answers the order and issues no receipt. -/
theorem abandoned_without_receipt : ¬ ∀ (ext : Platform) (st : AppState) (c : Configuration),
    (app ext st).Runs (fun _ _ => True) (.start (Data.new ext.crypto)) c → Standing c →
      AllOrNothing ext st (fun _ _ => True) c := by
  intro h
  have hplay : (((app .bare .shop).play (fun _ _ => True) (.start (Data.new Platform.bare.crypto))
      (upToReceipt ++ [.drop 2])).bind (fun c =>
        ((app .bare .shop).play (fun _ _ => True) c (System.enter 3 (completion 7) 5)).map (fun c' =>
          decide (((view c.shared).charged "cs-1" ≠ [] ∧ c.procs.length = 3 ∧ locksFree c = true) ∧
            (receipts "cs-1" c.shared.data.audit).length = 0 ∧
            c'.returned 3 = some (completion 7, .order (.ok (Order.new "ord-cs-1" "cs-1"
              ⟨⟨1000, .USD⟩, ⟨0, .USD⟩, ⟨1000, .USD⟩⟩ 0))) ∧
            (receipts "cs-1" c'.shared.data.audit).length = 0)))) = some true := by
    decide +kernel
  obtain ⟨c, hc, hrest⟩ := Option.bind_eq_some_iff.mp hplay
  obtain ⟨c', hc', heq⟩ := Option.map_eq_some_iff.mp hrest
  obtain ⟨⟨hch, hlen, hfree⟩, hnone, hret, hnone'⟩ := of_decide_eq_true heq
  obtain ⟨-, hone | hlater⟩ := h .bare .shop c (System.play_runs hc) (standing_of_locksFree hfree)
    "cs-1" hch
  · exact absurd (hnone.symm.trans hone) (by decide)
  · have hone := hlater c' 3 _ _ (System.play_runs hc') hlen.le hret rfl
    exact absurd (hnone'.symm.trans hone) (by decide)

theorem all_or_nothing_of_receiptKept_dropped : ∃ c : Configuration,
    (view c.shared).charged "cs-1" ≠ [] ∧
      AllOrNothing .bare .shop (fun c a => ReceiptKept c a = true) c := by
  have hplay : (((app .bare .shop).play (fun c a => ReceiptKept c a = true)
      (.start (Data.new Platform.bare.crypto)) (checkingOut ++ System.enter 2 (completion 0) 4 ++
        [.drop 2] ++ System.enter 3 (completion 7) 15)).map (fun c =>
          ((view c.shared).charged "cs-1", locksFree c))) =
      some ([(demoAgentId, ⟨1000, .USD⟩)], true) := by
    decide +kernel
  obtain ⟨c, hc, heq⟩ := Option.map_eq_some_iff.mp hplay
  obtain ⟨hch, hfree⟩ := Prod.mk.inj heq
  exact ⟨c, by simp [hch], (all_or_nothing_of_receiptKept .bare .shop (System.play_runs hc)
    (standing_of_locksFree hfree)).1⟩

end Runs

end AiterCommerce.Guarantees.Abandoned
